import Mathlib.Data.List.Forall2
import MessageCatalog.Command.Run
import MessageCatalog.Proofs.Issue.Order
import MessageCatalog.Proofs.Scan.Arrangement

/-!
# Accounts of runs

A run goes through the files of its scan, in the order of paths and without repetition. Each
file becomes one unit, or one error is reported in its place. The warnings of the units are
all else that is reported, so that the counts and the status of a run can be read off the
account.

None of this depends on the order in which the files are processed, as long as their results
are put back in the order of paths: whatever a file comes to, it has one result.
-/

namespace MessageCatalog

namespace Unit

variable {job : Job} {tree after : FileTree} {path : Path} {options : Extraction.Options}
  {parser : Parser} {name text : String} {extracted : Extracted} {unit : Processed}
  {issue : Issue} {paths : List Path} {result : Except Issue Processed}

theorem name_of_extract (succeeded : parser.extract options name text = .ok extracted) :
    extracted.name = name := by
  simp only [Parser.extract, bind, Except.bind] at succeeded
  split at succeeded
  · exact absurd succeeded (by simp)
  · split at succeeded
    · exact absurd succeeded (by simp [throw, throwThe, MonadExceptOf.throw])
    · exact (congrArg Extracted.name (Except.ok.inj succeeded)).symm

theorem name_of_process (succeeded : process job tree path = (after, .ok unit)) :
    unit.extracted.name = displayName path job.workingDirectory := by
  rw [process] at succeeded
  split at succeeded
  · exact absurd (Prod.mk.inj succeeded).2 (by simp)
  · rw [processText] at succeeded
    generalize found : job.parser.extract job.options _ _ = outcome at succeeded
    cases outcome with
    | error fault => exact absurd (Prod.mk.inj succeeded).2 (by simp)
    | ok extracted =>
      rw [conclude] at succeeded
      split at succeeded
      · exact absurd (Prod.mk.inj succeeded).2 (by simp)
      · rw [← Except.ok.inj (Prod.mk.inj succeeded).2]
        exact name_of_extract found

theorem severity_of_process (failed : process job tree path = (after, .error issue)) :
    issue.severity = .error := by
  rw [process] at failed
  split at failed
  · exact Except.error.inj (Prod.mk.inj failed).2 ▸ rfl
  · rw [processText] at failed
    generalize job.parser.extract job.options _ _ = outcome at failed
    cases outcome with
    | error fault =>
      rw [← Except.error.inj (Prod.mk.inj failed).2]
      cases fault <;> rfl
    | ok extracted =>
      rw [conclude] at failed
      split at failed
      · exact Except.error.inj (Prod.mk.inj failed).2 ▸ rfl
      · exact absurd (Prod.mk.inj failed).2 (by simp)

theorem length_processAll (job : Job) (tree : FileTree) (paths : List Path) :
    (processAll job tree paths).2.length = paths.length := by
  induction paths generalizing tree with
  | nil => rfl
  | cons path paths ih => rw [processAll, List.length_cons, List.length_cons, ih]

/-- Every result of units is what one of them has come to. -/
theorem exists_process_of_mem_zip
    (among : (path, result) ∈ paths.zip (processAll job tree paths).2) :
    ∃ before after, process job before path = (after, result) := by
  induction paths generalizing tree with
  | nil => exact absurd among List.not_mem_nil
  | cons other paths ih =>
    rw [processAll] at among
    rcases List.mem_cons.mp among with first | later
    · obtain ⟨rfl, rfl⟩ := Prod.mk.inj first
      exact ⟨tree, _, rfl⟩
    · exact ih later

end Unit

namespace Command

open MessageCatalog.Unit (Job Parser Processed displayName process processAll)

/-- The account of files that are processed one after the other: each of them becomes a unit,
or an error is reported in its place. -/
inductive Accounts (job : Job) :
    FileTree → List Path → List Processed → List Issue → FileTree → Prop
  | nil (tree : FileTree) : Accounts job tree [] [] [] tree
  | unit {tree tree' after : FileTree} {path : Path} {paths : List Path} {unit : Processed}
    {units : List Processed} {errors : List Issue} :
    process job tree path = (tree', .ok unit) →
    unit.extracted.name = displayName path job.workingDirectory →
    Accounts job tree' paths units errors after →
    Accounts job tree (path :: paths) (unit :: units) errors after
  | error {tree tree' after : FileTree} {path : Path} {paths : List Path} {issue : Issue}
    {units : List Processed} {errors : List Issue} :
    process job tree path = (tree', .error issue) → issue.severity = .error →
    Accounts job tree' paths units errors after →
    Accounts job tree (path :: paths) units (issue :: errors) after

/-- The account of files, given what each of them has come to in some order: the result of a
file is a unit of its name, or an error is reported in its place. -/
inductive Collected (job : Job) (done : List (Path × Except Issue Processed)) :
    List Path → List Processed → List Issue → Prop
  | nil : Collected job done [] [] []
  | unit {path : Path} {paths : List Path} {unit : Processed} {units : List Processed}
    {errors : List Issue} : (path, .ok unit) ∈ done →
    unit.extracted.name = displayName path job.workingDirectory →
    Collected job done paths units errors →
    Collected job done (path :: paths) (unit :: units) errors
  | error {path : Path} {paths : List Path} {issue : Issue} {units : List Processed}
    {errors : List Issue} : (path, .error issue) ∈ done → issue.severity = .error →
    Collected job done paths units errors →
    Collected job done (path :: paths) units (issue :: errors)

/-- The issues of units, all of them warnings. -/
def warningsOf (units : List Processed) : List Issue :=
  units.flatMap fun unit => unit.extracted.warnings.map .unsupported

/-- The failures among results. -/
def errorsOf : List (Except Issue Processed) → List Issue
  | [] => []
  | .error issue :: results => issue :: errorsOf results
  | .ok _ :: results => errorsOf results

/-- The results of units that were processed in some order, put in the order of other paths. -/
def arranged (order : List Path) (results : List (Except Issue Processed)) (paths : List Path) :
    List (Except Issue Processed) :=
  paths.filterMap fun path => List.lookup path (order.zip results)

/-- Whether a summary counts the files, and reports their errors with the warnings of its units
and nothing else, in order. -/
structure Summary.Tallies (summary : Summary) (files : List Path) (errors : List Issue) :
    Prop where
  files : summary.files = files.length
  issues : summary.issues.Perm
    (errors ++ summary.units.flatMap fun unit => unit.extracted.warnings.map .unsupported)
  sorted : summary.issues.Pairwise fun a b => a.precedes b = true
  errorCount : summary.errorCount = errors.length
  warningCount : summary.warningCount =
    (summary.units.flatMap (·.extracted.warnings)).length

section Accounts

variable {job : Job} {tree after : FileTree} {order paths : List Path} {units : List Processed}
  {errors : List Issue} {results : List (Except Issue Processed)}
  {done : List (Path × Except Issue Processed)}

theorem severity_of_mem_warningsOf {issue : Issue} (among : issue ∈ warningsOf units) :
    issue.severity = .warning := by
  obtain ⟨unit, -, inside⟩ := List.mem_flatMap.mp among
  obtain ⟨warning, -, rfl⟩ := List.mem_map.mp inside
  rfl

theorem length_warningsOf (units : List Processed) :
    (warningsOf units).length = (units.flatMap (·.extracted.warnings)).length := by
  rw [warningsOf, ← List.map_flatMap, List.length_map]

/-! ### Results and issues -/

/-- What results report are their failures and the warnings of their units. -/
theorem flatMap_resultIssues_perm (results : List (Except Issue Processed)) :
    (results.flatMap resultIssues).Perm
      (errorsOf results ++ warningsOf (results.filterMap Except.toOption)) := by
  induction results with
  | nil => exact .nil
  | cons result results ih =>
    cases result with
    | error issue => exact ih.cons issue
    | ok unit =>
      -- The warnings of the unit move behind the errors of the results after it.
      refine (ih.append_left _).trans ?_
      rw [← List.append_assoc]
      refine (List.perm_append_comm.append_right _).trans ?_
      rw [List.append_assoc]
      exact .refl _

theorem errorCount_summarize (skipped : Nat)
    (bad : ∀ issue ∈ errorsOf results, issue.severity = .error) :
    (summarize results skipped).errorCount = (errorsOf results).length := by
  rw [Summary.errorCount, Issue.errorCount, summarize,
    ((Issue.sort_perm _).trans (flatMap_resultIssues_perm results)).countP_eq,
    List.countP_append,
    List.countP_eq_length.mpr fun issue among => decide_eq_true (bad issue among),
    List.countP_eq_zero.mpr]
  · rfl
  · intro issue among
    rw [severity_of_mem_warningsOf among]
    decide

/-- Whatever the results of files are, their summary counts what it reports. -/
theorem summarize_tallies (skipped : Nat) (length : results.length = paths.length)
    (bad : ∀ issue ∈ errorsOf results, issue.severity = .error) :
    (summarize results skipped).Tallies paths (errorsOf results) where
  files := length
  issues := (Issue.sort_perm _).trans (flatMap_resultIssues_perm results)
  sorted := Issue.sort_pairwise _
  errorCount := errorCount_summarize skipped bad
  warningCount := by
    have count := ((Issue.sort_perm _).trans (flatMap_resultIssues_perm results)).length_eq
    rw [List.length_append, length_warningsOf] at count
    rw [Summary.warningCount, errorCount_summarize skipped bad, summarize, count,
      Nat.add_sub_cancel_left]

/-! ### Results and files -/

theorem Collected.severity (collected : Collected job done paths units errors) :
    ∀ issue ∈ errors, issue.severity = .error := by
  induction collected with
  | nil => exact fun issue among => absurd among List.not_mem_nil
  | unit _ _ _ ih => exact ih
  | error _ bad _ ih =>
    intro issue among
    rcases List.mem_cons.mp among with rfl | among
    · exact bad
    · exact ih issue among

/-- The results of files are an account of them. -/
theorem accounts_processAll (job : Job) (tree : FileTree) (paths : List Path) :
    Accounts job tree paths ((processAll job tree paths).2.filterMap Except.toOption)
      (errorsOf (processAll job tree paths).2) (processAll job tree paths).1 := by
  induction paths generalizing tree with
  | nil => exact .nil tree
  | cons path paths ih =>
    have accounts := ih (process job tree path).1
    rw [processAll]
    generalize step : process job tree path = outcome at accounts ⊢
    obtain ⟨tree', issue | unit⟩ := outcome
    · exact .error step (Unit.severity_of_process step) accounts
    · exact .unit step (Unit.name_of_process step) accounts

/-- Results that are put in another order are those of the paths there. -/
theorem forall₂_arranged (long : results.length = order.length) (inside : paths ⊆ order) :
    List.Forall₂ (fun path result => (path, result) ∈ order.zip results) paths
      (arranged order results paths) := by
  induction paths with
  | nil => exact .nil
  | cons path paths ih =>
    obtain ⟨first, others⟩ := List.cons_subset.mp inside
    obtain ⟨result, found⟩ : ∃ result, List.lookup path (order.zip results) = some result := by
      rw [← Option.isSome_iff_exists, List.lookup_isSome_iff]
      rw [← List.map_fst_zip (Nat.le_of_eq long.symm)] at first
      obtain ⟨pair, among, same⟩ := List.mem_map.mp first
      exact ⟨pair, among, beq_iff_eq.mpr same.symm⟩
    have next : arranged order results (path :: paths) = result :: arranged order results paths :=
      List.filterMap_cons_some found
    rw [next]
    refine .cons ?_ (ih others)
    obtain ⟨before, after, split, -⟩ := List.lookup_eq_some_iff.mp found
    rw [split]
    exact List.mem_append_right before List.mem_cons_self

/-- Files that have come to something are an account, in whatever order they have. -/
theorem collected_of_forall₂
    (settled : ∀ path result, (path, result) ∈ done →
      ∃ before after, process job before path = (after, result))
    (each : List.Forall₂ (fun path result => (path, result) ∈ done) paths results) :
    Collected job done paths (results.filterMap Except.toOption) (errorsOf results) := by
  induction each with
  | nil => exact .nil
  | @cons path result paths results here _ ih =>
    obtain ⟨before, after, step⟩ := settled path result here
    cases result with
    | error issue => exact .error here (Unit.severity_of_process step) ih
    | ok unit => exact .unit here (Unit.name_of_process step) ih

theorem status_extractOutcome (coloured : Bool) (arguments : ExtractArguments)
    (tree : FileTree) (summary : Summary) :
    (extractOutcome coloured arguments tree summary).status =
      if 0 < summary.errorCount then .failure else .success := by
  rw [extractOutcome]
  split <;> rfl

/-- A run fails exactly if there are errors among what its summary reports. -/
theorem status_of_tallies (coloured : Bool) (arguments : ExtractArguments) (tree : FileTree)
    {summary : Summary} (tallies : summary.Tallies paths errors) :
    (extractOutcome coloured arguments tree summary).status =
      if errors = [] then .success else .failure := by
  rw [status_extractOutcome, tallies.errorCount]
  cases errors <;> rfl

theorem findUnits_pairwise (tree : FileTree) (workingDirectory : Path) (config : Config)
    (paths : List String) :
    (findUnits tree workingDirectory config paths).files.Pairwise Path.Before := by
  rw [findUnits]
  split
  · exact Scan.arrange_pairwise _
  · exact Scan.arrange_pairwise _

/-- Every file of a run is accounted for exactly once, by a unit or by an error, in the order
of paths. Besides the errors only the warnings of the units are reported; the counts agree
with the account, and the run fails exactly if a file does. The same holds if the files are
processed in any other order and their results are put back in the order of paths. -/
theorem extract_accounts (parser : Parser) (coloured : Bool) (tree : FileTree)
    (workingDirectory : Path) (arguments : ExtractArguments) :
    match extract parser tree workingDirectory arguments with
    | (after, .error fault) =>
      configure tree workingDirectory arguments = .error fault ∧ after = tree
    | (after, .ok summary) =>
      ∃ config files errors, configure tree workingDirectory arguments = .ok config ∧
        files = (findUnits tree workingDirectory config arguments.paths).files ∧
        files.Pairwise Path.Before ∧
        Accounts (jobOf parser config workingDirectory) tree files summary.units errors after ∧
        summary.Tallies files errors ∧
        (runWith coloured parser tree workingDirectory (.extract arguments)).status =
          (if errors = [] then .success else .failure) ∧
        ∀ order : List Path, order.Perm files →
          let job := jobOf parser config workingDirectory
          let outcome := processAll job tree order
          let other := summarize (arranged order outcome.2 files) summary.skipped
          ∃ errors, Collected job (order.zip outcome.2) files other.units errors ∧
            other.Tallies files errors ∧
            (extractOutcome coloured arguments outcome.1 other).status =
              if errors = [] then .success else .failure := by
  cases configured : configure tree workingDirectory arguments with
  | error fault =>
    rw [extract, configured]
    exact ⟨rfl, rfl⟩
  | ok config =>
    have ascending := findUnits_pairwise tree workingDirectory config arguments.paths
    rw [runWith, extract, configured]
    dsimp only
    generalize scanned : findUnits tree workingDirectory config arguments.paths = found
      at ascending ⊢
    let job := jobOf parser config workingDirectory
    have long := Unit.length_processAll job tree
    have settled (order : List Path) (path : Path) (result : Except Issue Processed)
        (among : (path, result) ∈ order.zip (processAll job tree order).2) :=
      Unit.exists_process_of_mem_zip among
    refine ⟨config, found.files, _, rfl, by rw [scanned], ascending,
      accounts_processAll job tree found.files, ?_⟩
    have tallies := summarize_tallies found.skipped (long found.files)
      (collected_of_forall₂ (settled found.files)
        (List.forall₂_iff_zip.mpr ⟨(long found.files).symm, id⟩)).severity
    refine ⟨tallies, status_of_tallies coloured arguments _ tallies, fun order same => ?_⟩
    have each := forall₂_arranged (long order) same.symm.subset
    have collected := collected_of_forall₂ (settled order) each
    have tallies := summarize_tallies found.skipped each.length_eq.symm collected.severity
    exact ⟨_, collected, tallies, status_of_tallies coloured arguments _ tallies⟩

end Accounts

end Command

end MessageCatalog
