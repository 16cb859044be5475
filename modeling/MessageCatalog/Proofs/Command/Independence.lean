import MessageCatalog.Proofs.Command.Accounts
import MessageCatalog.Proofs.Scan.Found
import MessageCatalog.Proofs.Unit.Independence

/-!
# Independence of the units of a run

The check for shared catalogs finds every catalog that two units claim. If it finds none and
no catalog is above another one, then the units of a run are isolated, so that each of them
comes to what it comes to alone, in any order.

An exception are the reasons that the system of files gives for failures. If the directory of
all catalogs is written with a parent in it, then the way there leads through directories that
it does not end in; whether they are there already decides how the failure is called.
-/

namespace MessageCatalog

namespace Command

open MessageCatalog.Unit (Agrees Completed Isolated Parser catalogPath process processAll)

section Sharing

variable {workingDirectory catalogs : Path} {owned units : List Path}

theorem sharedAfter_eq_nil_iff :
    sharedAfter workingDirectory catalogs owned units = [] ↔
      (∀ unit ∈ units, ∀ catalog ∈ owned,
        (catalogPath unit workingDirectory catalogs).names catalog = false) ∧
      units.Pairwise fun unit other => (catalogPath other workingDirectory catalogs).names
        (catalogPath unit workingDirectory catalogs) = false := by
  induction units generalizing owned with
  | nil => simp [sharedAfter]
  | cons unit units ih =>
    rw [sharedAfter]
    split
    · rename_i claimed
      obtain ⟨catalog, among, same⟩ := List.any_eq_true.mp claimed
      refine ⟨fun empty => absurd empty (List.cons_ne_nil _ _), fun apart => ?_⟩
      rw [apart.1 unit List.mem_cons_self catalog among] at same
      exact absurd same (by simp)
    · rename_i free
      rw [Bool.not_eq_true, List.any_eq_false] at free
      rw [ih, List.pairwise_cons]
      constructor
      · rintro ⟨apart, distinct⟩
        refine ⟨fun other among catalog inside => ?_, fun other among => ?_, distinct⟩
        · rcases List.mem_cons.mp among with rfl | among
          · exact Bool.eq_false_iff.mpr (free catalog inside)
          · exact apart other among catalog (List.mem_cons_of_mem _ inside)
        · exact apart other among _ List.mem_cons_self
      · rintro ⟨apart, first, distinct⟩
        refine ⟨fun other among catalog inside => ?_, distinct⟩
        rcases List.mem_cons.mp inside with rfl | inside
        · exact first other among
        · exact apart other (List.mem_cons_of_mem _ among) catalog inside

theorem sharedCatalogs_eq_nil_iff :
    sharedCatalogs workingDirectory catalogs units = [] ↔
      units.Pairwise fun unit other => (catalogPath other workingDirectory catalogs).names
        (catalogPath unit workingDirectory catalogs) = false := by
  rw [sharedCatalogs, sharedAfter_eq_nil_iff]
  exact ⟨And.right, fun distinct =>
    ⟨fun _ _ catalog among => absurd among List.not_mem_nil, distinct⟩⟩

/-- No catalog is shared exactly if units at different places have different catalogs. -/
theorem sharedCatalogs_eq_nil_iff_injective (ascending : units.Pairwise Path.Before) :
    sharedCatalogs workingDirectory catalogs units = [] ↔
      ∀ unit ∈ units, ∀ other ∈ units, (catalogPath unit workingDirectory catalogs).names
        (catalogPath other workingDirectory catalogs) = true → unit.names other = true := by
  rw [sharedCatalogs_eq_nil_iff, ← Path.pairwise_apart_iff ascending]
  · refine List.Pairwise.iff fun unit other => ?_
    rw [← Bool.not_eq_true, Path.names_iff, eq_comm, ← Path.names_iff]
  · intro unit other same
    rw [Path.names_iff] at same ⊢
    exact same.symm

end Sharing

section Units

variable {tree : FileTree} {workingDirectory path : Path} {config : Config}
  {paths : List String}

theorem isSource_of_mem_findUnits
    (among : path ∈ (findUnits tree workingDirectory config paths).files) :
    Unit.isSource path = true := by
  rw [findUnits] at among
  split at among
  · exact Scan.isSource_of_mem_scan among
  · obtain ⟨given, -, inside | ⟨rfl, source⟩⟩ := Scan.mem_collect among
    · exact Scan.isSource_of_mem_scan inside
    · exact source

theorem isAbsolute_of_mem_findUnits (absolute : workingDirectory.isAbsolute = true)
    (among : path ∈ (findUnits tree workingDirectory config paths).files) :
    path.isAbsolute = true := by
  rw [findUnits] at among
  split at among
  · exact Scan.isAbsolute_of_mem_scan (Path.isAbsolute_append absolute _) among
  · obtain ⟨given, listed, found⟩ := Scan.mem_collect among
    obtain ⟨text, -, rfl⟩ := List.mem_map.mp listed
    rcases found with inside | ⟨rfl, -⟩
    · exact Scan.isAbsolute_of_mem_scan (Path.isAbsolute_append absolute _) inside
    · exact Path.isAbsolute_append absolute _

theorem isAbsolute_of_mem_catalogs? {catalogs : Path}
    (absolute : workingDirectory.isAbsolute = true)
    (kept : catalogs ∈ config.catalogs? workingDirectory) : catalogs.isAbsolute = true := by
  obtain ⟨directory, -, rfl⟩ := Option.map_eq_some_iff.mp kept
  exact Path.isAbsolute_append absolute _

/-- The check for shared catalogs is exact. If it finds none and no catalog is above another
one, then in every order each unit comes to what it comes to alone, apart from the reason for
a failure where the path of the unit leads nowhere or a file is on a way that goes up, and the
tree that is left behind has exactly the catalogs of the units that succeed. -/
theorem units_independent (parser : Parser) (tree : FileTree) (workingDirectory : Path)
    (config : Config) (paths : List String) :
    let files := (findUnits tree workingDirectory config paths).files
    let job := jobOf parser config workingDirectory
    (∀ catalogs, sharedCatalogs workingDirectory catalogs files = [] ↔
      ∀ unit ∈ files, ∀ other ∈ files,
        (catalogPath unit workingDirectory catalogs).names
          (catalogPath other workingDirectory catalogs) = true → unit.names other = true) ∧
    (workingDirectory.isAbsolute = true → (∀ unit ∈ files, unit.IsStraight) →
      (∀ catalogs ∈ job.catalogs, sharedCatalogs workingDirectory catalogs files = []) →
      (∀ catalogs ∈ job.catalogs, ∀ unit ∈ files, ∀ other ∈ files,
        (catalogPath other workingDirectory catalogs).startsWith
          (catalogPath unit workingDirectory catalogs) = true →
        (catalogPath other workingDirectory catalogs).names
          (catalogPath unit workingDirectory catalogs) = true) →
      ∀ order : List Path, order.Perm files →
        List.Forall₂
          (fun unit result => Agrees job tree unit (process job tree unit).2 result)
          order (processAll job tree order).2 ∧
        Completed job tree files (processAll job tree order).1) := by
  intro files job
  refine ⟨fun catalogs => sharedCatalogs_eq_nil_iff_injective (findUnits_pairwise ..), ?_⟩
  intro absolute straight unshared apart order same
  have isolated : Isolated job files :=
    Unit.isolated_of_apart absolute
      (fun catalogs => isAbsolute_of_mem_catalogs? absolute)
      (fun unit => isSource_of_mem_findUnits)
      (fun unit => isAbsolute_of_mem_findUnits absolute) straight
      (fun catalogs kept => sharedCatalogs_eq_nil_iff.mp (unshared catalogs kept)) apart
  exact Unit.processAll_isolated isolated tree same

/-- The working directory of the instances below. -/
def sampleDirectory : Path := .ofString "/w"

/-- Two units in a directory, next to a file. -/
def sampleTree : FileTree :=
  .directory [("w", .directory [
    ("file", .file (some "x")),
    ("src", .directory [
      ("a.tsx", .file (some "t(\"a\");")),
      ("b.tsx", .file (some "t(\"b\");"))])])]

/-- A configuration that keeps catalogs below a directory. -/
def sampleConfig (directory : String) : Config :=
  { Config.standard with messagesDir := some directory }

theorem findUnits_sample (directory : String) :
    (findUnits sampleTree sampleDirectory (sampleConfig directory)
      ["src/a.tsx", "src/b.tsx"]).files =
      [.ofString "/w/src/a.tsx", .ofString "/w/src/b.tsx"] := by
  have given : ((["src/a.tsx", "src/b.tsx"].map sampleDirectory.child).map
      (Scan.collectOne sampleTree (sampleConfig directory).scan)).flatMap (·.files) =
      [.ofString "/w/src/a.tsx", .ofString "/w/src/b.tsx"] := by
    rfl
  have ascending : [Path.ofString "/w/src/a.tsx", .ofString "/w/src/b.tsx"].Pairwise
      Path.Before := by
    rw [List.pairwise_pair]
    exact ⟨by decide +kernel, by decide +kernel⟩
  rw [findUnits, if_neg (by decide), Scan.collect, Scan.join]
  dsimp only
  rw [given, Scan.arrange_of_pairwise ascending]

/-- Two units with catalogs in a new directory, the second one first. -/
theorem units_independent_reversed :
    let files : List Path := [.ofString "/w/src/a.tsx", .ofString "/w/src/b.tsx"]
    let job := jobOf Syntax.parse (sampleConfig "out") sampleDirectory
    (findUnits sampleTree sampleDirectory (sampleConfig "out")
        ["src/a.tsx", "src/b.tsx"]).files = files ∧
      sampleDirectory.isAbsolute = true ∧ (∀ unit ∈ files, unit.IsStraight) ∧
      (∀ catalogs ∈ job.catalogs, sharedCatalogs sampleDirectory catalogs files = []) ∧
      (∀ catalogs ∈ job.catalogs, ∀ unit ∈ files, ∀ other ∈ files,
        (catalogPath other sampleDirectory catalogs).startsWith
          (catalogPath unit sampleDirectory catalogs) = true →
        (catalogPath other sampleDirectory catalogs).names
          (catalogPath unit sampleDirectory catalogs) = true) ∧
      List.Forall₂ (fun unit result => Agrees job sampleTree unit
          (process job sampleTree unit).2 result)
        files.reverse (processAll job sampleTree files.reverse).2 ∧
      Completed job sampleTree files (processAll job sampleTree files.reverse).1 := by
  intro files job
  have found := findUnits_sample "out"
  have straight : ∀ unit ∈ files, unit.IsStraight := by decide +kernel
  have unshared : ∀ catalogs ∈ job.catalogs,
      sharedCatalogs sampleDirectory catalogs files = [] := by decide +kernel
  have apart : ∀ catalogs ∈ job.catalogs, ∀ unit ∈ files, ∀ other ∈ files,
      (catalogPath other sampleDirectory catalogs).startsWith
        (catalogPath unit sampleDirectory catalogs) = true →
      (catalogPath other sampleDirectory catalogs).names
        (catalogPath unit sampleDirectory catalogs) = true := by decide +kernel
  have independent := (units_independent Syntax.parse sampleTree sampleDirectory
    (sampleConfig "out") ["src/a.tsx", "src/b.tsx"]).2
  rw [found] at independent
  obtain ⟨results, completed⟩ := independent rfl straight unshared apart files.reverse
    (List.reverse_perm files)
  exact ⟨found, rfl, straight, unshared, apart, results, completed⟩

/-- The first unit makes the directory `new` on its way to a file; only then the second one
can follow its own way up to there, and fails for another reason than alone. -/
theorem units_differ_behind_parent :
    let files : List Path := [.ofString "/w/src/a.tsx", .ofString "/w/src/b.tsx"]
    let job := jobOf Syntax.parse (sampleConfig "new/../file") sampleDirectory
    (findUnits sampleTree sampleDirectory (sampleConfig "new/../file")
        ["src/a.tsx", "src/b.tsx"]).files = files ∧
      (∀ unit ∈ files, unit.IsStraight) ∧
      (∀ catalogs ∈ job.catalogs, sharedCatalogs sampleDirectory catalogs files = []) ∧
      (∀ catalogs ∈ job.catalogs, ∀ unit ∈ files, ∀ other ∈ files,
        (catalogPath other sampleDirectory catalogs).startsWith
          (catalogPath unit sampleDirectory catalogs) = true → unit = other) ∧
      (processAll job sampleTree files).2 ≠
        files.map fun unit => (process job sampleTree unit).2 := by
  intro files job
  refine ⟨findUnits_sample _, by decide +kernel, by decide +kernel, by decide +kernel, ?_⟩
  intro same
  have reasons := congrArg (List.map fun result =>
    match result with
    | .error issue => issue.message
    | .ok _ => "") same
  revert reasons
  decide +kernel

end Units

end Command

end MessageCatalog
