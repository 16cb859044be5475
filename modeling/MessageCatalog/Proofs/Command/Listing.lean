import MessageCatalog.Proofs.Command.Rerun
import MessageCatalog.Proofs.Unit.Naming

/-!
# The document of a run

The document of a run lists what the units have extracted, one member for each name of a unit.
A unit with the name of an earlier one takes over its member. So the document has all units, in
the order of paths, exactly if no two of them have the same name; and names are the same where
paths differ in no more than slashes and backslashes.
-/

namespace MessageCatalog

namespace Json

variable {members : List (String × Value)} {key : String} {value : Value}

theorem setMember_fresh (fresh : key ∉ members.map Prod.fst) :
    setMember members key value = members ++ [(key, value)] := by
  rw [setMember, if_neg]
  rw [List.any_eq_true]
  rintro ⟨member, here, same⟩
  exact fresh (List.mem_map.mpr ⟨member, here, beq_iff_eq.mp same⟩)

theorem keys_setMember_taken (taken : key ∈ members.map Prod.fst) :
    (setMember members key value).map Prod.fst = members.map Prod.fst := by
  obtain ⟨member, here, same⟩ := List.mem_map.mp taken
  have found : (members.any fun m => m.1 == key) = true :=
    List.any_eq_true.mpr ⟨member, here, beq_iff_eq.mpr same⟩
  rw [setMember, if_pos found, List.map_map]
  refine List.map_congr_left fun other _ => ?_
  rw [Function.comp_apply]
  split
  · rename_i equal
    exact (beq_iff_eq.mp equal).symm
  · rfl

/-- An object does not get a second member of the same name. -/
theorem nodup_setMember (distinct : (members.map Prod.fst).Nodup) :
    ((setMember members key value).map Prod.fst).Nodup := by
  by_cases taken : key ∈ members.map Prod.fst
  · rwa [keys_setMember_taken taken]
  · rw [setMember_fresh taken, List.map_append, List.nodup_append]
    refine ⟨distinct, List.nodup_singleton key, ?_⟩
    rintro name here other there rfl
    rw [List.mem_singleton.mp there] at here
    exact taken here

section Entries

variable {α : Type} (name : α → String) (entry : α → Value)

theorem nodup_foldl_setMember (items : List α) (distinct : (members.map Prod.fst).Nodup) :
    ((items.foldl (fun members item => setMember members (name item) (entry item))
      members).map Prod.fst).Nodup := by
  induction items generalizing members with
  | nil => exact distinct
  | cons item items ih => exact ih (nodup_setMember distinct)

theorem foldl_setMember_of_nodup {items : List α}
    (distinct : (members.map Prod.fst ++ items.map name).Nodup) :
    items.foldl (fun members item => setMember members (name item) (entry item)) members =
      members ++ items.map fun item => (name item, entry item) := by
  induction items generalizing members with
  | nil => exact (List.append_nil _).symm
  | cons item items ih =>
    rw [List.map_cons] at distinct
    have fresh : name item ∉ members.map Prod.fst := fun taken =>
      (List.nodup_append.mp distinct).2.2 _ taken _ List.mem_cons_self rfl
    rw [List.foldl_cons, setMember_fresh fresh, ih, List.append_assoc]
    · rfl
    · rwa [List.map_append, List.append_assoc]

/-- Members that are set one after the other are all there exactly if their names differ. -/
theorem foldl_setMember_iff (items : List α) :
    items.foldl (fun members item => setMember members (name item) (entry item)) [] =
        items.map (fun item => (name item, entry item)) ↔
      (items.map name).Nodup := by
  constructor
  · intro complete
    have distinct : ((items.foldl _ []).map Prod.fst).Nodup :=
      nodup_foldl_setMember name entry items List.nodup_nil
    rw [complete, List.map_map] at distinct
    exact distinct
  · intro distinct
    exact foldl_setMember_of_nodup name entry distinct

end Entries

end Json

namespace Command

open MessageCatalog.Unit (Job Parser Processed displayName process shownPath)

/-- The member of a unit in the document of a run. -/
def Summary.unitMember (unit : Processed) : String × Json.Value :=
  (unit.extracted.name, Summary.unitValue unit)

/-- The paths of the units of a run: each unit is what one of the files has come to. -/
def Delivered (job : Job) (paths : List Path) (units : List Processed) : Prop :=
  List.Forall₂ (fun path unit => unit.extracted.name = displayName path job.workingDirectory ∧
    ∃ before after, process job before path = (after, .ok unit)) paths units

section Listing

variable {job : Job} {tree after : FileTree} {paths files : List Path} {units : List Processed}
  {errors : List Issue}

/-- The files that have not failed are the paths of the units. -/
theorem Accounts.exists_delivered (accounts : Accounts job tree files units errors after) :
    ∃ paths, paths.Sublist files ∧ Delivered job paths units := by
  induction accounts with
  | nil => exact ⟨[], .slnil, .nil⟩
  | unit step named _ ih =>
    obtain ⟨paths, among, delivered⟩ := ih
    exact ⟨_, among.cons_cons _, .cons ⟨named, _, _, step⟩ delivered⟩
  | error _ _ _ ih =>
    obtain ⟨paths, among, delivered⟩ := ih
    exact ⟨paths, among.cons _, delivered⟩

theorem Delivered.names (delivered : Delivered job paths units) :
    units.map (·.extracted.name) = paths.map fun path => displayName path job.workingDirectory := by
  induction delivered with
  | nil => rfl
  | cons step _ ih => rw [List.map_cons, List.map_cons, ih, step.1]

theorem toValue_eq_iff (summary : Summary) :
    summary.toValue = .object (summary.units.map Summary.unitMember) ↔
      (summary.units.map (·.extracted.name)).Nodup := by
  rw [Summary.toValue, Json.Value.object.injEq]
  exact Json.foldl_setMember_iff (·.extracted.name) Summary.unitValue summary.units

/-- The names of strictly ascending paths are distinct exactly if naming is injective. -/
theorem nodup_names_iff (workingDirectory : Path) (ascending : paths.Pairwise Path.Before) :
    (paths.map fun path => displayName path workingDirectory).Nodup ↔
      ∀ path ∈ paths, ∀ other ∈ paths,
        displayName path workingDirectory = displayName other workingDirectory →
          path.names other = true := by
  rw [List.Nodup, List.pairwise_map]
  exact Path.pairwise_apart_iff ascending Eq.symm

end Listing

/-- The document of a run has one member for each unit, in the order of paths, under the name of
the unit and with its messages, exactly if no two units at different places have the same name.
In an absolute working directory this is so if no unit is shown with a backslash. -/
theorem listing_complete_iff (parser : Parser) (tree : FileTree) (workingDirectory : Path)
    (arguments : ExtractArguments) :
    match extract parser tree workingDirectory arguments with
    | (after, .error fault) =>
      configure tree workingDirectory arguments = .error fault ∧ after = tree
    | (after, .ok summary) =>
      ∃ config files errors paths, configure tree workingDirectory arguments = .ok config ∧
        files = (findUnits tree workingDirectory config arguments.paths).files ∧
        files.Pairwise Path.Before ∧
        Accounts (jobOf parser config workingDirectory) tree files summary.units errors after ∧
        paths.Sublist files ∧
        Delivered (jobOf parser config workingDirectory) paths summary.units ∧
        (summary.toValue = .object (summary.units.map Summary.unitMember) ↔
          ∀ path ∈ paths, ∀ other ∈ paths,
            displayName path workingDirectory = displayName other workingDirectory →
              path.names other = true) ∧
        (workingDirectory.isAbsolute = true →
          (∀ path ∈ paths, '\\' ∉ (shownPath path workingDirectory).text) →
          summary.toValue = .object (summary.units.map Summary.unitMember)) := by
  cases configured : configure tree workingDirectory arguments with
  | error fault =>
    rw [extract_of_error parser configured]
    exact ⟨rfl, rfl⟩
  | ok config =>
    rw [extract_of_ok parser configured]
    dsimp only
    have ascending := findUnits_pairwise tree workingDirectory config arguments.paths
    generalize scanned : findUnits tree workingDirectory config arguments.paths = found
      at ascending ⊢
    let results := Unit.processAll (jobOf parser config workingDirectory) tree found.files
    have accounts := accounts_processAll (jobOf parser config workingDirectory) tree found.files
    obtain ⟨paths, among, delivered⟩ := accounts.exists_delivered
    have names : (summarize results.2 found.skipped).units.map (·.extracted.name) =
        paths.map fun path => displayName path workingDirectory := delivered.names
    have complete := toValue_eq_iff (summarize results.2 found.skipped)
    rw [names, nodup_names_iff workingDirectory (ascending.sublist among)] at complete
    have absolute (rooted : workingDirectory.isAbsolute = true) (path : Path)
        (here : path ∈ paths) : path.isAbsolute = true :=
      isAbsolute_of_mem_findUnits rooted (scanned ▸ among.subset here)
    refine ⟨config, found.files, _, paths, rfl, by rw [scanned], ascending, accounts, among,
      delivered, complete, fun rooted plain => ?_⟩
    refine complete.mpr fun path here other there same => ?_
    exact Unit.names_of_displayName_eq (absolute rooted path here) (absolute rooted other there)
      rooted (plain path here) (plain other there) same

/-! ### Two runs -/

/-- What the units of a run are called, and the keys of their messages. -/
def Summary.outline (summary : Summary) : List (String × List String) :=
  summary.units.map fun unit => (unit.extracted.name, unit.extracted.messages.map (·.id))

/-- The arguments that ask for the two units of the sample. -/
def pairArguments : ExtractArguments :=
  { ExtractArguments.none with paths := ["src/a.tsx", "src/b.tsx"] }

/-- Two units side by side. -/
theorem listing_complete_pair :
    ∃ after summary,
      extract Syntax.parse sampleTree sampleDirectory pairArguments = (after, .ok summary) ∧
      summary.outline = [("src/a.tsx", ["a"]), ("src/b.tsx", ["b"])] ∧
      summary.toValue = .object (summary.units.map Summary.unitMember) := by
  have configured : configure sampleTree sampleDirectory pairArguments = .ok Config.standard := by
    rfl
  have scanned : (findUnits sampleTree sampleDirectory Config.standard pairArguments.paths).files =
      [.ofString "/w/src/a.tsx", .ofString "/w/src/b.tsx"] := findUnits_sample ""
  have complete := listing_complete_iff Syntax.parse sampleTree sampleDirectory pairArguments
  rw [extract_of_ok Syntax.parse configured] at complete ⊢
  obtain ⟨config, files, errors, paths, same, found, -, -, among, -, -, listed⟩ := complete
  obtain rfl := Except.ok.inj (configured.symm.trans same)
  have plain : ∀ path ∈ files, '\\' ∉ (shownPath path sampleDirectory).text := by
    rw [found, scanned]
    decide +kernel
  refine ⟨_, _, rfl, ?_, listed rfl fun path here => plain path (among.subset here)⟩
  rw [scanned]
  decide +kernel

/-- A file in a directory, and a file with a backslash where the path of the other has a
slash. -/
def collidingTree : FileTree :=
  .directory [("w", .directory [
    ("src", .directory [
      ("a", .directory [("b.tsx", .file (some "t(\"y\");"))]),
      ("a\\b.tsx", .file (some "t(\"x\");"))])])]

theorem findUnits_colliding :
    (findUnits collidingTree sampleDirectory Config.standard []).files =
      [.ofString "/w/./src/a/b.tsx", .ofString "/w/./src/a\\b.tsx"] := by
  have found : ((Scan.starts collidingTree (sampleDirectory.child Config.standard.sourceRoot)
      Config.standard.scan.includes).map (Scan.scanFrom collidingTree (Scan.exclusions
        (sampleDirectory.child Config.standard.sourceRoot)
          Config.standard.scan))).flatMap (·.files) =
      [.ofString "/w/./src/a/b.tsx", .ofString "/w/./src/a\\b.tsx"] := by decide +kernel
  have ascending : [Path.ofString "/w/./src/a/b.tsx",
      .ofString "/w/./src/a\\b.tsx"].Pairwise Path.Before := by
    rw [List.pairwise_pair]
    exact ⟨by decide +kernel, by decide +kernel⟩
  rw [findUnits_nil, Scan.scan, Scan.join]
  dsimp only
  rw [found, Scan.arrange_of_pairwise ascending]

/-- Both units succeed, and the document has only one of them: the messages of the second one
stand under the name that both have. -/
theorem listing_incomplete :
    ∃ after summary,
      extract Syntax.parse collidingTree sampleDirectory .none = (after, .ok summary) ∧
      summary.outline = [("src/a/b.tsx", ["y"]), ("src/a/b.tsx", ["x"])] ∧
      summary.issues = [] ∧
      summary.toValue.toDocument =
        (Json.Value.object (summary.units.map Summary.unitMember).tail).toDocument ∧
      summary.toValue ≠ .object (summary.units.map Summary.unitMember) := by
  have configured : configure collidingTree sampleDirectory .none = .ok Config.standard := by rfl
  rw [extract_of_ok Syntax.parse configured]
  refine ⟨_, _, rfl, ?_⟩
  have found : (findUnits collidingTree sampleDirectory Config.standard
      ExtractArguments.none.paths).files = _ := findUnits_colliding
  rw [found]
  have silent : (Unit.processAll (jobOf Syntax.parse Config.standard sampleDirectory) collidingTree
      [.ofString "/w/./src/a/b.tsx", .ofString "/w/./src/a\\b.tsx"]).2.flatMap resultIssues =
      [] := by decide +kernel
  refine ⟨by decide +kernel, ?_, by decide +kernel, ?_⟩
  · rw [summarize, silent]
    exact List.mergeSort_nil
  · rw [ne_eq, toValue_eq_iff]
    decide +kernel

end Command

end MessageCatalog
