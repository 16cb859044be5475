import Mathlib.Data.List.Forall2
import MessageCatalog.Proofs.Unit.Isolation
import MessageCatalog.Proofs.Unit.Output

/-!
# Independence of units

Units are isolated if no unit is read where a catalog is kept, no two catalogs are kept in one
place, and no catalog is on the way to another one without being on its own way. Then what was
processed before does not matter to a unit: its file is unchanged, no new file obstructs the
way to its catalog, and no new directory occupies the place. So it comes to what it comes to
alone, and what becomes of the tree does not depend on the order.

Two things about a failure can depend on what was processed before, and both are reasons that
the system of files gives: for a path that leads nowhere, where it ends; and for an obstructed
way that goes up again, how far it can be followed.
-/

namespace MessageCatalog

namespace Unit

open FileTree (KeptAt Retains placeOf wayTo)
open MessageCatalog.Path (component?)

/-- Whether no way to the directory of all catalogs goes up. -/
def Job.Direct (job : Job) : Prop :=
  ∀ catalogs ∈ job.catalogs, catalogs.IsStraight

/-- Whether the units at some paths keep out of each other's way. -/
structure Isolated (job : Job) (paths : List Path) : Prop where
  absolute : ∀ path ∈ paths, path.isAbsolute = true
  /-- Units are found by going down only. -/
  straight : ∀ path ∈ paths, path.IsStraight
  named : ∀ path ∈ paths, ∀ target, destination? job path = some target → target.IsNamed
  /-- If no way to the directory of all catalogs goes up, then none to a catalog does. -/
  down : job.Direct → ∀ path ∈ paths, ∀ target,
    destination? job path = some target → target.IsStraight
  source : ∀ path ∈ paths, ∀ other ∈ paths, ∀ target, destination? job other = some target →
    placeOf path ≠ placeOf target
  clear : ∀ path ∈ paths, ∀ other ∈ paths, ∀ target target',
    destination? job path = some target → destination? job other = some target' →
    placeOf target ∈ wayTo target' → placeOf target ∈ wayTo target
  distinct : paths.Pairwise fun path other => ∀ target target',
    destination? job path = some target → destination? job other = some target' →
    placeOf target ≠ placeOf target'

/-- Whether a result is the same as another one, apart from the reason that the system of
files gives for a failure. -/
inductive Agrees (job : Job) (tree : FileTree) (path : Path) :
    Except Issue Processed → Except Issue Processed → Prop
  | same (result : Except Issue Processed) : Agrees job tree path result result
  /-- The path leads nowhere. -/
  | unreadable (fault fault' : FileTree.Fault) : tree.existsAt path = false →
    Agrees job tree path
      (.error (.inaccessible (displayName path job.workingDirectory) (readFailure path fault)))
      (.error (.inaccessible (displayName path job.workingDirectory) (readFailure path fault')))
  /-- A file is on the way to the catalog, and the directory of all catalogs is reached by going
  up somewhere. -/
  | obstructed {catalogs target : Path} (fault fault' : FileTree.Fault) :
    job.catalogs = some catalogs → ¬ catalogs.IsStraight →
    destination? job path = some target → Obstructed tree target →
    Agrees job tree path
      (.error (.inaccessible (displayName path job.workingDirectory)
        (writeFailure (target.parent?.getD .empty) fault)))
      (.error (.inaccessible (displayName path job.workingDirectory)
        (writeFailure (target.parent?.getD .empty) fault')))

/-- Whether a unit that is processed alone becomes a unit with a catalog. -/
def Keeps (job : Job) (tree : FileTree) (path : Path) (unit : Processed) (target : Path) : Prop :=
  (process job tree path).2 = .ok unit ∧ unit.catalog = some target

/-- Whether the catalog of a unit is kept at a place. -/
def Placed (job : Job) (tree : FileTree) (paths : List Path) (names : List String) : Prop :=
  ∃ path ∈ paths, ∃ unit target, Keeps job tree path unit target ∧ names = placeOf target

/-- Whether a unit that is processed alone fails because its catalog cannot be written. -/
def Blocked (job : Job) (tree : FileTree) (path : Path) : Prop :=
  ∃ directory fault, (process job tree path).2 =
    .error (.inaccessible (displayName path job.workingDirectory) (writeFailure directory fault))

/-- Whether the way to the catalog of a unit leads through a place. Where ways go up, the unit
counts even if its catalog cannot be written. -/
def Led (job : Job) (tree : FileTree) (paths : List Path) (names : List String) : Prop :=
  ∃ path ∈ paths, ∃ target, destination? job path = some target ∧ names ∈ wayTo target ∧
    ((∃ unit, Keeps job tree path unit target) ∨ ¬ job.Direct ∧ Blocked job tree path)

/-- What becomes of a tree when units are processed, in terms of what each of them comes to
alone: their catalogs are there with the directories on the way, and nothing else is
different. Only where ways go up, a way may also be made in part for a catalog that cannot be
written. -/
structure Completed (job : Job) (tree : FileTree) (paths : List Path) (after : FileTree) :
    Prop where
  retains : Retains tree after
  catalog : ∀ path ∈ paths, ∀ unit target, Keeps job tree path unit target →
    after.itemAt (placeOf target) =
      some (.file (some (Catalog.toDocument unit.extracted.messages)))
  way : ∀ path ∈ paths, ∀ unit target, Keeps job tree path unit target →
    ∀ names ∈ wayTo target, after.itemAt names = some .directory
  other : ∀ names, after.itemAt names = tree.itemAt names ∨ Placed job tree paths names ∨
    tree.itemAt names = none ∧ after.itemAt names = some .directory ∧ Led job tree paths names

section Independence

variable {job : Job} {tree after after' : FileTree} {path target : Path} {paths done : List Path}
  {text : String} {fault : Fault} {unit : Processed} {names : List String}
  {extracted : Extracted}

/-! ### Isolated units -/

theorem Isolated.perm (isolated : Isolated job paths) (order : List Path)
    (same : order.Perm paths) : Isolated job order where
  absolute path among := isolated.absolute path (same.subset among)
  straight path among := isolated.straight path (same.subset among)
  named path among := isolated.named path (same.subset among)
  down direct path among := isolated.down direct path (same.subset among)
  source path among other among' :=
    isolated.source path (same.subset among) other (same.subset among')
  clear path among other among' :=
    isolated.clear path (same.subset among) other (same.subset among')
  distinct := by
    refine (same.pairwise_iff ?_).mpr isolated.distinct
    exact fun apart target target' first second => (apart target' target second first).symm

theorem exists_of_destination? (goes : destination? job path = some target) :
    ∃ catalogs ∈ job.catalogs, target = catalogPath path job.workingDirectory catalogs := by
  obtain ⟨catalogs, kept, same⟩ := Option.map_eq_some_iff.mp goes
  exact ⟨catalogs, kept, same.symm⟩

theorem isStraight_catalogPath {workingDirectory catalogs : Path}
    (absolute : path.isAbsolute = true) (straight : path.IsStraight)
    (absolute' : workingDirectory.isAbsolute = true) (kept : catalogs.isAbsolute = true)
    (direct : catalogs.IsStraight) :
    (catalogPath path workingDirectory catalogs).IsStraight := by
  rw [Path.isStraight_iff (isAbsolute_catalogPath absolute straight absolute' kept),
    steps_catalogPath absolute straight absolute' kept]
  intro piece among
  rcases List.mem_append.mp among with above | below
  · exact (Path.isStraight_iff kept).mp direct piece above
  · exact component?_of_mem_catalogSteps absolute straight below

/-- Units are isolated if their paths go down from the root, their catalogs have different
paths, and none of these is above another. -/
theorem isolated_of_apart (absolute : job.workingDirectory.isAbsolute = true)
    (kept : ∀ catalogs ∈ job.catalogs, catalogs.isAbsolute = true)
    (sources : ∀ path ∈ paths, isSource path = true)
    (rooted : ∀ path ∈ paths, path.isAbsolute = true)
    (straight : ∀ path ∈ paths, path.IsStraight)
    (distinct : ∀ catalogs ∈ job.catalogs, paths.Pairwise fun path other =>
      (catalogPath other job.workingDirectory catalogs).names
        (catalogPath path job.workingDirectory catalogs) = false)
    (apart : ∀ catalogs ∈ job.catalogs, ∀ path ∈ paths, ∀ other ∈ paths,
      (catalogPath other job.workingDirectory catalogs).startsWith
        (catalogPath path job.workingDirectory catalogs) = true →
      (catalogPath other job.workingDirectory catalogs).names
        (catalogPath path job.workingDirectory catalogs) = true) :
    Isolated job paths where
  absolute := rooted
  straight := straight
  named path among target goes := by
    obtain ⟨catalogs, there, rfl⟩ := exists_of_destination? goes
    exact isNamed_of_straight (rooted path among) (straight path among) absolute
      (kept catalogs there)
  down direct path among target goes := by
    obtain ⟨catalogs, there, rfl⟩ := exists_of_destination? goes
    exact isStraight_catalogPath (rooted path among) (straight path among) absolute
      (kept catalogs there) (direct catalogs there)
  source path among other among' target goes := by
    obtain ⟨catalogs, there, rfl⟩ := exists_of_destination? goes
    exact placeOf_ne_catalogPath (sources path among) (rooted path among) (straight path among)
      (rooted other among') (straight other among') absolute (kept catalogs there)
  clear path among other among' target target' goes goes' := by
    obtain ⟨catalogs, there, rfl⟩ := exists_of_destination? goes
    obtain ⟨catalogs', there', rfl⟩ := exists_of_destination? goes'
    obtain rfl := Option.some.inj (there.symm.trans there')
    exact mem_wayTo_self (rooted path among) (straight path among) (rooted other among')
      (straight other among') absolute (kept catalogs there)
      (apart catalogs there path among other among')
  distinct := by
    cases kept' : job.catalogs with
    | none =>
      refine List.pairwise_iff_forall_sublist.mpr fun _ target target' goes => ?_
      rw [destination?, kept'] at goes
      exact absurd goes (by simp)
    | some catalogs =>
      refine (distinct catalogs kept').imp_of_mem ?_
      intro path other among among' different target target' goes goes' same
      rw [destination?, kept', Option.map_some, Option.some.injEq] at goes goes'
      rw [← goes, ← goes'] at same
      rw [names_of_placeOf_eq (rooted other among') (straight other among') (rooted path among)
        (straight path among) absolute (kept catalogs kept') same.symm] at different
      exact absurd different (by simp)

/-! ### Units alone -/

theorem Keeps.destination (keeps : Keeps job tree path unit target) :
    destination? job path = some target := by
  obtain ⟨result, kept⟩ := keeps
  cases read : tree.readTextFrom job.processDirectory path with
  | error fault =>
    rw [process_of_error job read] at result
    exact absurd result (by simp)
  | ok text =>
    rw [process_of_ok job read] at result
    generalize job.parser.extract job.options _ _ = outcome at result
    cases outcome with
    | error fault => exact absurd result (by simp [conclude])
    | ok extracted =>
      rw [conclude_of_ok] at result
      split at result
      · rw [← Except.ok.inj result] at kept
        exact absurd kept (by simp)
      · rename_i goes
        split at result
        · exact absurd result (by simp)
        · rw [← Except.ok.inj result] at kept
          rw [← Option.some.inj kept]
          exact destination?_of_target? goes

theorem not_keeps_of_error {issue : Issue} (failed : (process job tree path).2 = .error issue)
    (unit : Processed) (target : Path) : ¬ Keeps job tree path unit target :=
  fun keeps => absurd (failed.symm.trans keeps.1) (by simp)

theorem Blocked.not_keeps (blocked : Blocked job tree path) (unit : Processed)
    (target : Path) : ¬ Keeps job tree path unit target := by
  obtain ⟨directory, fault, failed⟩ := blocked
  exact not_keeps_of_error failed unit target

theorem Placed.mono (inside : done ⊆ paths) (placed : Placed job tree done names) :
    Placed job tree paths names := by
  obtain ⟨other, among, unit, target, keeps, there⟩ := placed
  exact ⟨other, inside among, unit, target, keeps, there⟩

theorem Led.mono (inside : done ⊆ paths) (led : Led job tree done names) :
    Led job tree paths names := by
  obtain ⟨other, among, target, goes, onWay, reason⟩ := led
  exact ⟨other, inside among, target, goes, onWay, reason⟩

/-- What is different because of some units is also different because of more. -/
theorem Completed.other_of_subset (completed : Completed job tree done after)
    (inside : done ⊆ paths) (names : List String) :
    after.itemAt names = tree.itemAt names ∨ Placed job tree paths names ∨
      tree.itemAt names = none ∧ after.itemAt names = some .directory ∧
        Led job tree paths names := by
  rcases completed.other names with same | placed | ⟨missing, made, led⟩
  · exact .inl same
  · exact .inr (.inl (placed.mono inside))
  · exact .inr (.inr ⟨missing, made, led.mono inside⟩)

/-! ### What was processed before does not matter -/

theorem Completed.itemAt_unit (isolated : Isolated job paths) (inside : done ⊆ paths)
    (among : path ∈ paths) (completed : Completed job tree done after) :
    after.itemAt (placeOf path) = tree.itemAt (placeOf path) ∨
      tree.itemAt (placeOf path) = none ∧ after.itemAt (placeOf path) = some .directory := by
  rcases completed.other (placeOf path) with same | ⟨other, before, unit, target, keeps, there⟩ |
    ⟨missing, made, -⟩
  · exact .inl same
  · exact absurd there
      (isolated.source path among other (inside before) target keeps.destination)
  · exact .inr ⟨missing, made⟩

/-- What could not be reached still cannot be read: the file would have been there before, and
then the way to it as well. -/
theorem Completed.unreadable {fault : FileTree.Fault} (isolated : Isolated job paths)
    (inside : done ⊆ paths) (among : path ∈ paths) (completed : Completed job tree done after)
    (blocked : tree.obstacleTo? path = some fault) : after.readText path ≠ .ok text := by
  intro readable
  obtain ⟨other, file⟩ := FileTree.exists_file_of_readText readable
  have before : tree.itemAt (placeOf path) = some (.file other) := by
    rcases completed.itemAt_unit isolated inside among with same | ⟨-, made⟩
    · exact same.symm.trans file
    · exact absurd (made.symm.trans file) (by simp)
  have clear := FileTree.existsAt_iff.mp (FileTree.existsAt_of_readText readable)
  rw [FileTree.obstacleTo?] at blocked clear
  split at clear
  · rename_i lead
    rw [lead] at blocked
    have down : ∀ piece ∈ path.parts.body, component? piece ≠ some .parent :=
      fun piece => (isolated.straight path among).component?_ne
    rcases FileTree.obstacle?_cases tree [] path.parts.body with none | file' | missing
    · exact absurd (none.symm.trans blocked) (by simp)
    · rw [completed.retains.obstacle?_eq_notDirectory
        (by rw [FileTree.itemAt_nil]; simp) file'] at clear
      exact absurd clear (by simp)
    · exact FileTree.obstacle?_ne_notFound down
        (FileTree.placeFrom_mem_visited [] path.parts.body) before missing
  · exact absurd clear (by simp)

/-- A unit is read as before, and if it could not be read, then it still cannot. -/
theorem Completed.readText (isolated : Isolated job paths) (inside : done ⊆ paths)
    (among : path ∈ paths) (completed : Completed job tree done after) :
    match tree.readText path with
    | .ok text => after.readText path = .ok text
    | .error fault => ∃ fault', after.readText path = .error fault' ∧
        (fault' = fault ∨ tree.existsAt path = false) := by
  cases blocked : tree.obstacleTo? path with
  | none =>
    obtain ⟨node, -, there⟩ := FileTree.get_of_clear blocked
    have same := (completed.itemAt_unit isolated inside among).resolve_right fun made => by
      simp [FileTree.itemAt, there] at made
    have read : after.readText path = tree.readText path := by
      rw [FileTree.readText_eq, FileTree.readText_eq, blocked,
        completed.retains.obstacleTo?_eq_none blocked, same]
    rw [read]
    cases tree.readText path with
    | error fault => exact ⟨fault, rfl, .inl rfl⟩
    | ok text => rfl
  | some fault =>
    have nowhere : tree.existsAt path = false := by
      rw [← Bool.not_eq_true, FileTree.existsAt_iff, blocked]
      simp
    have unread : tree.readText path = .error fault := by
      rw [FileTree.readText_eq, blocked]
    rw [unread]
    cases read : after.readText path with
    | error fault' => exact ⟨fault', rfl, .inr nowhere⟩
    | ok text => exact absurd read (completed.unreadable isolated inside among blocked)

theorem Completed.obstructed_iff (isolated : Isolated job paths) (inside : done ⊆ paths)
    (among : path ∈ paths) (completed : Completed job tree done after)
    (goes : destination? job path = some target) :
    Obstructed after target ↔ Obstructed tree target := by
  constructor
  · rintro ⟨place, onWay, other, file⟩
    rcases completed.other place with same | ⟨path', before, unit, target', keeps, rfl⟩ |
      ⟨-, made, -⟩
    · exact ⟨place, onWay, other, same ▸ file⟩
    · -- A catalog on the way would be a directory.
      have own := isolated.clear path' (inside before) path among target' target
        keeps.destination goes onWay
      rw [completed.way path' before unit target' keeps _ own] at file
      exact absurd file (by simp)
    · rw [made] at file
      exact absurd file (by simp)
  · rintro ⟨place, onWay, other, file⟩
    obtain ⟨other', file'⟩ := completed.retains.file place other file
    exact ⟨place, onWay, other', file'⟩

theorem Completed.occupied_iff (isolated : Isolated job paths) (inside : done ⊆ paths)
    (among : path ∈ paths) (completed : Completed job tree done after)
    (goes : destination? job path = some target) :
    Occupied after target ↔ Occupied tree target := by
  constructor
  · rintro (here | own)
    · rcases completed.other (placeOf target) with
        same | ⟨path', before, unit, target', keeps, there⟩ |
        ⟨-, -, path', before, target', goes', onWay, -⟩
      · exact .inl (same ▸ here)
      · rw [there, completed.catalog path' before unit target' keeps] at here
        exact absurd here (by simp)
      · exact .inr (isolated.clear path among path' (inside before) target target' goes goes'
          onWay)
    · exact .inr own
  · rintro (here | own)
    · exact .inl (completed.retains.directory _ here)
    · exact .inr own

/-! ### Trees that units leave behind -/

theorem Completed.refl (job : Job) (tree : FileTree) : Completed job tree [] tree where
  retains := .refl tree
  catalog _ among := absurd among List.not_mem_nil
  way _ among := absurd among List.not_mem_nil
  other _ := .inl rfl

/-- A unit without a catalog adds nothing. -/
theorem Completed.concat (completed : Completed job tree done after)
    (none : ∀ unit target, ¬ Keeps job tree path unit target) :
    Completed job tree (done ++ [path]) after where
  retains := completed.retains
  catalog other among := by
    rcases List.mem_append.mp among with before | last
    · exact completed.catalog other before
    · rw [List.mem_singleton.mp last]
      exact fun unit target keeps => absurd keeps (none unit target)
  way other among := by
    rcases List.mem_append.mp among with before | last
    · exact completed.way other before
    · rw [List.mem_singleton.mp last]
      exact fun unit target keeps => absurd keeps (none unit target)
  other := completed.other_of_subset (List.subset_append_left _ _)

/-- Directories on the way to the catalog of a unit may be added if the unit gets its catalog,
or if ways go up and the catalog cannot be written. -/
theorem Completed.other_of_furnishes (completed : Completed job tree done after)
    (goes : destination? job path = some target)
    (furnishes : FileTree.Furnishes (· ∈ wayTo target) after after')
    (reason : (∃ unit, Keeps job tree path unit target) ∨ ¬ job.Direct ∧ Blocked job tree path)
    (names : List String) :
    after'.itemAt names = tree.itemAt names ∨ Placed job tree (done ++ [path]) names ∨
      tree.itemAt names = none ∧ after'.itemAt names = some .directory ∧
        Led job tree (done ++ [path]) names := by
  rcases furnishes.itemAt names with kept | ⟨missing, made, onWay⟩
  · rw [kept]
    exact completed.other_of_subset (List.subset_append_left _ _) names
  · rcases completed.other names with same | ⟨path', before, unit, target', keeps, rfl⟩ |
      ⟨-, made', -⟩
    · refine .inr (.inr ⟨same ▸ missing, made, ?_⟩)
      exact ⟨path, List.mem_append_right _ List.mem_cons_self, target, goes, onWay, reason⟩
    · rw [completed.catalog path' before unit target' keeps] at missing
      exact absurd missing (by simp)
    · rw [made'] at missing
      exact absurd missing (by simp)

/-- A catalog that cannot be written may leave directories behind where ways go up. -/
theorem Completed.furnish (completed : Completed job tree done after)
    (goes : destination? job path = some target)
    (furnishes : FileTree.Furnishes (· ∈ wayTo target) after after')
    (climbs : ¬ job.Direct) (blocked : Blocked job tree path) :
    Completed job tree (done ++ [path]) after' where
  retains := completed.retains.trans furnishes.retains
  catalog other among unit target' keeps := by
    rcases List.mem_append.mp among with before | last
    · have there := completed.catalog other before unit target' keeps
      rw [furnishes.itemAt_eq (by rw [there]; simp), there]
    · rw [List.mem_singleton.mp last] at keeps
      exact absurd keeps (blocked.not_keeps unit target')
  way other among unit target' keeps names onWay := by
    rcases List.mem_append.mp among with before | last
    · exact furnishes.retains.directory names
        (completed.way other before unit target' keeps names onWay)
    · rw [List.mem_singleton.mp last] at keeps
      exact absurd keeps (blocked.not_keeps unit target')
  other := completed.other_of_furnishes goes furnishes (.inr ⟨climbs, blocked⟩)

theorem Keeps.unique {unit' : Processed} {target' : Path} (keeps : Keeps job tree path unit target)
    (keeps' : Keeps job tree path unit' target') : unit' = unit ∧ target' = target := by
  obtain ⟨result, kept⟩ := keeps
  obtain ⟨result', kept'⟩ := keeps'
  have same := Except.ok.inj (result'.symm.trans result)
  rw [same] at kept'
  exact ⟨same, Option.some.inj (kept'.symm.trans kept)⟩

/-- A unit that succeeds adds its catalog. -/
theorem Completed.deliver (completed : Completed job tree done after) (named : target.IsNamed)
    (keeps : Keeps job tree path unit target)
    (new : ∀ other ∈ done, ∀ target', destination? job other = some target' →
      placeOf target' ≠ placeOf target)
    (furnishes : FileTree.Furnishes (· ∈ wayTo target) after after')
    (way : ∀ place ∈ wayTo target, after'.itemAt place = some .directory)
    (free : after'.itemAt (placeOf target) ≠ some .directory) :
    Completed job tree (done ++ [path]) (after'.put (placeOf target)
      (.file (some (Catalog.toDocument unit.extracted.messages)))) := by
  have items := itemAt_put_placeOf named way free
    (Catalog.toDocument unit.extracted.messages)
  have retains := retains_put_placeOf named way free
    (Catalog.toDocument unit.extracted.messages)
  constructor
  case retains => exact (completed.retains.trans furnishes.retains).trans retains
  case catalog =>
    intro other among unit' target' keeps'
    rcases List.mem_append.mp among with before | last
    · have there := completed.catalog other before unit' target' keeps'
      rw [items, if_neg (new other before target' keeps'.destination),
        furnishes.itemAt_eq (by rw [there]; simp), there]
    · rw [List.mem_singleton.mp last] at keeps'
      obtain ⟨rfl, rfl⟩ := keeps.unique keeps'
      rw [items, if_pos rfl]
  case way =>
    intro other among unit' target' keeps' names onWay
    rcases List.mem_append.mp among with before | last
    · exact (furnishes.retains.trans retains).directory names
        (completed.way other before unit' target' keeps' names onWay)
    · rw [List.mem_singleton.mp last] at keeps'
      obtain ⟨rfl, rfl⟩ := keeps.unique keeps'
      exact retains.directory names (way names onWay)
  case other =>
    intro names
    rw [items]
    split
    · rename_i here
      exact .inr (.inl ⟨path, List.mem_append_right _ List.mem_cons_self, unit, target, keeps,
        here⟩)
    · exact completed.other_of_furnishes keeps.destination furnishes (.inl ⟨unit, keeps⟩) names

/-! ### One unit after others -/

/-- What is left behind by a catalog that cannot be written: nothing new if ways go down
only. -/
theorem Completed.fail {reason : String} (isolated : Isolated job paths) (among : path ∈ paths)
    (completed : Completed job tree done after) (goes : destination? job path = some target)
    (blocked : Blocked job tree path)
    (written : writeCatalog after job.processDirectory target extracted.messages =
      (after', .error reason)) :
    Completed job tree (done ++ [path]) after' := by
  have named := isolated.named path among target goes
  by_cases direct : job.Direct
  · rw [writeCatalog_of_failed named (isolated.down direct path among target goes) written]
    exact completed.concat blocked.not_keeps
  · have delivery := writeCatalog_delivery after job.processDirectory named extracted.messages
    rw [written] at delivery
    cases delivery with
    | obstructed furnishes _ _ => exact completed.furnish goes furnishes direct blocked
    | occupied furnishes _ _ => exact completed.furnish goes furnishes direct blocked

theorem exists_of_not_direct (climbs : ¬ job.Direct) :
    ∃ catalogs, job.catalogs = some catalogs ∧ ¬ catalogs.IsStraight := by
  rw [Job.Direct] at climbs
  push Not at climbs
  exact climbs

/-- A catalog is delivered, or fails to be, as it would be alone. -/
theorem Completed.write (isolated : Isolated job paths) (inside : done ⊆ paths)
    (among : path ∈ paths) (completed : Completed job tree done after)
    (new : ∀ other ∈ done, ∀ target', destination? job other = some target' →
      placeOf target' ≠ placeOf target)
    (goes : target? job path extracted.messages = some target)
    (alone : process job tree path = conclude job tree path (.ok extracted)) :
    Agrees job tree path (conclude job tree path (.ok extracted)).2
        (conclude job after path (.ok extracted)).2 ∧
      Completed job tree (done ++ [path]) (conclude job after path (.ok extracted)).1 := by
  have goes' := destination?_of_target? goes
  have named := isolated.named path among target goes'
  have delivery := writeCatalog_delivery tree job.processDirectory named extracted.messages
  have delivery' := writeCatalog_delivery after job.processDirectory named extracted.messages
  rw [conclude_of_ok, goes] at alone ⊢
  rw [conclude_of_ok, goes]
  dsimp only at alone ⊢
  generalize written : writeCatalog tree job.processDirectory target extracted.messages = outcome
    at alone delivery ⊢
  generalize written' : writeCatalog after job.processDirectory target extracted.messages =
    outcome' at delivery' ⊢
  obtain ⟨after₀, result⟩ := outcome
  obtain ⟨after', result'⟩ := outcome'
  have obstructed := completed.obstructed_iff isolated inside among goes'
  have occupied := completed.occupied_iff isolated inside among goes'
  have first := delivery.result
  have second := delivery'.result
  rw [obstructed, occupied] at second
  rcases first with ⟨hindered, fault, rfl⟩ | ⟨clear, taken, rfl⟩ | ⟨clear, free, rfl⟩
  · obtain ⟨fault', rfl⟩ : ∃ fault', result' =
        .error (writeFailure (target.parent?.getD .empty) fault') := by
      rcases second with ⟨-, failed⟩ | ⟨clear, -⟩ | ⟨clear, -⟩
      · exact failed
      · exact absurd hindered clear
      · exact absurd hindered clear
    have blocked : Blocked job tree path := ⟨_, fault, congrArg Prod.snd alone⟩
    refine ⟨?_, completed.fail isolated among goes' blocked written'⟩
    by_cases direct : job.Direct
    · obtain ⟨fault'', unchanged⟩ := writeCatalog_of_obstructed named
        (isolated.down direct path among target goes') hindered
      have same := (unchanged tree extracted.messages (.refl tree)).symm.trans written
      have same' := (unchanged after extracted.messages completed.retains).symm.trans written'
      rw [← (Prod.mk.inj same).2, ← (Prod.mk.inj same').2]
      exact .same _
    · obtain ⟨catalogs, kept, climbs⟩ := exists_of_not_direct direct
      exact .obstructed fault fault' kept climbs goes' hindered
  · obtain rfl : result' = .error (writeFailure target .isDirectory) := by
      rcases second with ⟨hindered, -⟩ | ⟨-, -, failed⟩ | ⟨-, free, -⟩
      · exact absurd hindered clear
      · exact failed
      · exact absurd taken free
    have blocked : Blocked job tree path := ⟨_, _, congrArg Prod.snd alone⟩
    exact ⟨.same _, completed.fail isolated among goes' blocked written'⟩
  · obtain rfl : result' = .ok () := by
      rcases second with ⟨hindered, -⟩ | ⟨-, taken, -⟩ | ⟨-, -, succeeded⟩
      · exact absurd hindered clear
      · exact absurd taken free
      · exact succeeded
    refine ⟨.same _, ?_⟩
    have keeps : Keeps job tree path ⟨extracted, some target⟩ target := ⟨by rw [alone], rfl⟩
    cases delivery' with
    | delivered furnishes way free =>
      have delivered := completed.deliver named keeps new furnishes way free
      exact delivered

/-- After others, a unit comes to what it comes to alone. -/
theorem Completed.step (isolated : Isolated job paths) (inside : done ⊆ paths)
    (among : path ∈ paths) (completed : Completed job tree done after)
    (new : ∀ other ∈ done, ∀ target target', destination? job other = some target →
      destination? job path = some target' → placeOf target ≠ placeOf target') :
    Agrees job tree path (process job tree path).2 (process job after path).2 ∧
      Completed job tree (done ++ [path]) (process job after path).1 := by
  have reading := completed.readText isolated inside among
  have direct : ∀ tree : FileTree,
      tree.readTextFrom job.processDirectory path = tree.readText path := fun _ =>
    FileTree.readTextFrom_of_isAbsolute (isolated.absolute path among)
  cases read : tree.readText path with
  | error fault =>
    rw [read] at reading
    obtain ⟨fault', read', reason⟩ := reading
    have alone := process_of_error job ((direct tree).trans read)
    have none := not_keeps_of_error (congrArg Prod.snd alone)
    rw [alone, process_of_error job ((direct after).trans read')]
    refine ⟨?_, completed.concat none⟩
    rcases reason with rfl | nowhere
    · exact .same _
    · exact .unreadable fault fault' nowhere
  | ok text =>
    rw [read] at reading
    have alone := process_of_ok job ((direct tree).trans read)
    rw [alone, process_of_ok job ((direct after).trans reading)]
    generalize job.parser.extract job.options _ text = outcome at alone ⊢
    cases outcome with
    | error fault =>
      have none := not_keeps_of_error (congrArg Prod.snd alone)
      exact ⟨.same _, completed.concat none⟩
    | ok extracted =>
      cases goes : target? job path extracted.messages with
      | none =>
        rw [conclude_of_ok, goes] at alone ⊢
        rw [conclude_of_ok, goes]
        refine ⟨.same _, completed.concat fun unit target keeps => ?_⟩
        obtain ⟨result, kept⟩ := keeps
        rw [alone] at result
        rw [← Except.ok.inj result] at kept
        exact absurd kept (by simp)
      | some target =>
        exact completed.write isolated inside among
          (fun other before target' goes' =>
            new other before target' target goes' (destination?_of_target? goes)) goes alone

/-! ### All units -/

theorem Completed.processAll (isolated : Isolated job (done ++ paths))
    (completed : Completed job tree done after) :
    List.Forall₂ (fun path result => Agrees job tree path (process job tree path).2 result) paths
        (processAll job after paths).2 ∧
      Completed job tree (done ++ paths) (processAll job after paths).1 := by
  induction paths generalizing done after with
  | nil =>
    rw [List.append_nil]
    exact ⟨.nil, completed⟩
  | cons path paths ih =>
    have apart := (List.pairwise_append.mp isolated.distinct).2.2
    obtain ⟨agrees, completed'⟩ := completed.step isolated (List.subset_append_left _ _)
      (List.mem_append_right _ List.mem_cons_self)
      fun other before => apart other before path List.mem_cons_self
    rw [List.append_cons] at isolated ⊢
    obtain ⟨others, completed''⟩ := ih isolated completed'
    exact ⟨.cons agrees others, completed''⟩

/-- What becomes of a tree does not depend on the order of units. -/
theorem Completed.perm {order : List Path} (completed : Completed job tree order after)
    (same : order.Perm paths) : Completed job tree paths after where
  retains := completed.retains
  catalog path among := completed.catalog path (same.symm.subset among)
  way path among := completed.way path (same.symm.subset among)
  other := completed.other_of_subset same.subset

/-- Isolated units come to what they come to alone, and leave behind the same, in any
order. -/
theorem processAll_isolated (isolated : Isolated job paths) (tree : FileTree)
    {order : List Path} (same : order.Perm paths) :
    List.Forall₂ (fun path result => Agrees job tree path (process job tree path).2 result) order
        (processAll job tree order).2 ∧
      Completed job tree paths (processAll job tree order).1 := by
  obtain ⟨results, completed⟩ :=
    Completed.processAll (isolated.perm order same) (.refl job tree)
  exact ⟨results, completed.perm same⟩

end Independence

end Unit

end MessageCatalog
