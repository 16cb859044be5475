import MessageCatalog.Proofs.FileTree.Making
import MessageCatalog.Unit.Process

/-!
# Delivering catalogs

A catalog is delivered in two steps: the directories on the way to it are made, and its text
is put in its place. A file on the way obstructs the first step, a directory in the place
prevents the second. Otherwise the text is there afterwards, and nothing else is different
apart from directories on the way that were missing.

In a process a catalog is delivered to what its path stands for, which is the path itself if
that starts at the root. Where a relative path stands for nothing, nothing is changed.
-/

namespace MessageCatalog

namespace Unit

open FileTree (Furnishes Furnished KeptAt Neat placeFrom placeOf visited wayTo)
open MessageCatalog.Path (component? isSilent)

/-- What delivering a text comes to, where failures call the path by a name of its own. -/
inductive Delivery (tree : FileTree) (shown path : Path) (text : String) :
    FileTree × Except String Unit → Prop
  | obstructed {tree' : FileTree} {fault : FileTree.Fault} {place : List String}
    {other : Option String} :
    Furnishes (· ∈ wayTo path) tree tree' → place ∈ wayTo path →
    tree.itemAt place = some (.file other) →
    Delivery tree shown path text
      (tree', .error (writeFailure (shown.parent?.getD .empty) fault))
  | occupied {tree' : FileTree} : Furnishes (· ∈ wayTo path) tree tree' →
    (∀ place ∈ wayTo path, tree'.itemAt place = some .directory) →
    tree'.itemAt (placeOf path) = some .directory →
    Delivery tree shown path text (tree', .error (writeFailure shown .isDirectory))
  | delivered {tree' : FileTree} : Furnishes (· ∈ wayTo path) tree tree' →
    (∀ place ∈ wayTo path, tree'.itemAt place = some .directory) →
    tree'.itemAt (placeOf path) ≠ some .directory →
    Delivery tree shown path text (tree'.put (placeOf path) (.file (some text)), .ok ())

section Delivering

variable {tree after : FileTree} {path shown directory : Path} {front : List (List Char)}
  {last : List Char} {place : List String} {text : String} {messages : List Catalog.Entry}

/-! ### Paths that end in a name -/

theorem wayTo_eq (parts : path.parts = ⟨some .root, front ++ [last]⟩) :
    wayTo path = visited [] front := by
  rw [wayTo, parts, List.dropLast_concat]

theorem placeOf_eq_concat (parts : path.parts = ⟨some .root, front ++ [last]⟩)
    (name : component? last = some (.name last)) :
    placeOf path = placeFrom [] front ++ [String.ofList last] := by
  rw [placeOf, parts, FileTree.placeFrom_append, FileTree.placeFrom_cons,
    FileTree.placeFrom_nil, FileTree.stepFrom_name name]

theorem loud_of_name (name : component? last = some (.name last)) : isSilent last = false := by
  rw [isSilent, name, Option.isNone_some]

/-- The directory that a place is in is the last one on the way. -/
theorem exists_placeOf_eq (named : path.IsNamed) :
    ∃ names name, placeOf path = names ++ [name] ∧ names ∈ wayTo path := by
  obtain ⟨front, last, parts, name⟩ := named
  refine ⟨placeFrom [] front, String.ofList last, placeOf_eq_concat parts name, ?_⟩
  rw [wayTo_eq parts]
  exact FileTree.placeFrom_mem_visited [] front

/-- The directory that contains a path, with what making it needs to know. -/
theorem exists_parent (parts : path.parts = ⟨some .root, front ++ [last]⟩)
    (name : component? last = some (.name last)) :
    ∃ body, (path.parent?.getD .empty).parts = ⟨some .root, body⟩ ∧ Neat body ∧
      Path.spoken body = Path.spoken front ∧
      body.length ≤ (path.parent?.getD .empty).text.length + 1 := by
  have plain : ∀ piece ∈ front, Path.separator ∉ piece := by
    intro piece among
    have inside : piece ∈ path.parts.body := by
      rw [parts]
      exact List.mem_append_left _ among
    exact Path.separator_not_mem_of_mem_body inside
  rw [Path.parent?_of_parts parts (loud_of_name name), Option.getD_some]
  obtain ⟨body, above, neat, same, -, -⟩ := FileTree.parts_parent plain
  refine ⟨body, above, neat, same, ?_⟩
  obtain ⟨s, spelled⟩ := Path.isAbsolute_iff.mp (Path.isAbsolute_of_lead (by rw [above]))
  have cutting := Path.parts_of_text spelled
  rw [above, Path.Parts.mk.injEq] at cutting
  have bound := Path.length_pieces_le s
  rw [spelled, cutting.2, List.length_cons]
  omega

/-! ### Delivering -/

theorem deliver_delivery (tree : FileTree) (shown : Path) (named : path.IsNamed)
    (text : String) : Delivery tree shown path text (deliver tree shown path text) := by
  obtain ⟨front, last, parts, name⟩ := named
  obtain ⟨body, above, neat, same, enough⟩ := exists_parent parts name
  have along : ∀ place, place ∈ visited [] body ↔ place ∈ wayTo path := by
    intro place
    rw [wayTo_eq parts, FileTree.mem_visited_congr same]
  have made : Furnished tree body (tree.makeDirectories _ (path.parent?.getD .empty)) :=
    FileTree.makeDirectories_furnished above neat enough
  rw [deliver]
  generalize tree.makeDirectories _ _ = outcome at made ⊢
  cases made with
  | blocked furnishes among file =>
    exact .obstructed (furnishes.mono fun place => (along place).mp) ((along _).mp among) file
  | @done tree' furnishes way =>
    have furnishes := furnishes.mono fun place => (along place).mp
    have way : ∀ place ∈ wayTo path, tree'.itemAt place = some .directory :=
      fun place among => way place ((along place).mpr among)
    have written := FileTree.writeText_eq parts name (by rwa [← wayTo_eq parts]) text
    rw [← placeOf_eq_concat parts name] at written
    simp only [written]
    by_cases taken : tree'.itemAt (placeOf path) = some .directory
    · rw [if_pos taken]
      exact .occupied furnishes way taken
    · rw [if_neg taken]
      exact .delivered furnishes way taken

theorem writeCatalog_of_error {fault : FileTree.Fault}
    (nowhere : tree.resolve directory path = .error fault) (messages : List Catalog.Entry) :
    ∃ reason, writeCatalog tree directory path messages = (tree, .error reason) := by
  rw [writeCatalog, nowhere]
  exact ⟨_, rfl⟩

theorem writeCatalog_of_ok {stands : Path} (resolved : tree.resolve directory path = .ok stands)
    (messages : List Catalog.Entry) :
    writeCatalog tree directory path messages =
      deliver tree path stands (Catalog.toDocument messages) := by
  rw [writeCatalog, resolved]

theorem writeCatalog_of_named (tree : FileTree) (directory : Path) (named : path.IsNamed)
    (messages : List Catalog.Entry) :
    writeCatalog tree directory path messages =
      deliver tree path path (Catalog.toDocument messages) :=
  writeCatalog_of_ok (FileTree.resolve_of_isAbsolute named.isAbsolute) messages

theorem writeCatalog_delivery (tree : FileTree) (directory : Path) (named : path.IsNamed)
    (messages : List Catalog.Entry) :
    Delivery tree path path (Catalog.toDocument messages)
      (writeCatalog tree directory path messages) := by
  rw [writeCatalog_of_named tree directory named]
  exact deliver_delivery tree path named _

/-- What is where after a text has been put in its place. -/
theorem itemAt_put_placeOf (named : path.IsNamed)
    (way : ∀ place ∈ wayTo path, tree.itemAt place = some .directory)
    (free : tree.itemAt (placeOf path) ≠ some .directory) (text : String) (place : List String) :
    (tree.put (placeOf path) (.file (some text))).itemAt place =
      if place = placeOf path then some (.file (some text)) else tree.itemAt place := by
  obtain ⟨names, name, place', among⟩ := exists_placeOf_eq named
  rw [place'] at free ⊢
  exact FileTree.itemAt_put_file (way names among) free place

theorem retains_put_placeOf (named : path.IsNamed)
    (way : ∀ place ∈ wayTo path, tree.itemAt place = some .directory)
    (free : tree.itemAt (placeOf path) ≠ some .directory) (text : String) :
    FileTree.Retains tree (tree.put (placeOf path) (.file (some text))) := by
  have items := itemAt_put_placeOf named way free text
  constructor
  · intro names here
    rw [items, if_neg, here]
    rintro rfl
    exact free here
  · intro names other here
    rw [items]
    split
    · exact ⟨_, rfl⟩
    · exact ⟨other, here⟩

theorem placeOf_not_mem_wayTo
    (way : ∀ place ∈ wayTo path, tree.itemAt place = some .directory)
    (free : tree.itemAt (placeOf path) ≠ some .directory) : placeOf path ∉ wayTo path :=
  fun among => free (way _ among)

/-- A path leads to what is in its place if its way is there. -/
theorem readText_of_wayTo (named : path.IsNamed)
    (way : ∀ place ∈ wayTo path, tree.itemAt place = some .directory)
    (file : tree.itemAt (placeOf path) = some (.file (some text))) :
    tree.readText path = .ok text := by
  obtain ⟨front, last, parts, name⟩ := named
  rw [wayTo_eq parts] at way
  have clear : tree.obstacleTo? path = none := by
    have inside := way _ (FileTree.placeFrom_mem_visited [] front)
    rw [FileTree.obstacleTo?, parts]
    simp only
    rw [FileTree.obstacle?_append, FileTree.obstacle?_eq_none way, Option.none_or,
      FileTree.obstacle?_single, if_neg (Classical.not_not.mpr inside),
      FileTree.stepFrom_name name, ← placeOf_eq_concat parts name, file, if_neg (by simp)]
  rw [FileTree.readText_eq, clear, file]

theorem readText_put_placeOf (named : path.IsNamed)
    (way : ∀ place ∈ wayTo path, tree.itemAt place = some .directory)
    (free : tree.itemAt (placeOf path) ≠ some .directory) (text : String) :
    (tree.put (placeOf path) (.file (some text))).readText path = .ok text := by
  have items := itemAt_put_placeOf named way free text
  refine readText_of_wayTo named (fun place among => ?_) (by rw [items, if_pos rfl])
  rw [items, if_neg, way place among]
  rintro rfl
  exact placeOf_not_mem_wayTo way free among

/-- Only what is in the place of a text can differ after its delivery, and if the delivery
failed, then not even that. -/
theorem Delivery.keptAt {outcome : FileTree × Except String Unit} (named : path.IsNamed)
    (delivery : Delivery tree shown path text outcome) (names : List String) :
    KeptAt tree outcome.1 names ∨ names = placeOf path ∧ outcome.2 = .ok () := by
  cases delivery with
  | obstructed furnishes _ _ => exact .inl (furnishes.keptAt names)
  | occupied furnishes _ _ => exact .inl (furnishes.keptAt names)
  | delivered furnishes way free =>
    by_cases same : names = placeOf path
    · exact .inr ⟨same, rfl⟩
    · refine .inl ?_
      rw [KeptAt, itemAt_put_placeOf named way free, if_neg same]
      exact furnishes.keptAt names

theorem Delivery.retains {outcome : FileTree × Except String Unit} (named : path.IsNamed)
    (delivery : Delivery tree shown path text outcome) : FileTree.Retains tree outcome.1 := by
  cases delivery with
  | obstructed furnishes _ _ => exact furnishes.retains
  | occupied furnishes _ _ => exact furnishes.retains
  | delivered furnishes way free =>
    exact furnishes.retains.trans (retains_put_placeOf named way free text)

/-- What has been delivered can be read. -/
theorem Delivery.readText (named : path.IsNamed)
    (delivery : Delivery tree shown path text (after, .ok ())) :
    after.readText path = .ok text := by
  cases delivery with
  | delivered _ way free => exact readText_put_placeOf named way free text

/-! ### What decides the result -/

/-- Whether a file is on the way to a path. -/
def Obstructed (tree : FileTree) (path : Path) : Prop :=
  ∃ place ∈ wayTo path, ∃ other, tree.itemAt place = some (.file other)

/-- Whether a directory is in the place of a path once the way to it is there. -/
def Occupied (tree : FileTree) (path : Path) : Prop :=
  tree.itemAt (placeOf path) = some .directory ∨ placeOf path ∈ wayTo path

theorem not_obstructed (furnishes : Furnishes (· ∈ wayTo path) tree after)
    (way : ∀ place ∈ wayTo path, after.itemAt place = some .directory) :
    ¬ Obstructed tree path := by
  rintro ⟨place, among, other, file⟩
  have kept : after.itemAt place = tree.itemAt place :=
    furnishes.itemAt_eq (by rw [file]; simp)
  rw [way place among, file] at kept
  exact absurd kept (by simp)

theorem occupied_iff (furnishes : Furnishes (· ∈ wayTo path) tree after)
    (way : ∀ place ∈ wayTo path, after.itemAt place = some .directory) :
    after.itemAt (placeOf path) = some .directory ↔ Occupied tree path := by
  constructor
  · intro taken
    rcases furnishes.itemAt (placeOf path) with kept | ⟨-, -, among⟩
    · exact .inl (kept ▸ taken)
    · exact .inr among
  · rintro (here | among)
    · exact furnishes.retains.directory _ here
    · exact way _ among

/-- The result of a delivery depends on what is on the way and in the place, and on the
reason that an obstruction is given. -/
theorem Delivery.result {result : Except String Unit}
    (delivery : Delivery tree shown path text (after, result)) :
    Obstructed tree path ∧
        (∃ fault, result = .error (writeFailure (shown.parent?.getD .empty) fault)) ∨
      ¬ Obstructed tree path ∧ Occupied tree path ∧
        result = .error (writeFailure shown .isDirectory) ∨
      ¬ Obstructed tree path ∧ ¬ Occupied tree path ∧ result = .ok () := by
  cases delivery with
  | @obstructed _ fault place other _ among file =>
    exact .inl ⟨⟨place, among, other, file⟩, fault, rfl⟩
  | occupied furnishes way taken =>
    exact .inr (.inl ⟨not_obstructed furnishes way, (occupied_iff furnishes way).mp taken, rfl⟩)
  | delivered furnishes way free =>
    refine .inr (.inr ⟨not_obstructed furnishes way, ?_, rfl⟩)
    rwa [← occupied_iff furnishes way]

/-! ### Paths that go down only -/

/-- An obstruction on a way that goes down only stays the same whatever is added. -/
theorem writeCatalog_of_obstructed (named : path.IsNamed) (straight : path.IsStraight)
    (obstructed : Obstructed tree path) :
    ∃ fault, ∀ tree' messages, FileTree.Retains tree tree' →
      writeCatalog tree' directory path messages =
        (tree', .error (writeFailure (path.parent?.getD .empty) fault)) := by
  have stands := fun tree' => writeCatalog_of_named tree' directory named
  obtain ⟨front, last, parts, name⟩ := named
  obtain ⟨place, among, other, file⟩ := obstructed
  obtain ⟨body, above, neat, same, -⟩ := exists_parent parts name
  rw [wayTo_eq parts, ← FileTree.mem_visited_congr same] at among
  have down : ∀ piece ∈ body, component? piece ≠ some .parent := by
    intro piece inside up
    have loud : isSilent piece = false := by
      rw [isSilent, up, Option.isNone_some]
    have spoken : piece ∈ Path.spoken body := List.mem_filter.mpr ⟨inside, by simp [loud]⟩
    rw [same] at spoken
    refine Path.IsStraight.component?_ne straight ?_ up
    rw [parts]
    exact List.mem_append_left _ (Path.mem_of_mem_spoken spoken)
  obtain ⟨fault, failed⟩ := FileTree.makeDirectories_of_file above neat down among file
  refine ⟨fault, fun tree' messages retains => ?_⟩
  rw [stands, deliver, failed tree' _ retains]

/-- A way that goes down only leads through places above the one it ends in. -/
theorem isPrefix_of_mem_wayTo (named : path.IsNamed) (straight : path.IsStraight)
    (among : place ∈ wayTo path) : place <+: placeOf path ∧ place ≠ placeOf path := by
  obtain ⟨front, last, parts, name⟩ := named
  rw [wayTo_eq parts] at among
  rw [placeOf_eq_concat parts name]
  have down : ∀ piece ∈ front, component? piece ≠ some .parent := by
    intro piece inside
    refine Path.IsStraight.component?_ne straight ?_
    rw [parts]
    exact List.mem_append_left _ inside
  have start := FileTree.prefix_placeFrom_of_mem_visited down among
  refine ⟨start.trans (List.prefix_append _ _), ?_⟩
  rintro rfl
  have longer := start.length_le
  rw [List.length_append, List.length_singleton] at longer
  omega

/-- A delivery along a way that goes down only changes nothing if it fails. -/
theorem writeCatalog_of_failed (named : path.IsNamed) (straight : path.IsStraight)
    {reason : String}
    (failed : writeCatalog tree directory path messages = (after, .error reason)) :
    after = tree := by
  have delivery := writeCatalog_delivery tree directory named messages
  rw [failed] at delivery
  cases delivery with
  | @obstructed _ fault place other _ among file =>
    obtain ⟨fault, unchanged⟩ :=
      writeCatalog_of_obstructed named straight ⟨place, among, other, file⟩
    rw [unchanged tree messages (.refl tree)] at failed
    exact (Prod.mk.inj failed).1.symm
  | occupied furnishes way taken =>
    have here : tree.itemAt (placeOf path) = some .directory :=
      ((occupied_iff furnishes way).mp taken).resolve_right
        fun among => (isPrefix_of_mem_wayTo named straight among).2 rfl
    refine furnishes.eq_of_forall fun place among => ?_
    obtain ⟨above, other⟩ := isPrefix_of_mem_wayTo named straight among
    rw [FileTree.itemAt_of_isPrefix (by rw [here]; simp) above other]
    simp

end Delivering

end Unit

end MessageCatalog
