import MessageCatalog.Proofs.Extraction.Completeness
import MessageCatalog.Proofs.Text.Position

/-!
# The order of a catalog

If no key is declared twice, then the messages of a catalog stand in the order in which the
walk has found them: what a node declares itself, then what is declared in its parts, then
what is declared behind it. This is the order of the text if each of these comes later in
the text than what is found before it, which `Orderly` says node by node.
-/

namespace MessageCatalog

namespace Catalog

open Descriptor Extraction

/-- The position that a location records. -/
def Location.position (location : Location) : Text.Position :=
  ⟨location.line, location.column⟩

section Insertion

variable {catalog catalog' : Catalog} {content : Content} {location : Option Location}
  {e : Entry}

/-- A message with a new key is put behind all others. -/
theorem entries_of_insert_fresh (inserted : catalog.insert content location = .ok (catalog', e))
    (fresh : e.id ∉ catalog.entries.map Entry.id) : catalog'.entries = catalog.entries ++ [e] := by
  have added := (insert_eq_ok_iff.mp inserted).2
  rw [add] at added
  split at added
  · obtain rfl := Except.ok.inj added
    rfl
  · rename_i position found
    obtain ⟨existing, here, same⟩ := entries_of_lookup found
    exact absurd (List.mem_map.mpr ⟨existing, List.mem_of_getElem? here, same⟩) fresh

end Insertion

end Catalog

namespace Extraction

open Binding Catalog Descriptor Syntax Text

/-! ### Catalogs of distinct messages -/

section Admission

variable {s : Setting} {before after : Catalog} {ds : List Declaration}

/-- A catalog that takes in declarations with distinct new keys records them behind all
others, in their order. -/
theorem Setting.Admits.locations_eq (admits : s.Admits before ds after)
    (once : (before.entries.map Entry.id ++ ds.filterMap s.declaredKey?).Nodup) :
    after.entries.map Entry.location =
      before.entries.map Entry.location ++ ds.map fun d => s.location d.place := by
  induction ds generalizing before with
  | nil =>
      obtain rfl : before = after := admits
      simp
  | cons d ds ih =>
      obtain ⟨content, between, e, resolved, inserted, rest⟩ := admits
      have declares := (entry_eq_ok_iff.mp (insert_eq_ok_iff.mp inserted).1).2
      have key : s.declaredKey? d = some e.id := by
        rw [declaredKey?, resolved]
        exact declares.key
      rw [List.filterMap_cons_some key] at once
      have fresh : e.id ∉ before.entries.map Entry.id := fun here =>
        (List.nodup_append.mp once).2.2 e.id here e.id List.mem_cons_self rfl
      have entries := entries_of_insert_fresh inserted fresh
      have later := ih rest (by simpa [entries] using once)
      rw [later, entries, List.map_append, List.append_assoc, List.map_cons, List.map_cons,
        declares.location]
      rfl

end Admission

/-! ### What is found in trees -/

section Induction

variable {s : Setting} {node : Node} {nodes : List Node} {depth depth' : Nat}

theorem heightOf_stripped_lt (s : Setting) (node : Node) :
    Node.heightOf (s.stripped node).children < node.height := by
  have lower := heightOf_stripped_le s node
  cases node
  rw [Node.height_mk]
  exact Nat.lt_succ_of_le lower

/-- What a walk inherits from the parts of the first tree, as they are when it has lost its
descriptions, and from the trees behind it, holds of all trees. -/
theorem stripped_induction (s : Setting) {motive : List Node → Prop} (nil : motive [])
    (cons : ∀ node nodes, motive (s.stripped node).children → motive nodes →
      motive (node :: nodes)) (nodes : List Node) : motive nodes := by
  generalize bound : Node.heightOf nodes = depth
  replace bound := Nat.le_of_eq bound
  induction depth generalizing nodes with
  | zero =>
      cases nodes with
      | nil => exact nil
      | cons node nodes =>
          cases node
          simp at bound
  | succ depth ih =>
      induction nodes with
      | nil => exact nil
      | cons node nodes ih' =>
          rw [Node.heightOf_cons, Nat.max_le] at bound
          have lower := heightOf_stripped_lt s node
          exact cons node nodes (ih _ (by omega)) (ih' bound.2)

/-- Beyond the height of trees, a walk reaches the same sites at every depth. -/
theorem flatMap_reached_eq (deep : Node.heightOf nodes ≤ depth)
    (deep' : Node.heightOf nodes ≤ depth') :
    nodes.flatMap (s.reached depth) = nodes.flatMap (s.reached depth') := by
  induction nodes using stripped_induction s generalizing depth depth' with
  | nil => rfl
  | cons node nodes ih ih' =>
      have lower := heightOf_stripped_lt s node
      rw [Node.heightOf_cons, Nat.max_le] at deep deep'
      obtain ⟨inner, rfl⟩ := Nat.exists_eq_add_of_lt (Nat.lt_of_lt_of_le lower deep.1)
      obtain ⟨inner', rfl⟩ := Nat.exists_eq_add_of_lt (Nat.lt_of_lt_of_le lower deep'.1)
      rw [List.flatMap_cons, List.flatMap_cons, Setting.reached, Setting.reached,
        ih' deep.2 deep'.2, ih (Nat.le_add_right ..) (Nat.le_add_right ..)]

end Induction

/-- What is declared in trees, outside of descriptions, in the order of the walk. -/
def Setting.found (s : Setting) (nodes : List Node) : List Declaration :=
  (s.reachedIn nodes).flatMap s.declarations

section Found

variable {s : Setting} {node : Node} {nodes : List Node}

@[simp] theorem reachedIn_nil : s.reachedIn [] = [] := rfl

theorem reachedIn_cons (s : Setting) (node : Node) (nodes : List Node) :
    s.reachedIn (node :: nodes) =
      ownSite node ++ s.reachedIn (s.stripped node).children ++ s.reachedIn nodes := by
  have lower := heightOf_stripped_lt s node
  have deep : Node.heightOf (node :: nodes) = max node.height (Node.heightOf nodes) :=
    Node.heightOf_cons node nodes
  obtain ⟨depth, same⟩ : ∃ depth, Node.heightOf (node :: nodes) = depth + 1 :=
    Nat.exists_eq_add_one.mpr (by omega)
  have inside : (s.stripped node).children.flatMap (s.reached depth) =
      s.reachedIn (s.stripped node).children :=
    flatMap_reached_eq (by omega) (Nat.le_refl _)
  have behind : nodes.flatMap (s.reached (depth + 1)) = s.reachedIn nodes :=
    flatMap_reached_eq (by omega) (Nat.le_refl _)
  rw [Setting.reachedIn, same, List.flatMap_cons, Setting.reached, inside, behind]

@[simp] theorem found_nil : s.found [] = [] := rfl

/-- What is found in trees is what the first one declares itself, what is found in its
parts, and what is found behind it. -/
theorem found_cons (s : Setting) (node : Node) (nodes : List Node) :
    s.found (node :: nodes) =
      s.declarations node ++ s.found (s.stripped node).children ++ s.found nodes := by
  have own : (ownSite node).flatMap s.declarations = s.declarations node := by
    rw [ownSite]
    split
    · exact List.flatMap_singleton ..
    · rename_i other
      rw [declarations_of_isSite_eq_false (by simpa using other), List.flatMap_nil]
  rw [Setting.found, reachedIn_cons, List.flatMap_append, List.flatMap_append, own]
  rfl

end Found

/-! ### The order of the text -/

/-- A declaration is at a position of the text that is not behind that of another. -/
def Setting.Before (s : Setting) (d d' : Declaration) : Prop :=
  (s.source.position d.place).Le (s.source.position d'.place)

/-- All of the first declarations come before all of the second. -/
def Setting.Precede (s : Setting) (ds ds' : List Declaration) : Prop :=
  ∀ d ∈ ds, ∀ d' ∈ ds', s.Before d d'

/-- Nothing is found in the trees that stands in front of something found earlier: what a
node declares is in order, and it comes before what is found in the parts of the node, and
all this comes before what is found behind the node. -/
inductive Setting.Orderly (s : Setting) : List Node → Prop
  | nil : Orderly s []
  | cons {node : Node} {nodes : List Node}
      (own : (s.declarations node).Pairwise s.Before)
      (inner : s.Precede (s.declarations node) (s.found (s.stripped node).children))
      (behind : s.Precede (s.declarations node ++ s.found (s.stripped node).children)
        (s.found nodes))
      (inside : Orderly s (s.stripped node).children) (rest : Orderly s nodes) :
      Orderly s (node :: nodes)

theorem pairwise_found_iff (s : Setting) (nodes : List Node) :
    (s.found nodes).Pairwise s.Before ↔ s.Orderly nodes := by
  induction nodes using stripped_induction s with
  | nil => exact ⟨fun _ => .nil, fun _ => .nil⟩
  | cons node nodes ih ih' =>
      rw [found_cons, List.pairwise_append, List.pairwise_append, ih, ih']
      constructor
      · rintro ⟨⟨own, inside, inner⟩, rest, behind⟩
        exact .cons own inner behind inside rest
      · rintro (_ | ⟨own, inner, behind, inside, rest⟩)
        exact ⟨⟨own, inside, inner⟩, rest, behind⟩

/-- Each message has a place, at a position of the text that is not behind that of a later
message. -/
def InDocumentOrder (entries : List Entry) : Prop :=
  entries.Pairwise fun e e' => ∃ l l', e.location = some l ∧ e'.location = some l' ∧
    l.position.Le l'.position

/-- If places are recorded and no key is declared twice, then the catalog of a walk that
succeeds is in the order of the text exactly if the unit is orderly. -/
theorem inDocumentOrder_iff_orderly (s : Setting) (unit : List Node)
    (distinct : ((sitesOf unit).map siteId).Nodup)
    (success : (s.walk (.start s.options) unit).2.failure = none)
    (recorded : s.options.recordLocations = true)
    (once : ((s.found unit).filterMap s.declaredKey?).Nodup) :
    InDocumentOrder (s.walk (.start s.options) unit).2.progress.catalog.entries ↔
      s.Orderly unit := by
  have locations := (takes_reachedIn distinct success).admits.locations_eq once
  have same (d d' : Declaration) :
      (∃ l l', s.location d.place = some l ∧ s.location d'.place = some l' ∧
        l.position.Le l'.position) ↔ s.Before d d' := by
    simp [Setting.location, recorded, Setting.Before, Location.position, Setting.context,
      Source.context]
  rw [InDocumentOrder, ← List.pairwise_map (f := Entry.location)
    (R := fun o o' => ∃ l l', o = some l ∧ o' = some l' ∧ l.position.Le l'.position), locations]
  rw [show (Progress.start s.options).catalog.entries = [] from rfl, List.map_nil,
    List.nil_append, List.pairwise_map, List.Pairwise.iff (fun {d d'} => same d d')]
  exact pairwise_found_iff s unit

end Extraction

end MessageCatalog
