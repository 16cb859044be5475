import MessageCatalog.Proofs.Extraction.Passage

/-!
# Drafts of what a walk leaves

A draft is made from the forms of nodes and from what stands in certain places below them.
A walk keeps all forms, and it keeps the parts of everything but opening tags and calls.
So a node and what a walk leaves of it make drafts with the same fields, and the holders
in them are related in whatever way the values that they were taken from are.

A walk also takes descriptions away. A draft without them is the draft of what stays.
-/

namespace MessageCatalog

namespace Extraction

open Descriptor Syntax

/-! ### Trees that are left -/

section Trees

variable {node : Node} {nodes nodes' : List Node}

@[simp] theorem isSite_mk (node : Node) (children : List Node) :
    isSite (.mk node.form node.span children) = isSite node := by
  cases node with
  | mk form span parts => cases form <;> rfl

@[simp] theorem siteId_mk (node : Node) (children : List Node) :
    siteId (.mk node.form node.span children) = siteId node := by
  cases node with
  | mk form span parts => cases form <;> rfl

theorem Leaves.cons_iff : Leaves (node :: nodes) nodes' ↔ ∃ children rest,
    nodes' = .mk node.form node.span children :: rest ∧
      (isSite node = false → Leaves node.children children) ∧ Leaves nodes rest := by
  constructor
  · rintro (_ | ⟨inside, behind⟩)
    exact ⟨_, _, rfl, inside, behind⟩
  · rintro ⟨children, rest, rfl, inside, behind⟩
    exact .cons inside behind

@[simp] theorem leaves_nil_iff : Leaves [] nodes' ↔ nodes' = [] := by
  constructor
  · rintro ⟨⟩
    rfl
  · rintro rfl
    exact .nil

theorem Leaves.single_iff {node' : Node} : Leaves [node] [node'] ↔ ∃ children,
    node' = .mk node.form node.span children ∧
      (isSite node = false → Leaves node.children children) := by
  rw [Leaves.cons_iff]
  constructor
  · rintro ⟨children, rest, same, inside, -⟩
    exact ⟨children, (List.cons_eq_cons.mp same).1, inside⟩
  · rintro ⟨children, rfl, inside⟩
    exact ⟨children, [], rfl, inside, .nil⟩

/-- Leaving trees as they are is a way to leave them. -/
theorem Leaves.refl (nodes : List Node) : Leaves nodes nodes := by
  have parts (node : Node) : Leaves node.children node.children := by
    induction node using Binding.node_induction with
    | step node ih => exact of_parts ih
  exact of_parts fun node _ => parts node
where
  of_parts {nodes : List Node} (parts : ∀ node ∈ nodes, Leaves node.children node.children) :
      Leaves nodes nodes := by
    induction nodes with
    | nil => exact .nil
    | cons node nodes ih =>
        cases node
        rw [List.forall_mem_cons] at parts
        exact Leaves.cons_iff.mpr ⟨_, _, rfl, fun _ => parts.1, ih parts.2⟩

end Trees

/-! ### Related drafts -/

/-- Two drafts have the same fields in the same order, and their holders are related. -/
inductive Related (R : Holder → Holder → Prop) : Draft → Draft → Prop
  | nil : Related R [] []
  | cons {field : Field} {holder holder' : Holder} {draft draft' : Draft}
      (same : R holder holder') (rest : Related R draft draft') :
      Related R ((field, holder) :: draft) ((field, holder') :: draft')

/-- Extend a draft by an attribute. -/
def addAttribute (convention : Convention) (draft : Draft) : Node → Draft
  | .mk (.attribute name) span children =>
    draft.insertKey convention name (.attribute children.head? span.start)
  | _ => draft

theorem ofAttributes_eq_foldl (convention : Convention) (attributes : List Node) :
    Draft.ofAttributes convention attributes =
      attributes.foldl (addAttribute convention) [] := rfl

theorem addAttribute_other {convention : Convention} {draft : Draft} {node : Node}
    (other : ∀ name, node.form ≠ .attribute name) : addAttribute convention draft node = draft := by
  rw [addAttribute.eq_def]
  split
  · exact absurd rfl (other _)
  · rfl

section Relation

variable {R : Holder → Holder → Prop} {draft draft' : Draft} {holder holder' : Holder}
  {field : Field} {nodes nodes' : List Node}

theorem Related.insert (related : Related R draft draft') (same : R holder holder') :
    Related R (draft.insert field holder) (draft'.insert field holder') := by
  induction related with
  | nil => exact .cons same .nil
  | cons first rest ih =>
      rw [Draft.insert, Draft.insert]
      split
      · exact .cons same rest
      · exact .cons first ih

theorem Related.insertKey (related : Related R draft draft') (same : R holder holder')
    (convention : Convention) (key : String) :
    Related R (draft.insertKey convention key holder)
      (draft'.insertKey convention key holder') := by
  rw [Draft.insertKey, Draft.insertKey]
  induction convention.fields key generalizing draft draft' with
  | nil => exact related
  | cons field fields ih => exact ih (related.insert same)

theorem Related.has_eq (related : Related R draft draft') :
    draft'.has field = draft.has field := by
  induction related with
  | nil => rfl
  | cons first rest ih =>
      rw [Draft.has, Draft.has, List.any_cons, List.any_cons]
      exact congrArg _ ih

/-- Attributes that are left make a related draft if the holders of their values are
related. -/
theorem related_ofAttributes
    (values : ∀ {children children'} place, Leaves children children' →
      R (.attribute children.head? place) (.attribute children'.head? place))
    (convention : Convention) (left : Leaves nodes nodes') :
    Related R (.ofAttributes convention nodes) (.ofAttributes convention nodes') := by
  rw [ofAttributes_eq_foldl, ofAttributes_eq_foldl]
  suffices extended : ∀ {draft draft'}, Related R draft draft' →
      Related R (nodes.foldl (addAttribute convention) draft)
        (nodes'.foldl (addAttribute convention) draft') from extended .nil
  induction left with
  | nil => exact id
  | @cons node children nodes nodes' inside behind _ ih =>
      intro draft draft' related
      refine ih ?_
      by_cases named : ∃ name, node.form = .attribute name
      · obtain ⟨name, form⟩ := named
        cases node
        cases form
        exact related.insertKey (values _ (inside rfl)) convention name
      · rw [addAttribute_other (not_exists.mp named), addAttribute_other]
        · exact related
        · exact not_exists.mp named

end Relation

end Extraction

end MessageCatalog
