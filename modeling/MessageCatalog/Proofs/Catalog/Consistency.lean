import Mathlib.Data.List.Induction
import MessageCatalog.Proofs.Catalog.Growth

/-!
# The order of declarations

A catalog compares a declaration with the first one under its key, and repeats replace what
is kept there. So at first sight the outcome depends on the order. It does not: a list of
declarations is accepted as a whole exactly if it is consistent, which means that each
declaration is complete and that any two under one key have the same text. Consistency is
about pairs and looks at no order, and neither does what the catalog says in the end.
-/

namespace MessageCatalog

namespace Catalog

open Descriptor Extraction

/-- The content has the key and the texts of what is said. -/
def Says (content : Content) (saying : String × Option String × String) : Prop :=
  keyOf content = some saying.1 ∧ content.description = saying.2.1 ∧
    content.defaultMessage = some saying.2.2

/-- Every insertion is complete, and any two under one key have the same text. -/
structure Consistent (enforce : Bool) (insertions : List Insertion) : Prop where
  complete : ∀ i ∈ insertions, Complete enforce i.content
  coherent : ∀ i ∈ insertions, ∀ j ∈ insertions, keyOf i.content = keyOf j.content →
    i.content.description = j.content.description ∧
      i.content.defaultMessage = j.content.defaultMessage

section Consistency

variable {enforce : Bool} {insertions insertions' history : List Insertion} {i j : Insertion}
  {key : String}

theorem Consistent.nil (enforce : Bool) : Consistent enforce [] := by
  constructor
  · intro i here
    exact absurd here List.not_mem_nil
  · intro i here
    exact absurd here List.not_mem_nil

/-- Consistency depends on the members of a list only. -/
theorem Consistent.mono (consistent : Consistent enforce insertions)
    (within : insertions' ⊆ insertions) : Consistent enforce insertions' := by
  constructor
  · intro i here
    exact consistent.complete i (within here)
  · intro i here j there same
    exact consistent.coherent i (within here) j (within there) same

theorem consistent_perm (perm : insertions.Perm insertions') :
    Consistent enforce insertions ↔ Consistent enforce insertions' := by
  constructor
  · intro consistent
    exact consistent.mono perm.symm.subset
  · intro consistent
    exact consistent.mono perm.subset

theorem mem_under : i ∈ under key insertions ↔ i ∈ insertions ∧ keyOf i.content = some key := by
  simp [under]

theorem Complete.exists_keyOf {content : Content} (complete : Complete enforce content) :
    ∃ key, keyOf content = some key := by
  obtain ⟨id, present⟩ := Option.ne_none_iff_exists'.mp complete.id
  exact ⟨_, congrArg (Option.map _) present⟩

/-- In a consistent list, any member under the key of a declaration will do in the place of
the first. -/
theorem Consistent.concat_iff (consistent : Consistent enforce insertions) :
    Consistent enforce (insertions ++ [i]) ↔
      Complete enforce i.content ∧ ∀ key ∈ keyOf i.content,
        ∀ first ∈ (under key insertions).head?,
          i.content.description = first.content.description ∧
            i.content.defaultMessage = first.content.defaultMessage := by
  constructor
  · intro extended
    refine ⟨extended.complete i (by simp), ?_⟩
    intro key known first head
    obtain ⟨here, same⟩ := mem_under.mp (List.mem_of_mem_head? head)
    exact extended.coherent i (by simp) first (by simp [here]) (known.trans same.symm)
  · rintro ⟨complete, agreement⟩
    have agrees : ∀ j ∈ insertions, keyOf i.content = keyOf j.content →
        i.content.description = j.content.description ∧
          i.content.defaultMessage = j.content.defaultMessage := by
      intro j here same
      obtain ⟨key, known⟩ := complete.exists_keyOf
      have member : j ∈ under key insertions := mem_under.mpr ⟨here, same.symm.trans known⟩
      obtain ⟨first, head⟩ := Option.ne_none_iff_exists'.mp
        (mt List.head?_eq_none_iff.mp (List.ne_nil_of_mem member))
      obtain ⟨inside, own⟩ := mem_under.mp (List.mem_of_mem_head? head)
      have own_text := agreement key known first head
      have first_text := consistent.coherent first inside j here
        (own.trans (known.symm.trans same))
      exact ⟨own_text.1.trans first_text.1, own_text.2.trans first_text.2⟩
    have member_cases {j : Insertion} (here : j ∈ insertions ++ [i]) : j ∈ insertions ∨ j = i :=
      by simpa using here
    constructor
    · intro j here
      rcases member_cases here with here | rfl
      · exact consistent.complete j here
      · exact complete
    · intro j here k there same
      rcases member_cases here with former | rfl <;> rcases member_cases there with latter | rfl
      · exact consistent.coherent j former k latter same
      · have text := agrees j former same.symm
        exact ⟨text.1.symm, text.2.symm⟩
      · exact agrees k latter same
      · exact ⟨rfl, rfl⟩

end Consistency

/-! ### Acceptance of a whole list -/

section Acceptance

variable {enforce : Bool} {history : List Insertion} {i : Insertion}
  {saying : String × Option String × String}

/-- A catalog says nothing twice. -/
theorem sayings_nodup (catalog : Catalog) : catalog.sayings.Nodup := by
  have keys : (catalog.sayings.map Prod.fst).Nodup := by
    rw [sayings, List.map_map]
    exact catalog.inStep.nodup
  refine List.Pairwise.of_map Prod.fst ?_ keys
  intro a b different same
  exact different (congrArg Prod.fst same)

theorem acceptedBy_sublist (catalog : Catalog) (history : List Insertion) :
    List.Sublist (catalog.acceptedBy history) history := by
  induction history generalizing catalog with
  | nil => exact List.Sublist.refl _
  | cons i history ih =>
      rw [acceptedBy]
      split
      · exact (ih (catalog.attempt i)).cons_cons i
      · exact (ih (catalog.attempt i)).cons i

theorem accepted_concat (enforce : Bool) (history : List Insertion) (i : Insertion) :
    accepted enforce (history ++ [i]) = accepted enforce history ++
      if (run enforce history).accepts i then [i] else [] := by
  have split (catalog : Catalog) : catalog.acceptedBy (history ++ [i]) =
      catalog.acceptedBy history ++ if (catalog.attemptAll history).accepts i then [i] else [] := by
    induction history generalizing catalog with
    | nil => exact List.append_nil _
    | cons j history ih => rw [List.cons_append, acceptedBy, ih, acceptedBy, List.append_assoc,
        attemptAll, attemptAll, List.foldl_cons]
  exact split (empty enforce)

/-- What is accepted is consistent at every time. -/
theorem accepted_consistent (enforce : Bool) (history : List Insertion) :
    Consistent enforce (accepted enforce history) := by
  induction history using List.reverseRecOn with
  | nil => exact Consistent.nil enforce
  | append_singleton history i ih =>
      rw [accepted_concat]
      split
      · rename_i accepts
        exact ih.concat_iff.mpr ((run_reflects enforce history).accepts_iff.mp accepts)
      · rwa [List.append_nil]

/-- An insertion is accepted exactly if it is consistent with what was accepted before. -/
theorem accepts_iff_consistent : (run enforce history).accepts i = true ↔
    Consistent enforce (accepted enforce history ++ [i]) :=
  (run_reflects enforce history).accepts_iff.trans
    (accepted_consistent enforce history).concat_iff.symm

theorem accepted_eq_self_iff : accepted enforce history = history ↔
    Consistent enforce history := by
  induction history using List.reverseRecOn with
  | nil => exact iff_of_true rfl (Consistent.nil enforce)
  | append_singleton history i ih =>
      have whole_of_extended (extended : Consistent enforce (history ++ [i])) :
          accepted enforce history = history :=
        ih.mpr (extended.mono (List.subset_append_left history [i]))
      rw [accepted_concat]
      split
      · rename_i accepts
        rw [List.append_left_inj]
        constructor
        · intro whole
          rw [accepts_iff_consistent, whole] at accepts
          exact accepts
        · exact whole_of_extended
      · rename_i rejects
        rw [List.append_nil]
        constructor
        · intro longer
          have shorter := (acceptedBy_sublist (empty enforce) history).length_le
          rw [← accepted, longer, List.length_append, List.length_singleton] at shorter
          omega
        · intro extended
          rw [accepts_iff_consistent, whole_of_extended extended] at rejects
          exact absurd extended rejects

/-- What the catalog says is what the accepted insertions say, each of them. -/
theorem mem_sayings_iff : saying ∈ (run enforce history).sayings ↔
    ∃ i ∈ accepted enforce history, Says i.content saying := by
  have reflects := run_reflects enforce history
  have consistent := accepted_consistent enforce history
  constructor
  · intro here
    obtain ⟨e, inside, rfl⟩ := List.mem_map.mp here
    obtain ⟨first, head, description, message⟩ := (reflects.combines e inside).first
    obtain ⟨member, known⟩ := mem_under.mp (List.mem_of_mem_head? head)
    exact ⟨first, member, known, description, message⟩
  · rintro ⟨i, inside, known, description, message⟩
    have present : saying.1 ∈ (accepted enforce history).filterMap (keyOf ·.content) :=
      List.mem_filterMap.mpr ⟨i, inside, known⟩
    obtain ⟨e, here, own⟩ := List.mem_map.mp (reflects.mem_keys.mp present)
    obtain ⟨first, head, description', message'⟩ := (reflects.combines e here).first
    obtain ⟨inside', known'⟩ := mem_under.mp (List.mem_of_mem_head? head)
    have text := consistent.coherent first inside' i inside
      (known'.trans ((congrArg some own).trans known.symm))
    refine List.mem_map.mpr ⟨e, here, Prod.ext own (Prod.ext ?_ ?_)⟩
    · exact description'.symm.trans (text.1.trans description)
    · exact Option.some.inj (message'.symm.trans (text.2.trans message))

end Acceptance

/-- Whether a list of insertions is accepted as a whole does not depend on its order, and
if it is, then neither does what the catalog says in the end. -/
theorem acceptance_perm {history history' : List Insertion} (perm : history.Perm history')
    (enforce : Bool) :
    (accepted enforce history = history ↔ accepted enforce history' = history') ∧
      (accepted enforce history = history →
        (run enforce history).sayings.Perm (run enforce history').sayings) := by
  have decides : accepted enforce history = history ↔ accepted enforce history' = history' := by
    rw [accepted_eq_self_iff, accepted_eq_self_iff]
    exact consistent_perm perm
  refine ⟨decides, ?_⟩
  intro whole
  refine (List.perm_ext_iff_of_nodup (sayings_nodup (run enforce history))
    (sayings_nodup (run enforce history'))).mpr ?_
  intro saying
  rw [mem_sayings_iff, mem_sayings_iff, whole, decides.mp whole]
  simp only [perm.mem_iff]

/-- Three declarations, the last of which repeats the first at another place. -/
def repeated : List Insertion :=
  [⟨⟨some "a", none, some "A", some "b"⟩, none⟩, ⟨⟨some "c", none, some "C", none⟩, none⟩,
    ⟨⟨some "a", none, some "A", some "b"⟩, some ⟨"a.ts", 1, 1⟩⟩]

theorem acceptance_perm_repeated :
    accepted false repeated = repeated ∧ accepted false repeated.reverse = repeated.reverse ∧
      (run false repeated).sayings.Perm (run false repeated.reverse).sayings := by
  have whole : accepted false repeated = repeated := rfl
  have order := acceptance_perm repeated.reverse_perm.symm false
  exact ⟨whole, order.1.mp whole, order.2 whole⟩

end Catalog

end MessageCatalog
