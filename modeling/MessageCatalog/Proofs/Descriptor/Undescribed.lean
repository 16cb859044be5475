import MessageCatalog.Proofs.Catalog.Undescribed
import MessageCatalog.Proofs.Descriptor.Resolution

/-!
# Drafts without descriptions

The description is a field like the others while a draft is made and resolved: it is set
by one key only, and no other field depends on it. So a draft without it is what is made
if the key is left out, and if a draft resolves, then it also does so without its
description, to the same content except for the description.
-/

namespace MessageCatalog

namespace Descriptor

open Extraction Syntax

/-- The draft without its description. -/
def Draft.undescribed (draft : Draft) : Draft :=
  draft.filter (·.1 ≠ .description)

/-- The key of descriptions stands for no other field. -/
theorem Convention.eq_description_of_mem {convention : Convention} {field : Field}
    (here : field ∈ convention.fields descriptionKey) : field = .description := by
  cases convention with
  | shorthand => exact absurd here (by simp [fields, descriptionKey])
  | standard => simpa [fields, descriptionKey] using here

/-- No other key stands for the description. -/
theorem Convention.ne_description_of_mem {convention : Convention} {key : String} {field : Field}
    (other : key ≠ descriptionKey) (here : field ∈ convention.fields key) :
    field ≠ .description := by
  rintro rfl
  rw [fields.eq_def] at here
  split at here <;> simp_all [descriptionKey]

section Undescribed

variable {evaluator : Evaluator} {draft : Draft} {content content' : Content} {field : Field}
  {holder : Holder}

theorem undescribed_insert_description (draft : Draft) (holder : Holder) :
    (draft.insert .description holder).undescribed = draft.undescribed := by
  induction draft with
  | nil => rfl
  | cons entry draft ih =>
      obtain ⟨first, value⟩ := entry
      rw [Draft.insert]
      split
      · rename_i same
        simp [Draft.undescribed, same]
      · rename_i different
        simpa [Draft.undescribed, List.filter_cons, different] using ih

theorem undescribed_insert (other : field ≠ .description) (draft : Draft) (holder : Holder) :
    (draft.insert field holder).undescribed = draft.undescribed.insert field holder := by
  induction draft with
  | nil => simp [Draft.insert, Draft.undescribed, other]
  | cons entry draft ih =>
      obtain ⟨first, value⟩ := entry
      rw [Draft.insert]
      split
      · rename_i same
        simp [Draft.undescribed, same, other, Draft.insert]
      · rename_i different
        by_cases described : first = .description
        · simpa [Draft.undescribed, described] using ih
        · simpa [Draft.undescribed, described, Draft.insert, different] using ih

theorem undescribed_foldl_insert (fields : List Field) (draft : Draft) (holder : Holder) :
    (fields.foldl (fun draft field => draft.insert field holder) draft).undescribed =
      (fields.filter (· ≠ .description)).foldl (fun draft field => draft.insert field holder)
        draft.undescribed := by
  induction fields generalizing draft with
  | nil => rfl
  | cons field fields ih =>
      rw [List.foldl_cons, ih, List.filter_cons]
      by_cases described : field = .description
      · subst described
        simp [undescribed_insert_description]
      · simp [described, undescribed_insert described]

/-- The key of descriptions does not matter to a draft without them, and the others do
what they always do. -/
theorem undescribed_insertKey (convention : Convention) (key : String) (draft : Draft)
    (holder : Holder) :
    (draft.insertKey convention key holder).undescribed =
      if key = descriptionKey then draft.undescribed
      else draft.undescribed.insertKey convention key holder := by
  rw [Draft.insertKey, Draft.insertKey, undescribed_foldl_insert]
  split
  · rename_i same
    rw [List.filter_eq_nil_iff.mpr, List.foldl_nil]
    intro field here
    simpa using Convention.eq_description_of_mem (same ▸ here)
  · rename_i other
    rw [List.filter_eq_self.mpr]
    intro field here
    simpa using Convention.ne_description_of_mem other here

theorem has_undescribed (other : field ≠ .description) (draft : Draft) :
    draft.undescribed.has field = draft.has field := by
  rw [Draft.undescribed, Draft.has, Draft.has, List.any_filter]
  congr 1
  funext entry
  rw [Bool.and_eq_right_iff_imp]
  intro same
  simpa [of_decide_eq_true same] using other

/-- What a draft resolves to without its description. -/
theorem resolveOnto_undescribed
    (resolved : Draft.resolveOnto evaluator content draft = .ok content') :
    Draft.resolveOnto evaluator content.undescribed draft.undescribed =
      .ok content'.undescribed := by
  induction draft generalizing content with
  | nil =>
      cases resolved
      rfl
  | cons entry draft ih =>
      obtain ⟨field, holder⟩ := entry
      obtain ⟨text, known, rest⟩ := resolveOnto_cons_eq_ok_iff.mp resolved
      have later := ih rest
      by_cases described : field = .description
      · subst described
        exact later
      · have same : (content.set field text).undescribed = content.undescribed.set field text := by
          cases field <;> first | rfl | exact absurd rfl described
        rw [same] at later
        rw [Draft.undescribed, List.filter_cons_of_pos (by simpa using described)]
        exact resolveOnto_cons_eq_ok_iff.mpr ⟨text, known, later⟩

theorem resolve_undescribed (resolved : draft.resolve evaluator = .ok content) :
    draft.undescribed.resolve evaluator = .ok content.undescribed :=
  resolveOnto_undescribed resolved

/-- The arguments of a call have no place for a description. -/
theorem undescribed_ofArguments (arguments : List Node) :
    (Draft.ofArguments arguments).undescribed = .ofArguments arguments := by
  simp only [Draft.ofArguments]
  cases Draft.argument? arguments 0 <;> cases Draft.argument? arguments 2 <;> rfl

end Undescribed

end Descriptor

end MessageCatalog
