import MessageCatalog.Proofs.Extraction.Drafts

/-!
# Drafts that agree

A draft can hold the same values in another manner: as attributes or as expressions, in
braces or raw, and at other places. What it resolves to depends on the values only. If it
does not resolve, the problem is the same, but it is reported at the place of the other
holder; and a malformed message in a raw attribute may be reported as one that uses
backslashes in vain.
-/

namespace MessageCatalog

namespace Descriptor

open Extraction

/-- What becomes of a problem with a value if the value is held in another manner. -/
inductive Restated (raw : Prop) : Problem → Problem → Prop
  | same (problem : Problem) : Restated raw problem problem
  | escaped (becomes : raw) (d : Message.Diagnostic) :
      Restated raw (.malformedMessage d) (.malformedAttribute d)

/-- The holders hold the same value at related places, and both or none of them is a raw
attribute, unless it is allowed that the second one becomes raw. -/
structure Alike (evaluator : Evaluator) (raw : Prop) (place : Nat → Nat → Prop)
    (holder holder' : Holder) : Prop where
  value : holder'.value evaluator = holder.value evaluator
  place : place holder.place holder'.place
  raw : holder'.isRawString = holder.isRawString ∨ raw ∧ holder.isRawString = false

/-- The same result, or problems that are the same but for the manner, at related places. -/
inductive Matches {α : Type} (raw : Prop) (place : Nat → Nat → Prop) :
    Except Located α → Except Located α → Prop
  | ok (a : α) : Matches raw place (.ok a) (.ok a)
  | error {problem problem' : Problem} {n n' : Nat} (restated : Restated raw problem problem')
      (placed : place n n') : Matches raw place (.error ⟨problem, n⟩) (.error ⟨problem', n'⟩)

section Agreement

variable {α β : Type} {evaluator : Evaluator} {raw : Prop} {place : Nat → Nat → Prop}
  {holder holder' : Holder} {draft draft' : Draft}

theorem restated_eq {problem problem' : Problem} (restated : Restated False problem problem') :
    problem' = problem := by
  cases restated with
  | same => rfl
  | escaped becomes => exact becomes.elim

theorem Matches.bind {result result' : Except Located α} {next next' : α → Except Located β}
    (first : Matches raw place result result')
    (rest : ∀ a, Matches raw place (next a) (next' a)) :
    Matches raw place (result >>= next) (result' >>= next') := by
  cases first with
  | ok a => exact rest a
  | error restated placed => exact .error restated placed

theorem Alike.text (alike : Alike evaluator raw place holder holder') (field : Field) :
    Matches raw place (holder.text evaluator field) (holder'.text evaluator field) := by
  rw [Holder.text, Holder.text, alike.value]
  cases holder.value evaluator with
  | none => exact .error (.same _) alike.place
  | some value => exact .ok _

theorem Alike.canonicalText (alike : Alike evaluator raw place holder holder')
    (text : String) :
    Matches raw place (canonicalText holder text) (canonicalText holder' text) := by
  rw [Descriptor.canonicalText, Descriptor.canonicalText]
  cases Message.canonicalize text with
  | ok canonical => exact .ok canonical
  | error d =>
      dsimp only
      rcases alike.raw with same | ⟨becomes, braced⟩
      · rw [same]
        split
        · exact .error (.same _) alike.place
        · exact .error (.same _) alike.place
      · rw [braced, Bool.false_and, if_neg Bool.false_ne_true]
        split
        · exact .error (.escaped becomes d) alike.place
        · exact .error (.same _) alike.place

theorem Alike.fieldText (alike : Alike evaluator raw place holder holder') (field : Field) :
    Matches raw place (fieldText evaluator field holder) (fieldText evaluator field holder') := by
  rw [Descriptor.fieldText, Descriptor.fieldText]
  refine (alike.text field).bind fun text => ?_
  split
  · exact (alike.canonicalText _).bind fun canonical => .ok (some canonical)
  · exact .ok _

/-- Drafts that agree in their fields and holders resolve alike. -/
theorem resolve_alike (related : Related (Alike evaluator raw place) draft draft') :
    Matches raw place (draft.resolve evaluator) (draft'.resolve evaluator) := by
  suffices onto : ∀ content, Matches raw place (Draft.resolveOnto evaluator content draft)
      (Draft.resolveOnto evaluator content draft') from onto .empty
  induction related with
  | nil => exact fun content => .ok content
  | @cons field _ _ _ _ alike _ ih =>
      intro content
      rw [Draft.resolveOnto, Draft.resolveOnto]
      exact (alike.fieldText field).bind fun text => ih (content.set field text)

end Agreement

end Descriptor

end MessageCatalog
