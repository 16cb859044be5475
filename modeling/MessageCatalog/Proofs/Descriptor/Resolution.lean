import MessageCatalog.Descriptor.Resolution

/-!
# The content of a draft

Resolving a draft gives each of its fields the text of the holder, and leaves all other
fields without one. A draft never holds a field twice, so no field depends on the order in
which the others are resolved.
-/

namespace MessageCatalog

namespace Descriptor

open Extraction Syntax

section Resolution

variable {evaluator : Evaluator} {draft : Draft} {content content' : Content} {field : Field}
  {holder : Holder} {text canonical : String}

theorem resolveOnto_cons_eq_ok_iff :
    Draft.resolveOnto evaluator content ((field, holder) :: draft) = .ok content' ↔
      ∃ text, fieldText evaluator field holder = .ok text ∧
        Draft.resolveOnto evaluator (content.set field text) draft = .ok content' := by
  rw [Draft.resolveOnto]
  cases fieldText evaluator field holder with
  | error => simp [bind, Except.bind]
  | ok text => simp [bind, Except.bind]

theorem get_of_absent (resolved : Draft.resolveOnto evaluator content draft = .ok content')
    (absent : field ∉ draft.map Prod.fst) : content'.get field = content.get field := by
  induction draft generalizing content with
  | nil =>
      cases resolved
      rfl
  | cons entry draft ih =>
      obtain ⟨first, value⟩ := entry
      obtain ⟨text, -, resolved⟩ := resolveOnto_cons_eq_ok_iff.mp resolved
      rw [List.map_cons, List.mem_cons, not_or] at absent
      rw [ih resolved absent.2, Content.get_set, if_neg absent.1]

/-- Each field has the text of its holder. -/
theorem fieldText_of_mem (resolved : Draft.resolveOnto evaluator content draft = .ok content')
    (distinct : (draft.map Prod.fst).Nodup) (here : (field, holder) ∈ draft) :
    fieldText evaluator field holder = .ok (content'.get field) := by
  induction draft generalizing content with
  | nil => exact absurd here List.not_mem_nil
  | cons entry draft ih =>
      obtain ⟨first, value⟩ := entry
      obtain ⟨text, known, rest⟩ := resolveOnto_cons_eq_ok_iff.mp resolved
      rw [List.map_cons, List.nodup_cons] at distinct
      rcases List.mem_cons.mp here with same | later
      · obtain ⟨rfl, rfl⟩ := Prod.mk.inj same
        rw [known, get_of_absent rest distinct.1, Content.get_set, if_pos rfl]
      · exact ih rest distinct.2 later

theorem canonicalText_eq_ok_iff :
    canonicalText holder text = .ok canonical ↔ Message.canonicalize text = .ok canonical := by
  cases outcome : Message.canonicalize text with
  | ok => simp [canonicalText, outcome]
  | error =>
      simp only [canonicalText, outcome, reduceCtorEq, iff_false]
      split <;> simp

/-- A field gets the text of its holder, and the message gets it in canonical form. -/
theorem fieldText_eq (evaluator : Evaluator) (field : Field) (holder : Holder) :
    fieldText evaluator field holder = (holder.text evaluator field).bind fun
      | some text =>
        if field = .defaultMessage then (canonicalText holder text).map some
        else .ok (some text)
      | none => .ok none := by
  rw [fieldText]
  cases holder.text evaluator field with
  | error => rfl
  | ok found =>
      cases found with
      | none => cases field <;> rfl
      | some text =>
          cases field with
          | defaultMessage => cases canonicalText holder text <;> rfl
          | id | description | comment => rfl

theorem fieldText_defaultMessage
    (known : holder.text evaluator .defaultMessage = .ok (some text)) :
    fieldText evaluator .defaultMessage holder = (canonicalText holder text).map some := by
  rw [fieldText_eq, known]
  simp only [Except.bind, if_true]

end Resolution

/-! ### Arguments -/

/-- An argument counts if it is not spread. -/
theorem argument?_eq_some_iff {arguments : List Node} {position : Nat} {e : Node} :
    Draft.argument? arguments position = some e ↔
      arguments[position]? = some e ∧ e.form ≠ .spread := by
  rw [Draft.argument?, Option.bind_eq_some_iff]
  constructor
  · rintro ⟨⟨form, span, parts⟩, here, plain⟩
    split at plain
    · exact absurd plain nofun
    · rename_i other
      obtain rfl := Option.some.inj plain
      refine ⟨here, ?_⟩
      rintro rfl
      exact other span parts rfl
  · rintro ⟨here, plain⟩
    refine ⟨e, here, ?_⟩
    split
    · exact absurd rfl plain
    · rfl

/-! ### Declared messages -/

/-- A draft declares a message text: it resolves to the content, and the text is what its
message field says before it is brought into canonical form. -/
structure Draft.Declares (evaluator : Evaluator) (draft : Draft) (text : String)
    (content : Content) : Prop where
  distinct : (draft.map Prod.fst).Nodup
  text : ∃ holder, (Field.defaultMessage, holder) ∈ draft ∧
    holder.text evaluator .defaultMessage = .ok (some text)
  resolves : draft.resolve evaluator = .ok content

/-- The message of the content is the canonical form of the declared text. -/
theorem Draft.Declares.canonicalize {evaluator : Evaluator} {draft : Draft} {text : String}
    {content : Content} (declares : draft.Declares evaluator text content) :
    ∃ canonical, Message.canonicalize text = .ok canonical ∧
      content.defaultMessage = some canonical := by
  obtain ⟨holder, here, known⟩ := declares.text
  have resolved := fieldText_of_mem declares.resolves declares.distinct here
  rw [fieldText_defaultMessage known] at resolved
  cases outcome : canonicalText holder text with
  | error =>
      rw [outcome] at resolved
      exact absurd resolved nofun
  | ok canonical =>
      rw [outcome] at resolved
      exact ⟨canonical, canonicalText_eq_ok_iff.mp outcome, (Except.ok.inj resolved).symm⟩

end Descriptor

end MessageCatalog
