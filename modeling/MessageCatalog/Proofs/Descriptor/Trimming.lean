import MessageCatalog.Proofs.Descriptor.Resolution
import MessageCatalog.Proofs.Message.Edges

/-!
# The texts of a content

The fields of a content are trimmed, and a field that would be empty is absent. This is done
before the message is brought into canonical form, so it holds of the text that the message
is read in, and of its canonical form as far as the message itself has no blanks at its
ends.
-/

namespace MessageCatalog

namespace Descriptor

open Extraction Message Syntax Text

/-- The canonical text of a message that was read in a trimmed text. It is never empty, but
it has the blanks that are at the ends of the message, and these stem from numeric escapes.
So it is blank exactly if the message is. -/
structure Canonicalized (text : String) (message : Message) (canonical : String) : Prop where
  trimmed : IsTrimmed text
  read : parse text = .ok message
  written : print message = canonical
  inhabited : canonical ≠ ""
  trimmed_iff : IsTrimmed canonical ↔ ¬ LeadsBlank message ∧ ¬ TrailsBlank message
  blank_iff : trim canonical = "" ↔ IsBlankText message
  escapes : ¬ IsTrimmed canonical → Escapes text.toList

theorem canonicalized_of_parse {text : String} {message : Message} (trimmed : IsTrimmed text)
    (read : parse text = .ok message) : Canonicalized text message (print message) := by
  have inhabited := print_ne_empty read trimmed.1
  refine ⟨trimmed, read, rfl, inhabited, ?_, trim_print_eq_empty_iff read trimmed.1, ?_⟩
  · rw [IsTrimmed, trim_print_eq_self_iff read]
    exact and_iff_right inhabited
  · intro untrimmed
    apply escapes_of_untrimmed read trimmed.2
    intro same
    exact untrimmed ⟨inhabited, same⟩

section Trimming

variable {evaluator : Evaluator} {draft : Draft} {content content' : Content} {field : Field}
  {holder : Holder} {text : String}

theorem isTrimmed_of_text (known : holder.text evaluator field = .ok (some text)) :
    IsTrimmed text := by
  rw [Holder.text] at known
  split at known
  · exact absurd known (by simp)
  · rename_i value _
    simp only [Except.ok.injEq] at known
    split at known
    · exact absurd known (by simp)
    · rename_i inhabited
      obtain rfl := Option.some.inj known
      apply isTrimmed_trim
      intro empty
      exact inhabited (by rw [empty]; rfl)

/-- The text of a field is that of its holder, except that a message is brought into
canonical form. -/
theorem fieldText_eq_some (known : fieldText evaluator field holder = .ok (some text)) :
    ∃ raw, holder.text evaluator field = .ok (some raw) ∧
      if field = .defaultMessage then Message.canonicalize raw = .ok text else raw = text := by
  rw [fieldText_eq] at known
  cases written : holder.text evaluator field with
  | error => simp [written, Except.bind] at known
  | ok found =>
      cases found with
      | none => simp [written, Except.bind] at known
      | some raw =>
          refine ⟨raw, rfl, ?_⟩
          simp only [written, Except.bind] at known
          split at known
          · rename_i message
            rw [if_pos message]
            cases canonical : canonicalText holder raw with
            | error => simp [canonical, Except.map] at known
            | ok canonical' =>
                rw [canonical] at known
                rw [canonicalText_eq_ok_iff.mp canonical]
                exact congrArg Except.ok (Option.some.inj (Except.ok.inj known))
          · rename_i other
            rw [if_neg other]
            exact Option.some.inj (Except.ok.inj known)

/-- Every text of the content was there before or is that of a holder. -/
theorem exists_holder_of_get
    (resolved : Draft.resolveOnto evaluator content draft = .ok content')
    (present : text ∈ content'.get field) :
    text ∈ content.get field ∨
      ∃ holder, (field, holder) ∈ draft ∧ fieldText evaluator field holder = .ok (some text) := by
  induction draft generalizing content with
  | nil =>
      cases resolved
      exact .inl present
  | cons entry draft ih =>
      obtain ⟨first, holder⟩ := entry
      obtain ⟨text', known, rest⟩ := resolveOnto_cons_eq_ok_iff.mp resolved
      rcases ih rest with before | ⟨holder', here, said⟩
      · rw [Content.get_set] at before
        split at before
        · rename_i same
          subst same
          exact .inr ⟨holder, List.mem_cons_self, known.trans (congrArg _ before)⟩
        · exact .inl before
      · exact .inr ⟨holder', List.mem_cons_of_mem _ here, said⟩

/-- The fields other than the message are trimmed, and the message is the canonical text of
what one of the holders says. -/
theorem trimmed_of_resolve (resolved : draft.resolve evaluator = .ok content) :
    (∀ field, ∀ text ∈ content.get field, field ≠ .defaultMessage → IsTrimmed text) ∧
      ∀ canonical ∈ content.defaultMessage, ∃ text message,
        (∃ holder, (Field.defaultMessage, holder) ∈ draft ∧
          holder.text evaluator .defaultMessage = .ok (some text)) ∧
        Canonicalized text message canonical := by
  have held (field : Field) {text : String} (present : text ∈ content.get field) :
      ∃ holder, (field, holder) ∈ draft ∧ fieldText evaluator field holder = .ok (some text) :=
    (exists_holder_of_get resolved present).resolve_left (by simp)
  constructor
  · intro field text present other
    obtain ⟨holder, -, known⟩ := held field present
    obtain ⟨raw, said, same⟩ := fieldText_eq_some known
    rw [if_neg other] at same
    exact same ▸ isTrimmed_of_text said
  · intro canonical present
    obtain ⟨holder, here, known⟩ := held .defaultMessage present
    obtain ⟨raw, said, same⟩ := fieldText_eq_some known
    rw [if_pos rfl] at same
    obtain ⟨message, read, rfl⟩ := exists_parse_of_canonicalize same
    exact ⟨raw, message, ⟨holder, here, said⟩,
      canonicalized_of_parse (isTrimmed_of_text said) read⟩

end Trimming

end Descriptor

end MessageCatalog
