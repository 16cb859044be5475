import MessageCatalog.Proofs.Descriptor.Trimming
import MessageCatalog.Proofs.Extraction.Frame
import MessageCatalog.Proofs.Extraction.History

/-!
# What is stored

Whatever visits there are, in whatever order and with whatever failures, every entry of the
catalog stems from a draft that was resolved. So what holds of the texts of every content
holds of the texts of every entry: keys, descriptions and comments are trimmed, and a
message is the canonical text of one that was read in a trimmed text.
-/

namespace MessageCatalog

namespace Extraction

open Catalog Descriptor Message Syntax Text

/-- The texts of the entry are those of a resolved draft. -/
structure TrimmedEntry (e : Entry) : Prop where
  id : IsTrimmed e.id
  description : ∀ text ∈ e.description, IsTrimmed text
  comment : ∀ text ∈ e.comment, IsTrimmed text
  defaultMessage : ∃ text message, Canonicalized text message e.defaultMessage

section Origin

variable {s : Setting} {failed : Prop} {describes : Node → Prop} {p : Progress} {node : Node}
  {parts parts' : List Node} {before after : Catalog} {ds : List Declaration} {P : Entry → Prop}

/-! ### Every visit admits declarations -/

theorem Setting.Settles.exists_admits (settles : s.Settles failed describes ds before parts
    parts' after) : ∃ ds, s.Admits before ds after := by
  cases settles with
  | stored declared admits => exact ⟨_, admits⟩
  | idle => exact ⟨[], rfl⟩
  | stopped => exact ⟨[], rfl⟩

theorem Setting.SettlesAll.exists_admits (settles : s.SettlesAll failed before parts parts'
    after) : ∃ ds, s.Admits before ds after := by
  induction settles with
  | nil => exact ⟨[], rfl⟩
  | object settles _ ih =>
      obtain ⟨own, first⟩ := settles.exists_admits
      obtain ⟨others, rest⟩ := ih
      exact ⟨own ++ others, first.append rest⟩
  | other _ _ ih => exact ih

theorem Setting.Sheds.exists_admits {shed : Node} (sheds : s.Sheds failed p node shed after) :
    ∃ ds, s.Admits p.catalog ds after := by
  cases sheds with
  | untouched => exact ⟨[], rfl⟩
  | element _ settles => exact settles.exists_admits
  | shorthand _ admits => exact ⟨_, admits⟩
  | one _ settles => exact settles.exists_admits
  | many _ settles => exact settles.exists_admits

/-- A visit that fails may have stored some messages before. -/
theorem visit_admits (s : Setting) (p : Progress) (node : Node) :
    ∃ ds, s.Admits p.catalog ds (s.visit p node).progress.catalog := by
  have sheds := @visit_sheds s True p node (fun fine => absurd trivial fine)
  exact sheds.exists_admits

theorem after_admits (s : Setting) (p : Progress) (events : List Node) :
    ∃ ds, s.Admits p.catalog ds (s.after p events).catalog := by
  induction events generalizing p with
  | nil => exact ⟨[], rfl⟩
  | cons event events ih =>
      obtain ⟨own, first⟩ := visit_admits s p event
      obtain ⟨others, rest⟩ := ih (s.visit p event).progress
      exact ⟨own ++ others, first.append rest⟩

/-! ### Every entry stems from a draft -/

/-- What holds of the entries that resolved drafts make holds of all entries that a catalog
admits. -/
theorem Setting.Admits.forall_entries (admits : s.Admits before ds after)
    (start : ∀ e ∈ before.entries, P e)
    (made : ∀ draft content location e, Draft.resolve s.evaluator draft = .ok content →
      Declares content location e → P e) : ∀ e ∈ after.entries, P e := by
  induction ds generalizing before with
  | nil =>
      obtain rfl : before = after := admits
      exact start
  | cons d ds ih =>
      obtain ⟨content, between, e, resolved, inserted, rest⟩ := admits
      obtain ⟨entry, added⟩ := insert_eq_ok_iff.mp inserted
      apply ih rest
      intro e' here
      rcases (adds_of_add added).1.mem_entries here with rfl | earlier
      · exact made d.draft content _ e' resolved (entry_eq_ok_iff.mp entry).2
      · exact start e' earlier

end Origin

section Texts

variable {evaluator : Evaluator} {draft : Draft} {content : Content}
  {location : Option Catalog.Location} {e : Entry}

/-- A key begins as the identifier and ends as the comment. -/
theorem isTrimmed_storageKey {id : String} {comment : Option String} (trimmed : IsTrimmed id)
    (trimmed' : ∀ text ∈ comment, IsTrimmed text) : IsTrimmed (storageKey id comment) := by
  cases comment with
  | none => exact trimmed
  | some comment =>
      obtain ⟨⟨c, first, visible⟩, -⟩ := isTrimmed_iff.mp trimmed
      obtain ⟨-, ⟨c', last, visible'⟩⟩ := isTrimmed_iff.mp (trimmed' comment rfl)
      rw [isTrimmed_iff, storageKey, String.toList_append, String.toList_append]
      refine ⟨⟨c, ?_, visible⟩, c', ?_, visible'⟩
      · rw [List.append_assoc, List.head?_append, Option.mem_def.mp first]
        rfl
      · rw [List.getLast?_append, Option.mem_def.mp last]
        rfl

theorem trimmedEntry_of_declares (resolved : draft.resolve evaluator = .ok content)
    (declares : Declares content location e) : TrimmedEntry e := by
  obtain ⟨trimmed, canonical⟩ := trimmed_of_resolve resolved
  have comment : ∀ text ∈ content.comment, IsTrimmed text :=
    fun text present => trimmed .comment text present (by decide)
  refine ⟨?_, ?_, declares.comment ▸ comment, ?_⟩
  · have key := declares.key
    rw [keyOf] at key
    obtain ⟨id, present, same⟩ := Option.map_eq_some_iff.mp key
    rw [← same]
    exact isTrimmed_storageKey (trimmed .id id present (by decide)) comment
  · intro text present
    exact trimmed .description text (declares.description.trans present) (by decide)
  · obtain ⟨text, message, -, canonicalized⟩ := canonical _ declares.defaultMessage
    exact ⟨text, message, canonicalized⟩

end Texts

/-- The fields of every content are trimmed, except that a message has the blanks at its
ends that are written as numeric escapes. The same holds of every entry of a catalog after
any visits; so no key is ever blank, and a message is blank only if it consists of escaped
blanks. -/
theorem fields_trimmed (s : Setting) :
    (∀ draft content, Draft.resolve s.evaluator draft = .ok content →
      (∀ field, ∀ text ∈ content.get field, field ≠ .defaultMessage → IsTrimmed text) ∧
        ∀ canonical ∈ content.defaultMessage, ∃ text message,
          (∃ holder, (Field.defaultMessage, holder) ∈ draft ∧
            holder.text s.evaluator .defaultMessage = .ok (some text)) ∧
          Canonicalized text message canonical) ∧
    ∀ events, ∀ e ∈ (s.after (.start s.options) events).catalog.entries, TrimmedEntry e := by
  constructor
  · intro draft content resolved
    exact trimmed_of_resolve resolved
  · intro events
    obtain ⟨ds, admits⟩ := after_admits s (.start s.options) events
    refine admits.forall_entries ?_ ?_
    · intro e here
      exact absurd here List.not_mem_nil
    · intro draft content location e resolved declares
      exact trimmedEntry_of_declares resolved declares

/-- The element `<T message="\u0020" />`. -/
def escapedElement : Node :=
  .mk (.element (.plain shorthandTag)) ⟨0, 22⟩
    [.mk (.attribute "message") ⟨3, 19⟩ [.mk (.string "\\u0020") ⟨11, 19⟩ []]]

/-- How messages are extracted from a unit that consists of the element. -/
def escapedSetting : Setting :=
  Unit.setting .standard "test.tsx" (.ofString "<T message=\"\\u0020\" />") [escapedElement]

/-- An escaped blank is trimmed away neither before nor after it is read. -/
theorem escaped_blank_stored :
    (escapedSetting.after (.start escapedSetting.options) [escapedElement]).catalog.entries =
        [⟨"\\u0020", none, " ", none, none⟩] ∧
      trim " " = "" ∧
      ¬ ∀ draft content, Draft.resolve escapedSetting.evaluator draft = .ok content →
        ∀ field, ∀ text ∈ content.get field, IsTrimmed text := by
  refine ⟨rfl, by decide, ?_⟩
  intro claimed
  have trimmed := claimed (.ofAttributes .shorthand escapedElement.children)
    ⟨some "\\u0020", none, some " ", none⟩ rfl .defaultMessage " " rfl
  exact absurd trimmed.2 (by decide)

end Extraction

end MessageCatalog
