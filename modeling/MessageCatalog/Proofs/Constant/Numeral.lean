import MessageCatalog.Constant.Evaluation
import MessageCatalog.Proofs.Descriptor.Trimming
import MessageCatalog.Proofs.Message.RoundTrip

/-!
# Whole numbers as text

A whole number below the limit is written as a minus sign, if it is negative, and decimal
digits. A field that holds such a number gets this text as it is, also where it is read as
a message. Two of these numbers have the same text exactly if they are equal or lie beyond
the same end of the words: there every number is written as the end.
-/

namespace MessageCatalog

namespace Message

theorem needsEscape_of_isDigit {c : Char} (digit : isDigit c = true) :
    needsEscape false c = false := by
  cases special : needsEscape false c with
  | false => rfl
  | true =>
      simp only [needsEscape, Bool.or_eq_true, Bool.false_and, beq_iff_eq] at special
      obtain ((rfl | rfl) | rfl) | none := special
      · exact absurd digit (by decide)
      · exact absurd digit (by decide)
      · exact absurd digit (by decide)
      · cases none

/-- Text without special characters is escaped by leaving it alone. -/
theorem escapeText_of_plain {inPlural : Bool} {text : List Char}
    (plain : ∀ c ∈ text, needsEscape inPlural c = false) : escapeText inPlural text = text := by
  induction text with
  | nil => rfl
  | cons c text ih =>
      obtain ⟨here, rest⟩ := List.forall_mem_cons.mp plain
      rw [escapeText, here, ih rest]
      rfl

/-- Text without special characters is a message, and its canonical form. -/
theorem canonicalize_of_plain {text : String} (inhabited : text ≠ "")
    (plain : ∀ c ∈ text.toList, needsEscape false c = false) : canonicalize text = .ok text := by
  have kept := escapeText_of_plain plain
  have word : TextWord false text.toList text.toList := by
    simpa only [kept] using escapeText_word false text.toList
  have inhabited' : text.toList ≠ [] := fun empty =>
    inhabited (String.toList_eq_nil_iff.mp empty)
  have read : parse text = .ok [.literal text] := by
    apply parse_eq_ok_iff.mpr
    apply readAll_eq_ok_iff.mpr
    simpa using MessageWord.text word inhabited' .nil nofun
  rw [canonicalize_of_parse read, print, printElements, printElements, List.append_nil,
    printElement, kept, String.ofList_toList]

end Message

namespace Constant

open Binding Descriptor Message Syntax Text

/-- The text is decimal digits, with a minus sign in front of them or without one. -/
def IsNumeral (text : String) : Prop :=
  ∃ digits, Run isDigit digits ∧ (text.toList = digits ∨ text.toList = '-' :: digits)

/-- The whole number that a numeral stands for. -/
def numeralValue : List Char → Int
  | '-' :: digits => -(digitsValue digits : Int)
  | digits => digitsValue digits

/-- The number is exactly a whole number, and one that is written by way of a word. -/
structure Holds (x : Binary64) (n : Int) : Prop where
  exact : x.toInt? = some n
  bounded : n.natAbs < wordLimit

/-- Two whole numbers lie at the same end of the words, or beyond it. -/
def AtSameEnd (j k : Int) : Prop :=
  (maxWord ≤ j ∧ maxWord ≤ k) ∨ (j ≤ minWord ∧ k ≤ minWord)

instance (j k : Int) : Decidable (AtSameEnd j k) :=
  inferInstanceAs (Decidable (_ ∨ _))

section Numeral

variable {x y : Binary64} {j k n : Int} {text : String}

theorem isNumeral_toString (n : Int) : IsNumeral (toString n) := by
  cases n with
  | ofNat m => exact ⟨m.repr.toList, run_isDigit_repr m, .inl rfl⟩
  | negSucc m =>
      refine ⟨m.succ.repr.toList, run_isDigit_repr m.succ, .inr ?_⟩
      change ("-" ++ m.succ.repr).toList = _
      rw [String.toList_append]
      rfl

theorem numeralValue_toString (n : Int) : numeralValue (toString n).toList = n := by
  cases n with
  | ofNat m =>
      change numeralValue m.repr.toList = m
      rw [numeralValue.eq_2, digitsValue_repr]
      intro digits signed
      have digit := (run_isDigit_repr m).2 '-' (by rw [signed]; exact List.mem_cons_self)
      exact absurd digit (by decide)
  | negSucc m =>
      change numeralValue ("-" ++ m.succ.repr).toList = _
      rw [String.toList_append]
      change -(digitsValue m.succ.repr.toList : Int) = _
      rw [digitsValue_repr]
      rfl

/-- The characters of a numeral can be seen, and none of them is special in a message. -/
theorem IsNumeral.plain (numeral : IsNumeral text) :
    ∀ c ∈ text.toList, isBlank c = false ∧ needsEscape false c = false := by
  obtain ⟨digits, run, whole⟩ := numeral
  have digit : ∀ c ∈ digits, isBlank c = false ∧ needsEscape false c = false := by
    intro c here
    exact ⟨isBlank_of_isDigit (run.2 c here), needsEscape_of_isDigit (run.2 c here)⟩
  cases whole with
  | inl unsigned => rwa [unsigned]
  | inr signed =>
      rw [signed, List.forall_mem_cons]
      exact ⟨by decide, digit⟩

theorem IsNumeral.ne_empty (numeral : IsNumeral text) : text ≠ "" := by
  rintro rfl
  obtain ⟨digits, run, whole | whole⟩ := numeral
  · exact run.1 whole.symm
  · exact absurd whole nofun

theorem IsNumeral.trim_eq (numeral : IsNumeral text) : trim text = text := by
  apply trim_eq_self_iff.mpr
  constructor
  · intro c first
    exact (numeral.plain c (List.mem_of_mem_head? first)).1
  · intro c last
    exact (numeral.plain c (List.mem_of_mem_getLast? last)).1

theorem IsNumeral.canonicalize_eq (numeral : IsNumeral text) : canonicalize text = .ok text :=
  canonicalize_of_plain numeral.ne_empty fun c here => (numeral.plain c here).2

/-- A field that holds a value with this text gets the text itself. -/
theorem IsNumeral.fieldText_eq (numeral : IsNumeral text) {evaluator : Evaluator}
    {holder : Holder} {value : Value} (held : holder.value evaluator = some value)
    (written : value.toText = text) (field : Field) :
    fieldText evaluator field holder = .ok (some text) := by
  have known (field : Field) : holder.text evaluator field = .ok (some text) := by
    simp only [Holder.text, held, written, numeral.trim_eq, String.isEmpty_iff,
      numeral.ne_empty, if_false]
  cases field with
  | defaultMessage =>
      rw [fieldText_defaultMessage (known _),
        canonicalText_eq_ok_iff.mpr numeral.canonicalize_eq]
      rfl
  | id | description | comment =>
      simp only [fieldText, known]
      rfl

theorem clampWord_eq_iff : clampWord j = clampWord k ↔ j = k ∨ AtSameEnd j k := by
  simp only [clampWord, AtSameEnd, minWord, maxWord]
  omega

theorem Holds.writeNumber_eq (holds : Holds x n) : writeNumber x = toString (clampWord n) := by
  cases x with
  | nan => exact absurd holds.exact nofun
  | infinite => exact absurd holds.exact nofun
  | finite negative units =>
      simp only [writeNumber, holds.exact]
      exact if_pos holds.bounded

theorem Holds.isNumeral (holds : Holds x n) : IsNumeral (Value.number x).toText := by
  change IsNumeral (writeNumber x)
  rw [holds.writeNumber_eq]
  exact isNumeral_toString _

/-- The text stands for the nearest word. -/
theorem Holds.numeralValue_eq (holds : Holds x n) :
    numeralValue (Value.number x).toText.toList = clampWord n := by
  change numeralValue (writeNumber x).toList = clampWord n
  rw [holds.writeNumber_eq]
  exact numeralValue_toString _

/-- A shorthand call with such a number as its message is given its text as name and as
message. -/
theorem Holds.resolve_eq (holds : Holds x n) (constants : Constants) (span : Span) :
    (Draft.ofArguments [.mk (.number x) span []]).resolve (evaluate constants) =
      .ok ⟨some (Value.number x).toText, none, some (Value.number x).toText, none⟩ := by
  have text (field : Field) :
      fieldText (evaluate constants) field (.expression (.mk (.number x) span [])) =
        .ok (some (Value.number x).toText) :=
    holds.isNumeral.fieldText_eq rfl rfl field
  apply resolveOnto_cons_eq_ok_iff.mpr
  refine ⟨_, text .id, ?_⟩
  apply resolveOnto_cons_eq_ok_iff.mpr
  exact ⟨_, text .defaultMessage, rfl⟩

/-- The text of such a number is a numeral and stands for the nearest word, and every field
that holds the number gets this text. Two of these numbers have the same text, and give a field
the same text, exactly if they are equal or lie at the same end of the words. -/
theorem numeral_shared_iff (first : Holds x j) (second : Holds y k) :
    IsNumeral (Value.number x).toText ∧
      numeralValue (Value.number x).toText.toList = clampWord j ∧
      ((Value.number x).toText = (Value.number y).toText ↔ j = k ∨ AtSameEnd j k) ∧
      ∀ (evaluator : Evaluator) (field : Field) (holder holder' : Holder),
        holder.value evaluator = some (.number x) →
        holder'.value evaluator = some (.number y) →
          fieldText evaluator field holder = .ok (some (Value.number x).toText) ∧
            (fieldText evaluator field holder = fieldText evaluator field holder' ↔
              j = k ∨ AtSameEnd j k) := by
  have shared : (Value.number x).toText = (Value.number y).toText ↔ j = k ∨ AtSameEnd j k := by
    rw [← clampWord_eq_iff]
    constructor
    · intro same
      rw [← first.numeralValue_eq, ← second.numeralValue_eq, same]
    · intro same
      change writeNumber x = writeNumber y
      rw [first.writeNumber_eq, second.writeNumber_eq, same]
  refine ⟨first.isNumeral, first.numeralValue_eq, shared, ?_⟩
  intro evaluator field holder holder' held held'
  have text := first.isNumeral.fieldText_eq held rfl field
  have text' := second.isNumeral.fieldText_eq held' rfl field
  refine ⟨text, ?_⟩
  rw [text, text', Except.ok.injEq, Option.some.injEq]
  exact shared

end Numeral

/-- Forty-two and minus seven have different texts. -/
theorem numeral_shared_iff_small :
    let x : Binary64 := .ofNat 42
    let y : Binary64 := (Binary64.ofNat 7).neg
    Holds x 42 ∧ Holds y (-7) ∧ IsNumeral (Value.number x).toText ∧
      (Value.number x).toText ≠ (Value.number y).toText := by
  intro x y
  have first : Holds x 42 := ⟨by decide +kernel, by decide⟩
  have second : Holds y (-7) := ⟨by decide +kernel, by decide⟩
  obtain ⟨numeral, -, shared, -⟩ := numeral_shared_iff first second
  refine ⟨first, second, numeral, ?_⟩
  intro same
  exact absurd (shared.mp same) (by decide)

/-- The powers of ten with the exponents nineteen and twenty are held exactly, and both are
written as the largest word. So different whole numbers need not have different texts, and
shorthand calls with the two as their messages are given the same content. -/
theorem numerals_not_distinct :
    let x : Binary64 := .ofNat (Nat.pow 10 19)
    let y : Binary64 := .ofNat (Nat.pow 10 20)
    let content (z : Binary64) :=
      (Draft.ofArguments [.mk (.number z) ⟨2, 6⟩ []]).resolve (evaluate .empty)
    (Holds x (Nat.pow 10 19 : Nat) ∧ Holds y (Nat.pow 10 20 : Nat) ∧
      (Value.number x).toText = "9223372036854775807" ∧
      (Value.number y).toText = "9223372036854775807" ∧ content x = content y) ∧
    ¬ ∀ (x y : Binary64) (j k : Int), Holds x j → Holds y k → j ≠ k →
      (Value.number x).toText ≠ (Value.number y).toText := by
  intro x y content
  have first : Holds x (Nat.pow 10 19 : Nat) := ⟨by decide +kernel, by decide +kernel⟩
  have second : Holds y (Nat.pow 10 20 : Nat) := ⟨by decide +kernel, by decide +kernel⟩
  have text : (Value.number x).toText = "9223372036854775807" := by decide +kernel
  have text' : (Value.number y).toText = "9223372036854775807" := by decide +kernel
  have same := text.trans text'.symm
  have contents : content x = content y := by
    change (Draft.ofArguments _).resolve _ = (Draft.ofArguments _).resolve _
    rw [first.resolve_eq, second.resolve_eq, same]
  refine ⟨⟨first, second, text, text', contents⟩, ?_⟩
  intro distinct
  exact distinct x y _ _ first second (by decide +kernel) same

end Constant

end MessageCatalog
