import Mathlib.Tactic.IntervalCases
import Mathlib.Tactic.SplitIfs
import MessageCatalog.Json.Printer
import MessageCatalog.Json.Reader

/-!
# Strings and numbers that were written

A reader that meets a written value makes the same of it wherever the value stands, as
long as something follows that ends it. `Decodes` says what that is: a value, or none if
the reader refuses what is written. The text after the value is left as it was.

Strings are always read back. A natural number is read back if it fits into a word of 64
bits; the digits of a larger one are taken for a binary number, which no reader of natural
numbers accepts.
-/

namespace MessageCatalog

namespace Json

open Text (isAsciiDigit)

/-! ### What a reader makes of a text -/

/-- The text does not go on with a value that ends here. -/
def Ends (s : List Char) : Prop :=
  ∀ c ∈ s.head?, c = ',' ∨ c = '\n'

/-- The text starts with the first character of a value that is not missing. -/
def Opens (s : List Char) : Prop :=
  ∃ c rest, s = c :: rest ∧ isSpace c = false ∧ c ≠ ']' ∧ c ≠ 'n'

/-- What a reader makes of a written value that may follow blanks. -/
structure Reader.Decodes {α : Type} (r : Reader α) (written : List Char) (result : Option α) :
    Prop where
  opens : Opens written
  reads : ∀ {s rest : List Char}, skipSpace s = written ++ rest → Ends rest →
    (r.read s).toOption = result.map (·, rest)

section Outcomes

variable {ε α β : Type} {s rest written : List Char}

@[simp] theorem toOption_ok (a : α) : (Except.ok a : Except ε α).toOption = some a := rfl

@[simp] theorem toOption_error (fault : ε) :
    (Except.error fault : Except ε α).toOption = none := rfl

@[simp] theorem toOption_pure (a : α) : (pure a : Except ε α).toOption = some a := rfl

@[simp] theorem toOption_bind (first : Except ε α) (next : α → Except ε β) :
    (first >>= next).toOption = first.toOption.bind fun a => (next a).toOption := by
  cases first <;> rfl

theorem toOption_eq_some_iff {a : α} {result : Except ε α} :
    result.toOption = some a ↔ result = .ok a := by
  cases result <;> simp

theorem skipSpace_of_not_isSpace {c : Char} (visible : isSpace c = false) :
    skipSpace (c :: s) = c :: s := by
  rw [skipSpace, List.dropWhile_cons_of_neg (by simp [visible])]

theorem Opens.skipSpace_eq (opens : Opens written) (rest : List Char) :
    skipSpace (written ++ rest) = written ++ rest := by
  obtain ⟨c, tail, rfl, visible, -⟩ := opens
  exact skipSpace_of_not_isSpace visible

theorem atValue_eq {read : List Char → Except Fault (α × List Char)} {c : Char}
    (found : skipSpace s = c :: rest) : atValue read s = read (c :: rest) := by
  rw [atValue, found]

end Outcomes

/-! ### Strings -/

section Strings

variable {s rest : List Char} {n : Nat}

/-- A character with a code below thirty-two is escaped by its code, if it has no escape of
its own. -/
theorem readEscape_code {k : Nat} (low : k < 32) :
    readEscape ('u' :: '0' :: '0' :: Nat.digitChar (k / 16) :: Nat.digitChar (k % 16) :: s) =
      .ok (Char.ofNat k, s) := by
  have digits : Text.readNumeral? 16
      ['0', '0', Nat.digitChar (k / 16), Nat.digitChar (k % 16)] = some k := by
    revert k
    decide
  have character : Text.characterAt k = Char.ofNat k := by
    revert k
    decide
  have high : isHighSurrogate k = false ∧ isLowSurrogate k = false := by
    revert k
    decide
  have hex : readHex ('0' :: '0' :: Nat.digitChar (k / 16) :: Nat.digitChar (k % 16) :: s) =
      .ok (k, s) := by
    rw [readHex]
    simp only [List.take_succ_cons, List.take_zero, digits]
  rw [readEscape, readUnicode, hex]
  simp [bind, Except.bind, high, character, pure, Except.pure]

/-- What is written for a character is read as this character. -/
theorem readCharacters_escape (c : Char) (s : List Char) (n : Nat) :
    readCharacters (n + 1) (escape c ++ s) =
      (readCharacters n s).map fun read => (c :: read.1, read.2) := by
  have plain {d : Char} (unquoted : d ≠ '"') (unescaped : d ≠ '\\') (high : ¬ d.toNat < 32) :
      readCharacters (n + 1) (d :: s) =
        (readCharacters n s).map fun read => (d :: read.1, read.2) := by
    rw [readCharacters, if_neg unquoted, if_neg unescaped, if_neg high]
    rfl
  have escaped {t : List Char} {d : Char} (same : readEscape t = .ok (d, s)) :
      readCharacters (n + 1) ('\\' :: t) =
        (readCharacters n s).map fun read => (d :: read.1, read.2) := by
    rw [readCharacters, if_neg (by decide), if_pos rfl, same]
    rfl
  have code (k : Nat) (here : c.toNat = k) : c = Char.ofNat k := by
    rw [← here, Char.ofNat_toNat]
  rw [escape]
  split_ifs with quoted slash feed turn tab back form low
  · subst quoted
    exact escaped rfl
  · subst slash
    exact escaped rfl
  · subst feed
    exact escaped rfl
  · subst turn
    exact escaped rfl
  · subst tab
    exact escaped rfl
  · rw [code _ back]
    exact escaped rfl
  · rw [code _ form]
    exact escaped rfl
  · rw [code _ rfl]
    exact escaped (by simpa using readEscape_code low)
  · exact plain quoted slash low

theorem readCharacters_escapes (text : List Char) (long : text.length < n) :
    readCharacters n (text.flatMap escape ++ '"' :: rest) = .ok (text, rest) := by
  induction text generalizing n with
  | nil =>
      cases n with
      | zero => exact absurd long (by simp)
      | succ n => rw [List.flatMap_nil, List.nil_append, readCharacters, if_pos rfl]
  | cons c text ih =>
      cases n with
      | zero => exact absurd long (by simp)
      | succ n =>
          rw [List.flatMap_cons, List.append_assoc, readCharacters_escape,
            ih (by simpa using long)]
          rfl

theorem one_le_length_escape (c : Char) : 1 ≤ (escape c).length := by
  rw [escape]
  split_ifs <;> simp

theorem length_le_flatMap_escape (text : List Char) :
    text.length ≤ (text.flatMap escape).length := by
  induction text with
  | nil => simp
  | cons c text ih =>
      have one := one_le_length_escape c
      simp only [List.length_cons, List.flatMap_cons, List.length_append]
      omega

/-- A written string is read back behind its first quotation mark. -/
theorem readString_quoted (text : String) (rest : List Char) :
    readString (text.toList.flatMap escape ++ '"' :: rest) = .ok (text, rest) := by
  have long := length_le_flatMap_escape text.toList
  rw [readString, readCharacters_escapes]
  · simp [bind, Except.bind, pure, Except.pure]
  · simp only [List.length_append, List.length_cons]
    omega

theorem quote_append (text : String) (rest : List Char) :
    quote text ++ rest = '"' :: (text.toList.flatMap escape ++ '"' :: rest) := by
  simp [quote]

theorem decodes_text (written : String) : text.Decodes (quote written) (some written) where
  opens := ⟨'"', _, rfl, rfl, by decide, by decide⟩
  reads found _ := by
    rw [quote_append] at found
    change (atValue _ _).toOption = _
    rw [atValue_eq found]
    simp only [readString_quoted]
    rfl

end Strings

/-! ### Numbers -/

/-- What follows a number does not go on with it. -/
theorem Ends.stops {s : List Char} (ends : Ends s) :
    startsWithDigit s = false ∧ s.head? ≠ some '.' ∧ startsWithExponent s = false := by
  cases s with
  | nil => exact ⟨rfl, by simp, rfl⟩
  | cons c s =>
      rcases ends c rfl with rfl | rfl
      · exact ⟨rfl, by simp, rfl⟩
      · exact ⟨rfl, by simp, rfl⟩

/-- If a number is read, then as a binary one. -/
def Floats (result : Except Fault (Found × List Char)) : Prop :=
  ∀ found rest, result = .ok (found, rest) → ∃ x, found = .float x

section Numbers

variable {s rest : List Char} {n m : Nat}

theorem digitValue_le_ofDigitChars (digits : List Char) (n : Nat) :
    n ≤ Nat.ofDigitChars 10 digits n := by
  rw [Nat.ofDigitChars_eq_ofDigitChars_zero]
  have power : 1 ≤ 10 ^ digits.length := Nat.one_le_pow _ _ (by decide)
  have scaled : 1 * n ≤ 10 ^ digits.length * n := Nat.mul_le_mul_right n power
  omega

/-- Digits are collected as long as their number fits into a word. -/
theorem absorb_digits {digits : List Char} (all : ∀ c ∈ digits, isAsciiDigit c = true)
    (stops : startsWithDigit rest = false) (fits : n ≤ largestNatural) (taken : Nat) :
    if Nat.ofDigitChars 10 digits n ≤ largestNatural then
      absorb n taken (digits ++ rest) =
        (Nat.ofDigitChars 10 digits n, taken + digits.length, rest)
    else startsWithDigit (absorb n taken (digits ++ rest)).2.2 = true := by
  induction digits generalizing n taken with
  | nil =>
      rw [if_pos (by simpa using fits), Nat.ofDigitChars_nil, List.nil_append]
      cases rest with
      | nil => rfl
      | cons c rest =>
          have noDigit : isAsciiDigit c = false := by simpa [startsWithDigit] using stops
          rw [absorb, noDigit]
          rfl
  | cons c digits ih =>
      rw [List.forall_mem_cons] at all
      have next : 10 * n + (c.toNat - '0'.toNat) = n * 10 + digitValue c := by
        rw [digitValue, Nat.mul_comm]
      rw [Nat.ofDigitChars_cons, next, List.cons_append, absorb]
      by_cases small : n * 10 + digitValue c ≤ largestNatural
      · have rest := ih all.2 small (taken + 1)
        simpa [all.1, small, Nat.add_assoc, Nat.add_comm 1] using rest
      · have grows := digitValue_le_ofDigitChars digits (n * 10 + digitValue c)
        rw [if_neg (by omega), if_neg (by simp [small])]
        simpa [startsWithDigit] using all.1

theorem floats_here (problem : Problem) : Floats (Fault.here problem s) := by
  intro found rest read
  exact absurd read (by simp [Fault.here])

theorem floats_next (problem : Problem) : Floats (Fault.next problem s) := by
  intro found rest read
  exact absurd read (by simp [Fault.next])

theorem floats_ok (x : Binary64) : Floats (.ok (.float x, s)) := by
  intro found rest read
  cases read
  exact ⟨x, rfl⟩

theorem floats_scaled (negative : Bool) (significand : Nat) (exponent : Int) :
    Floats (scaled negative significand exponent s) := by
  rw [scaled]
  split
  · exact floats_ok _
  · split
    · exact floats_ok _
    · split
      · split
        · exact floats_here _
        · exact floats_ok _
      · exact floats_here _

theorem floats_readExponent (negative : Bool) (significand : Nat) (exponent : Int) :
    Floats (readExponent negative significand exponent s) := by
  fun_cases readExponent negative significand exponent s with
  | case1 => exact floats_here _
  | case2 => exact floats_next _
  | case3 => exact floats_scaled _ _ _
  | case4 => exact floats_here _
  | case5 => exact floats_ok _

theorem floats_finishFloat (negative : Bool) (significand : Nat) (exponent : Int) :
    Floats (finishFloat negative significand exponent s) := by
  rw [finishFloat]
  split
  · exact floats_readExponent _ _ _
  · exact floats_scaled _ _ _

theorem floats_finishNumber (negative : Bool) (n exponent : Nat) :
    Floats (finishNumber negative n exponent s) := by
  rw [finishNumber.eq_def]
  split
  · rw [readFraction]
    split
    split
    · exact floats_finishFloat _ _ _
    · split
      · split
        · exact floats_here _
        · exact floats_next _
      · exact floats_finishFloat _ _ _
  · exact floats_finishFloat _ _ _

theorem asNatural_of_floats {result : Except Fault (Found × List Char)} (floats : Floats result) :
    (result >>= asNatural).toOption = none := by
  cases result with
  | error fault => rfl
  | ok read =>
      obtain ⟨x, same⟩ := floats read.1 read.2 rfl
      obtain ⟨found, s⟩ := read
      cases same
      rfl

theorem isAsciiDigit_of_mem_toDigits {c : Char} (here : c ∈ Nat.toDigits 10 n) :
    isAsciiDigit c = true := by
  have digit := Nat.isDigit_of_mem_toDigits (by decide) (by decide) here
  rw [Char.isDigit, Bool.and_eq_true, decide_eq_true_eq, decide_eq_true_eq] at digit
  rw [isAsciiDigit, Bool.and_eq_true, decide_eq_true_eq, decide_eq_true_eq]
  exact digit

/-- Only the number zero is written with a zero in front. -/
theorem exists_toDigits_eq (positive : 0 < n) :
    ∃ c digits, Nat.toDigits 10 n = c :: digits ∧ c ≠ '0' := by
  induction n using Nat.strong_induction_on with
  | _ n ih =>
      rw [Nat.toDigits_eq_if (by decide)]
      split_ifs with small
      · refine ⟨_, _, rfl, ?_⟩
        interval_cases n <;> decide
      · obtain ⟨c, digits, same, visible⟩ := ih (n / 10) (by omega) (by omega)
        exact ⟨c, digits ++ [Nat.digitChar (n % 10)], by rw [same, List.cons_append], visible⟩

/-- A written number is read as an integer if it fits into a word, and otherwise, if at all,
as a binary number. -/
theorem readUnsigned_toDigits (ends : Ends rest) :
    if n ≤ largestNatural then
      readUnsigned false (Nat.toDigits 10 n ++ rest) = .ok (.integer n, rest)
    else Floats (readUnsigned false (Nat.toDigits 10 n ++ rest)) := by
  obtain ⟨noDigit, noPoint, noExponent⟩ := ends.stops
  rcases Nat.eq_zero_or_pos n with rfl | positive
  · rw [if_pos (by decide), Nat.toDigits_zero]
    simp [readUnsigned, noDigit, noPoint, noExponent]
  · obtain ⟨c, digits, same, visible⟩ := exists_toDigits_eq positive
    have all : ∀ d ∈ c :: digits, isAsciiDigit d = true := by
      rw [← same]
      exact fun d here => isAsciiDigit_of_mem_toDigits here
    have first := all c List.mem_cons_self
    have collected := absorb_digits all noDigit (Nat.zero_le largestNatural) 0
    rw [← same, Nat.ofDigitChars_ten_toDigits, same, List.cons_append] at collected
    have unsigned : readUnsigned false (c :: (digits ++ rest)) =
        let read := absorb 0 0 (c :: (digits ++ rest))
        if startsWithDigit read.2.2 then
          finishNumber false read.1 (read.2.2.takeWhile isAsciiDigit).length
            (read.2.2.drop (read.2.2.takeWhile isAsciiDigit).length)
        else if read.2.2.head? = some '.' || startsWithExponent read.2.2 then
          finishNumber false read.1 0 read.2.2
        else .ok (.integer read.1, read.2.2) := by
      rw [readUnsigned, if_neg (by simp [first])]
      · rfl
      · exact fun h => visible h
    rw [same, List.cons_append, unsigned]
    by_cases fits : n ≤ largestNatural
    · rw [if_pos fits] at collected ⊢
      simp [collected, noDigit, noPoint, noExponent]
    · rw [if_neg fits] at collected ⊢
      dsimp only
      rw [if_pos collected]
      exact floats_finishNumber _ _ _

theorem opens_toDigits (n : Nat) : Opens (Nat.toDigits 10 n) := by
  cases same : Nat.toDigits 10 n with
  | nil => exact absurd same Nat.toDigits_ne_nil
  | cons c digits =>
      have digit : isAsciiDigit c = true :=
        isAsciiDigit_of_mem_toDigits (same ▸ List.mem_cons_self)
      refine ⟨c, digits, rfl, ?_, ?_, ?_⟩
      · rw [isSpace, Bool.eq_false_iff]
        intro blank
        simp only [Bool.or_eq_true, decide_eq_true_eq] at blank
        rcases blank with ((rfl | rfl) | rfl) | rfl <;> exact absurd digit (by decide)
      · rintro rfl
        exact absurd digit (by decide)
      · rintro rfl
        exact absurd digit (by decide)

theorem decodes_natural (n : Nat) :
    natural.Decodes (Nat.toDigits 10 n) (if n ≤ largestNatural then some n else none) where
  opens := opens_toDigits n
  reads {s rest} found ends := by
    have read := readUnsigned_toDigits (n := n) ends
    cases same : Nat.toDigits 10 n with
    | nil => exact absurd same Nat.toDigits_ne_nil
    | cons c digits =>
        have digit : isAsciiDigit c = true :=
          isAsciiDigit_of_mem_toDigits (same ▸ List.mem_cons_self)
        rw [same, List.cons_append] at found read
        change (atValue _ _).toOption = _
        rw [atValue_eq found]
        split
        · rename_i whole
          obtain ⟨rfl, -⟩ := List.cons_eq_cons.mp whole
          exact absurd digit (by decide)
        · have starts : startsWithDigit (c :: (digits ++ rest)) = true := digit
          rw [if_pos starts]
          split_ifs at read ⊢
          · rw [read]
            rfl
          · exact asNatural_of_floats read

end Numbers

end Json

end MessageCatalog
