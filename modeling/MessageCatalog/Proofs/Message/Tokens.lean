import MessageCatalog.Proofs.Message.Grammar
import MessageCatalog.Proofs.Text.Trim

/-!
# Tokens of messages

Each reader of a token is characterised by the words of the grammar: it succeeds exactly
on a word of its kind, and returns what the word denotes together with the text behind
it. Readers of runs stop only where the run ends, and the text behind says so.

The readers of clauses are stated together with the blanks around them, since the clause
and the blanks in front of it are read in one go.
-/

namespace MessageCatalog

namespace Message

open Text

/-! ### Results -/

@[simp] theorem ok_bind {ε α β : Type} (a : α) (f : α → Except ε β) :
    (Except.ok a >>= f) = f a := rfl

/-- A chain of readers succeeds if each of them does. -/
theorem bind_eq_ok_iff {ε α β : Type} {x : Except ε α} {f : α → Except ε β} {b : β} :
    (x >>= f) = .ok b ↔ ∃ a, x = .ok a ∧ f a = .ok b := by
  cases x with
  | error e => simp [bind, Except.bind]
  | ok a => simp

@[simp] theorem unexpected_ne_ok {α : Type} (what : Expectation) (s : List Char) (a : α) :
    (unexpected what s : Except Fault α) ≠ .ok a := by
  simp [unexpected]

/-! ### Runs and blanks -/

section Runs

variable {p : Char → Bool} {v w r s : List Char} {c : Char}

@[simp] theorem stops_nil (p : Char → Bool) : Stops p [] := by
  simp [Stops]

@[simp] theorem stops_cons : Stops p (c :: s) ↔ p c = false := by
  simp [Stops]

theorem stops_dropWhile (p : Char → Bool) (s : List Char) : Stops p (s.dropWhile p) := by
  induction s with
  | nil => exact stops_nil p
  | cons c s ih =>
      cases h : p c with
      | false => simp [h]
      | true => simpa [h] using ih

theorem Stops.of_append (h : Stops p (v ++ w)) : Stops p v := by
  cases v with
  | nil => exact stops_nil p
  | cons c v => simpa using h

theorem Stops.append (h : Stops p v) (inhabited : v ≠ []) : Stops p (v ++ w) := by
  cases v with
  | nil => exact absurd rfl inhabited
  | cons c v => simpa using h

theorem Run.stops {q : Char → Bool} (run : Run p w) (apart : ∀ c, p c = true → q c = false) :
    Stops q w := by
  cases w with
  | nil => exact stops_nil q
  | cons c w => exact stops_cons.mpr (apart c (run.2 c List.mem_cons_self))

/-- Blanks in front of a text that stops a class stop the class as well, unless they
belong to it. -/
theorem Stops.blanks_append (apart : ∀ c, isBlank c = true → p c = false) (blank : Blanks v)
    (h : Stops p s) : Stops p (v ++ s) := by
  cases v with
  | nil => exact h
  | cons c v =>
      rw [List.cons_append, stops_cons]
      exact apart c (blank c List.mem_cons_self)

@[simp] theorem blanks_nil : Blanks [] := by
  simp [Blanks]

@[simp] theorem blanks_space : Blanks [' '] := by
  simp [Blanks, isBlank]

theorem Blanks.append (hv : Blanks v) (hw : Blanks w) : Blanks (v ++ w) := by
  intro c hc
  rcases List.mem_append.mp hc with hc | hc
  · exact hv c hc
  · exact hw c hc

theorem Blanks.eq_nil (blank : Blanks v) (stops : Stops isBlank (v ++ s)) : v = [] := by
  cases v with
  | nil => rfl
  | cons c v =>
      have visible : isBlank c = false := stops_cons.mp stops
      exact absurd (blank c List.mem_cons_self) (by simp [visible])

theorem takeRun_append (member : ∀ c ∈ w, p c = true) (stops : Stops p r) :
    takeRun p (w ++ r) = (w, r) := by
  have none : r.takeWhile p = [] ∧ r.dropWhile p = r := by
    cases r with
    | nil => simp
    | cons c r =>
        have h : p c = false := stops_cons.mp stops
        simp [h]
  rw [takeRun, List.takeWhile_append_of_pos member, List.dropWhile_append_of_pos member,
    none.1, none.2, List.append_nil]

theorem takeRun_eq_iff :
    takeRun p s = (w, r) ↔ s = w ++ r ∧ (∀ c ∈ w, p c = true) ∧ Stops p r := by
  constructor
  · intro h
    obtain ⟨rfl, rfl⟩ := Prod.mk.inj h
    refine ⟨List.takeWhile_append_dropWhile.symm, ?_, stops_dropWhile p s⟩
    exact List.all_eq_true.mp List.all_takeWhile
  · rintro ⟨rfl, member, stops⟩
    exact takeRun_append member stops

/-- Where two runs of one class end in the same text, they are the same run. -/
theorem run_split {v' r' : List Char} (member : ∀ c ∈ v, p c = true) (stops : Stops p r)
    (member' : ∀ c ∈ v', p c = true) (stops' : Stops p r') (same : v ++ r = v' ++ r') :
    v = v' ∧ r = r' := by
  have split := takeRun_append member stops
  rw [same, takeRun_append member' stops'] at split
  exact Prod.mk.inj split.symm

theorem takeRun1_eq_ok_iff {what : Expectation} {word : String} :
    takeRun1 p what s = .ok (word, r) ↔
      ∃ w, s = w ++ r ∧ Run p w ∧ Stops p r ∧ word = String.ofList w := by
  constructor
  · intro h
    rw [takeRun1] at h
    split at h
    · exact absurd h (unexpected_ne_ok _ _ _)
    · rename_i w r' inhabited split
      obtain ⟨rfl, rfl⟩ := Prod.mk.inj (Except.ok.inj h)
      obtain ⟨whole, member, stops⟩ := takeRun_eq_iff.mp split
      exact ⟨w, whole, ⟨inhabited, member⟩, stops, rfl⟩
  · rintro ⟨w, rfl, ⟨inhabited, member⟩, stops, rfl⟩
    rw [takeRun1, takeRun_append member stops]
    cases w with
    | nil => exact absurd rfl inhabited
    | cons c w => rfl

theorem takeRun1_append {what : Expectation} (run : Run p w) (stops : Stops p r) :
    takeRun1 p what (w ++ r) = .ok (String.ofList w, r) :=
  takeRun1_eq_ok_iff.mpr ⟨w, rfl, run, stops, rfl⟩

theorem skipBlanks_eq_iff :
    skipBlanks s = r ↔ ∃ w, s = w ++ r ∧ Blanks w ∧ Stops isBlank r := by
  constructor
  · rintro rfl
    obtain ⟨whole, member, stops⟩ := takeRun_eq_iff.mp (rfl : takeRun isBlank s = _)
    exact ⟨_, whole, member, stops⟩
  · rintro ⟨w, rfl, member, stops⟩
    exact congrArg Prod.snd (takeRun_append member stops)

theorem exists_blanks (s : List Char) : ∃ w, s = w ++ skipBlanks s ∧ Blanks w := by
  obtain ⟨w, whole, blank, -⟩ := skipBlanks_eq_iff.mp (rfl : skipBlanks s = _)
  exact ⟨w, whole, blank⟩

@[simp] theorem stops_skipBlanks (s : List Char) : Stops isBlank (skipBlanks s) :=
  stops_dropWhile isBlank s

theorem skipBlanks_blanks_append (blank : Blanks w) : skipBlanks (w ++ s) = skipBlanks s :=
  List.dropWhile_append_of_pos blank

theorem skipBlanks_of_stops (stops : Stops isBlank s) : skipBlanks s = s :=
  skipBlanks_eq_iff.mpr ⟨[], rfl, blanks_nil, stops⟩

@[simp] theorem require_eq_ok_iff : require c s = .ok r ↔ s = c :: r := by
  cases s with
  | nil => simp [require]
  | cons d s =>
      by_cases h : d = c
      · simp [require, h]
      · simp [require, h]

@[simp] theorem require_cons (c : Char) (s : List Char) : require c (c :: s) = .ok s :=
  require_eq_ok_iff.mpr rfl

end Runs

/-! ### Classes of characters -/

section Classes

variable {c : Char}

theorem isDigit_iff : isDigit c = true ↔ 48 ≤ c.toNat ∧ c.toNat ≤ 57 := by
  simp only [isDigit, Bool.and_eq_true, decide_eq_true_eq]
  exact Iff.rfl

theorem isTypeLetter_iff :
    isTypeLetter c = true ↔
      (97 ≤ c.toNat ∧ c.toNat ≤ 122) ∨ (65 ≤ c.toNat ∧ c.toNat ≤ 90) := by
  simp only [isTypeLetter, Bool.or_eq_true, Bool.and_eq_true, decide_eq_true_eq]
  exact Iff.rfl

theorem isNameChar_iff :
    isNameChar c = true ↔ isBlank c = false ∧ c ∉ ['{', '}', ',', '#', '\\', '='] := by
  simp [isNameChar, and_assoc]

theorem isNameChar_of_isBlank (blank : isBlank c = true) : isNameChar c = false := by
  simp [isNameChar, blank]

theorem isBlank_of_isDigit (digit : isDigit c = true) : isBlank c = false := by
  rw [isDigit_iff] at digit
  simp only [isBlank, Bool.or_eq_false_iff, Bool.and_eq_false_iff, decide_eq_false_iff_not,
    beq_eq_false_iff_ne]
  omega

theorem isDigit_of_isBlank (blank : isBlank c = true) : isDigit c = false := by
  cases digit : isDigit c with
  | false => rfl
  | true => exact absurd blank (by simp [isBlank_of_isDigit digit])

theorem isTypeLetter_of_isBlank (blank : isBlank c = true) : isTypeLetter c = false := by
  rw [Bool.eq_false_iff, ne_eq, isTypeLetter_iff]
  simp only [isBlank, Bool.or_eq_true, Bool.and_eq_true, decide_eq_true_eq, beq_iff_eq] at blank
  omega

end Classes

/-! ### Text -/

section Texts

variable {inPlural : Bool} {c : Char} {s r w text : List Char}

theorem hexValue?_lt {i : Nat} (h : hexValue? c = some i) : i < 16 := by
  have low (a b : Char) : (decide (a ≤ c) && decide (c ≤ b)) = true ↔
      a.toNat ≤ c.toNat ∧ c.toNat ≤ b.toNat := by
    simp only [Bool.and_eq_true, decide_eq_true_eq]
    exact Iff.rfl
  simp only [hexValue?, low, Char.reduceToNat] at h
  split at h
  · injection h with h
    omega
  split at h
  · injection h with h
    omega
  split at h
  · injection h with h
    omega
  · exact absurd h (by simp)

theorem hexNumber_lt {a b d e : Char} {i j k l : Nat} (first : hexValue? a = some i)
    (second : hexValue? b = some j) (third : hexValue? d = some k)
    (fourth : hexValue? e = some l) : ((i * 16 + j) * 16 + k) * 16 + l < 0x10000 := by
  have := hexValue?_lt first
  have := hexValue?_lt second
  have := hexValue?_lt third
  have := hexValue?_lt fourth
  omega

/-- Four hexadecimal digits denote a character unless they denote half of a pair. -/
theorem scalar?_eq_some_iff {n : Nat} (small : n < 0x10000) :
    scalar? n = some c ↔ ¬ (0xD800 ≤ n ∧ n ≤ 0xDFFF) ∧ c = Char.ofNat n := by
  have valid : n.isValidChar ↔ ¬ (0xD800 ≤ n ∧ n ≤ 0xDFFF) := by
    simp only [Nat.isValidChar]
    omega
  rw [← valid, scalar?]
  by_cases h : n.isValidChar
  · have same : Char.ofNatAux n h = Char.ofNat n := by
      rw [Char.ofNat, dif_pos h]
    rw [dif_pos h, same, Option.some.injEq, eq_comm]
    exact ⟨fun whole => ⟨h, whole⟩, And.right⟩
  · rw [dif_neg h]
    exact ⟨nofun, fun whole => absurd whole.1 h⟩

theorem endsText_eq_false_iff :
    endsText inPlural c = false ↔ c ≠ '{' ∧ c ≠ '}' ∧ (inPlural = true → c ≠ '#') := by
  cases inPlural <;> simp [endsText, and_assoc]

/-- What follows the letter of a numeric escape is four digits of a character. -/
theorem readHexEscape_eq_ok_iff :
    readHexEscape s = .ok (c, r) ↔
      ∃ w, s = w ++ r ∧ Glyph inPlural ('\\' :: 'u' :: w) c := by
  constructor
  · intro h
    rw [readHexEscape.eq_def] at h
    split at h
    · rename_i a b d e rest
      split at h
      · rename_i i j k l first second third fourth
        split at h
        · rename_i value found
          obtain ⟨rfl, rfl⟩ := Prod.mk.inj (Except.ok.inj h)
          obtain ⟨whole, rfl⟩ :=
            (scalar?_eq_some_iff (hexNumber_lt first second third fourth)).mp found
          exact ⟨[a, b, d, e], rfl, .scalar first second third fourth rfl whole⟩
        · exact absurd h (by simp)
      · exact absurd h (unexpected_ne_ok _ _ _)
    · exact absurd h (unexpected_ne_ok _ _ _)
  · rintro ⟨w, rfl, glyph⟩
    cases glyph with
    | escaped special => exact absurd special (by decide)
    | scalar first second third fourth number whole =>
        have small := hexNumber_lt first second third fourth
        have found := (scalar?_eq_some_iff (number ▸ small)).mpr ⟨whole, rfl⟩
        rw [number] at found
        simp [readHexEscape, first, second, third, fourth, found, number]

/-- An escape is read as the character that it denotes, whatever follows it. -/
theorem readEscape_eq_ok_iff :
    readEscape s = .ok (c, r) ↔ ∃ w, s = w ++ r ∧ Glyph inPlural ('\\' :: w) c := by
  have special_iff (d : Char) : isEscapable d = true ↔ d ∈ ['{', '}', '\\', '#'] := by
    simp [isEscapable, or_assoc]
  constructor
  · intro h
    rw [readEscape.eq_def] at h
    split at h
    · rename_i d rest
      split at h
      · rename_i special
        obtain ⟨rfl, rfl⟩ := Prod.mk.inj (Except.ok.inj h)
        exact ⟨[d], rfl, .escaped ((special_iff d).mp special)⟩
      split at h
      · rename_i letter
        obtain ⟨w, rfl, glyph⟩ := readHexEscape_eq_ok_iff.mp h
        exact ⟨d :: w, rfl, letter ▸ glyph⟩
      · exact absurd h (unexpected_ne_ok _ _ _)
    · exact absurd h (unexpected_ne_ok _ _ _)
  · rintro ⟨w, rfl, glyph⟩
    cases glyph with
    | plain ordinary => exact absurd (List.mem_of_elem_eq_true rfl) ordinary
    | escaped special => simp [readEscape, (special_iff c).mpr special]
    | scalar first second third fourth number whole =>
        have glyph : Glyph inPlural _ _ := .scalar first second third fourth number whole
        have read := readHexEscape_eq_ok_iff (r := r).mpr ⟨_, rfl, glyph⟩
        simpa [readEscape, isEscapable] using read

/-- A run of text ends where the remaining text begins. -/
def Interrupts (inPlural : Bool) (s : List Char) : Prop :=
  ∀ c ∈ s.head?, endsText inPlural c = true

@[simp] theorem interrupts_cons :
    Interrupts inPlural (c :: s) ↔ endsText inPlural c = true := by
  simp [Interrupts]

/-- A glyph is an ordinary character or starts with a backslash. -/
theorem Glyph.shape (h : Glyph inPlural w c) :
    (w = [c] ∧ endsText inPlural c = false ∧ c ≠ '\\') ∨ ∃ v, w = '\\' :: v := by
  cases h with
  | plain ordinary sign =>
      simp only [List.mem_cons, List.not_mem_nil, or_false, not_or] at ordinary
      exact .inl ⟨rfl, endsText_eq_false_iff.mpr ⟨ordinary.1, ordinary.2.1, sign⟩, ordinary.2.2⟩
  | escaped => exact .inr ⟨_, rfl⟩
  | scalar => exact .inr ⟨_, rfl⟩

theorem Glyph.of_plain (h : endsText inPlural c = false) (hc : c ≠ '\\') :
    Glyph inPlural [c] c := by
  obtain ⟨opening, closing, sign⟩ := endsText_eq_false_iff.mp h
  exact .plain (by simp [opening, closing, hc]) sign

/-- A run of text is read up to where it ends. The counter is large enough if it exceeds
the length of the text. -/
theorem readText_append {n : Nat} (enough : (w ++ r).length < n)
    (word : TextWord inPlural w text) (ends : Interrupts inPlural r) :
    readText inPlural n (w ++ r) = .ok (text, r) := by
  induction word generalizing n with
  | nil =>
      cases n with
      | zero => rfl
      | succ n =>
          cases r with
          | nil => rfl
          | cons c r => simp [readText, interrupts_cons.mp ends]
  | @cons v w text c first word ih =>
      cases n with
      | zero => exact absurd enough (Nat.not_lt_zero _)
      | succ n =>
          simp only [List.length_append] at enough
          rcases first.shape with ⟨rfl, ordinary, plain⟩ | ⟨v, rfl⟩
          · have rest : readText inPlural n (w ++ r) = .ok (text, r) := by
              refine ih ?_
              simp only [List.length_append, List.length_singleton] at enough ⊢
              omega
            simp [readText, ordinary, plain, rest]
          · have rest : readText inPlural n (w ++ r) = .ok (text, r) := by
              refine ih ?_
              simp only [List.length_append, List.length_cons] at enough ⊢
              omega
            have escape : readEscape (v ++ (w ++ r)) = .ok (c, w ++ r) :=
              readEscape_eq_ok_iff.mpr ⟨v, rfl, first⟩
            simp [readText, endsText, escape, rest]

theorem exists_textWord {n : Nat} (enough : s.length < n)
    (h : readText inPlural n s = .ok (text, r)) :
    ∃ w, s = w ++ r ∧ TextWord inPlural w text ∧ Interrupts inPlural r := by
  induction n generalizing s text with
  | zero => exact absurd enough (Nat.not_lt_zero _)
  | succ n ih =>
      cases s with
      | nil =>
          obtain ⟨rfl, rfl⟩ := Prod.mk.inj (Except.ok.inj h)
          exact ⟨[], rfl, .nil, by simp [Interrupts]⟩
      | cons c s =>
          rw [readText] at h
          split at h
          · rename_i special
            obtain ⟨rfl, rfl⟩ := Prod.mk.inj (Except.ok.inj h)
            exact ⟨[], rfl, .nil, interrupts_cons.mpr special⟩
          rename_i ordinary
          split at h
          · rename_i backslash
            subst backslash
            obtain ⟨⟨d, s'⟩, escape, h⟩ := bind_eq_ok_iff.mp h
            obtain ⟨⟨rest, r'⟩, run, h⟩ := bind_eq_ok_iff.mp h
            obtain ⟨rfl, rfl⟩ := Prod.mk.inj (Except.ok.inj h)
            obtain ⟨v, rfl, glyph⟩ := readEscape_eq_ok_iff.mp escape
            simp only [List.length_cons, List.length_append] at enough
            obtain ⟨w, rfl, word, ends⟩ := ih (by omega) run
            exact ⟨'\\' :: v ++ w, by simp, .cons glyph word, ends⟩
          · rename_i plain
            obtain ⟨⟨rest, r'⟩, run, h⟩ := bind_eq_ok_iff.mp h
            obtain ⟨rfl, rfl⟩ := Prod.mk.inj (Except.ok.inj h)
            obtain ⟨w, rfl, word, ends⟩ := ih (by simpa using enough) run
            exact ⟨c :: w, rfl,
              .cons (.of_plain (Bool.eq_false_iff.mpr ordinary) plain) word, ends⟩

/-- A run of text is as long as possible, and its escapes are undone. -/
theorem readText_eq_ok_iff {n : Nat} (enough : s.length < n) :
    readText inPlural n s = .ok (text, r) ↔
      ∃ w, s = w ++ r ∧ TextWord inPlural w text ∧ Interrupts inPlural r := by
  constructor
  · exact exists_textWord enough
  · rintro ⟨w, rfl, word, ends⟩
    exact readText_append enough word ends

end Texts

/-! ### Type words -/

theorem FormatKind.letters (kind : FormatKind) : Run isTypeLetter kind.word.toList := by
  cases kind <;> exact ⟨by decide, List.all_eq_true.mp (by decide)⟩

theorem PluralKind.letters (kind : PluralKind) : Run isTypeLetter kind.word.toList := by
  cases kind <;> exact ⟨by decide, List.all_eq_true.mp (by decide)⟩

theorem letters_select : Run isTypeLetter "select".toList :=
  ⟨by decide, List.all_eq_true.mp (by decide)⟩

theorem FormatKind.word_of_ofWord? {word : String} {kind : FormatKind}
    (h : FormatKind.ofWord? word = some kind) : word = kind.word := by
  unfold FormatKind.ofWord? at h
  split at h
  · cases h
    rfl
  · cases h
    rfl
  · cases h
    rfl
  · exact absurd h (by simp)

theorem PluralKind.word_of_ofWord? {word : String} {kind : PluralKind}
    (h : PluralKind.ofWord? word = some kind) : word = kind.word := by
  unfold PluralKind.ofWord? at h
  split at h
  · cases h
    rfl
  · cases h
    rfl
  · exact absurd h (by simp)

/-! ### Selectors and clauses -/

section Clauses

variable {s r v w : List Char}

theorem ofList_exact (digits : List Char) :
    "=" ++ String.ofList digits = String.ofList ('=' :: digits) := by
  rw [← String.toList_inj]
  simp

theorem exists_selectorWord {selector : String} (h : readSelector s = .ok (selector, r)) :
    ∃ w, s = w ++ r ∧ SelectorWord w ∧ selector = String.ofList w := by
  rw [readSelector.eq_def] at h
  split at h
  · obtain ⟨⟨digits, r'⟩, run, h⟩ := bind_eq_ok_iff.mp h
    obtain ⟨rfl, rfl⟩ := Prod.mk.inj (Except.ok.inj h)
    obtain ⟨w, rfl, number, -, rfl⟩ := takeRun1_eq_ok_iff.mp run
    exact ⟨'=' :: w, rfl, .exact number, ofList_exact w⟩
  · obtain ⟨w, rfl, name, -, rfl⟩ := takeRun1_eq_ok_iff.mp h
    exact ⟨w, rfl, .keyword name, rfl⟩

theorem readSelector_append (word : SelectorWord w) (number : Stops isDigit r)
    (name : Stops isNameChar r) : readSelector (w ++ r) = .ok (String.ofList w, r) := by
  cases word with
  | exact run =>
      rw [List.cons_append, readSelector, takeRun1_append run number, ok_bind]
      simp only [ofList_exact]
  | keyword run =>
      obtain ⟨inhabited, member⟩ := run
      cases w with
      | nil => exact absurd rfl inhabited
      | cons c w =>
          rw [readSelector.eq_def]
          split
          · rename_i equals
            obtain ⟨rfl, -⟩ := List.cons_eq_cons.mp equals
            exact absurd (member '=' List.mem_cons_self) (by decide)
          · exact takeRun1_append ⟨inhabited, member⟩ name

/-- The blanks behind a type word belong to the style clause, or without one to the end
of the argument. -/
theorem exists_styleClause {style : Option String}
    (h : readStyle (skipBlanks s) = .ok (style, r)) :
    ∃ w blanks, s = w ++ blanks ++ r ∧ StyleClause w style ∧ Blanks blanks := by
  obtain ⟨blanks, whole, blank⟩ := exists_blanks s
  rw [readStyle.eq_def] at h
  split at h
  · rename_i rest comma
    split at h
    rename_i raw rest' split
    obtain ⟨rfl, member, -⟩ := takeRun_eq_iff.mp split
    split at h
    · exact absurd h (unexpected_ne_ok _ _ _)
    · rename_i visible
      obtain ⟨rfl, rfl⟩ := Prod.mk.inj (Except.ok.inj h)
      refine ⟨blanks ++ ',' :: raw, [], ?_, .present blank ?_ visible, blanks_nil⟩
      · rw [whole, comma]
        simp
      · intro c hc
        simpa using member c hc
  · obtain ⟨rfl, rfl⟩ := Prod.mk.inj (Except.ok.inj h)
    exact ⟨[], blanks, whole, .absent, blank⟩

theorem readStyle_append {style : Option String} {blanks : List Char}
    (clause : StyleClause w style) (blank : Blanks blanks) :
    ∃ s, readStyle (skipBlanks (w ++ blanks ++ '}' :: r)) = .ok (style, s) ∧
      skipBlanks s = '}' :: r := by
  have closing : Stops isBlank ('}' :: r) := stops_cons.mpr (by decide)
  cases clause with
  | absent =>
      refine ⟨'}' :: r, ?_, skipBlanks_of_stops closing⟩
      rw [List.nil_append, skipBlanks_blanks_append blank, skipBlanks_of_stops closing]
      rfl
  | @present before raw blank' braceless visible =>
      refine ⟨'}' :: r, ?_, skipBlanks_of_stops closing⟩
      have comma : Stops isBlank (',' :: (raw ++ blanks ++ '}' :: r)) :=
        stops_cons.mpr (by decide)
      have member : ∀ c ∈ raw ++ blanks, (c != '{' && c != '}') = true := by
        intro c hc
        rcases List.mem_append.mp hc with hc | hc
        · simpa using braceless c hc
        · have visible (d : Char) (hd : isBlank d = false) : c ≠ d := by
            rintro rfl
            exact absurd (blank c hc) (by simp [hd])
          simp [visible '{' (by decide), visible '}' (by decide)]
      rw [List.append_assoc before, List.append_assoc before, skipBlanks_blanks_append blank',
        List.cons_append, List.cons_append, skipBlanks_of_stops comma, readStyle,
        takeRun_append member (by simp)]
      simp only [trimChars_append raw blank]

/-- The offset clause is judged by any part of what follows it. -/
theorem exists_offsetClause {offset : Int} (h : readOffset s = .ok (offset, r))
    (stops : Stops isBlank s) :
    ∃ v, s = v ++ r ∧ Stops isBlank r ∧ ∀ w, w <+: r → OffsetClause v offset w := by
  rw [readOffset] at h
  split at h
  · rename_i word
    obtain ⟨rest, rfl⟩ := List.isPrefixOf_iff_prefix.mp word
    obtain ⟨before, front, blank⟩ := exists_blanks rest
    rcases split : takeRun isDigit (skipBlanks rest) with ⟨digits, behind⟩
    simp only [List.drop_left, split] at h
    obtain ⟨whole, member, maximal⟩ := takeRun_eq_iff.mp split
    obtain ⟨after, back, blank'⟩ := exists_blanks behind
    split at h
    · exact absurd h (unexpected_ne_ok _ _ _)
    · rename_i small
      obtain ⟨rfl, rfl⟩ := Prod.mk.inj (Except.ok.inj h)
      simp only [Bool.or_eq_true, List.isEmpty_iff, decide_eq_true_eq, not_or, Nat.not_lt]
        at small
      refine ⟨offsetWord ++ before ++ digits ++ after, ?_, stops_skipBlanks behind, ?_⟩
      · simp only [List.append_assoc, ← back, ← whole, ← front]
      · rintro w ⟨t, rest⟩
        rw [back, ← rest, ← List.append_assoc] at maximal
        exact .present blank ⟨small.1, member⟩ small.2 blank' maximal.of_append
  · rename_i wordless
    obtain ⟨rfl, rfl⟩ := Prod.mk.inj (Except.ok.inj h)
    refine ⟨[], rfl, stops, fun w hw => .absent fun word => wordless ?_⟩
    exact List.isPrefixOf_iff_prefix.mpr (word.trans hw)

theorem readOffset_append {offset : Int} (clause : OffsetClause v offset w)
    (stops : Stops isBlank w) (brace : '{' ∈ w) :
    readOffset (v ++ w ++ r) = .ok (offset, w ++ r) := by
  have inhabited : w ≠ [] := List.ne_nil_of_mem brace
  cases clause with
  | absent wordless =>
      have : ¬ offsetWord.isPrefixOf (w ++ r) := by
        intro word
        rcases List.prefix_or_prefix_of_prefix (List.isPrefixOf_iff_prefix.mp word)
          (List.prefix_append w r) with word | short
        · exact wordless word
        · exact absurd (short.subset brace) (by decide)
      simp [readOffset, this]
  | @present before digits after _ blank number small blank' maximal =>
      have front : skipBlanks (before ++ (digits ++ (after ++ (w ++ r)))) =
          digits ++ (after ++ (w ++ r)) := by
        rw [skipBlanks_blanks_append blank]
        exact skipBlanks_of_stops ((number.stops fun _ => isBlank_of_isDigit).append number.1)
      have split : takeRun isDigit (digits ++ (after ++ (w ++ r))) =
          (digits, after ++ (w ++ r)) := by
        refine takeRun_append number.2 ?_
        rw [← List.append_assoc]
        exact maximal.append (by simp [inhabited])
      have back : skipBlanks (after ++ (w ++ r)) = w ++ r := by
        rw [skipBlanks_blanks_append blank', skipBlanks_of_stops (stops.append inhabited)]
      have word : offsetWord.isPrefixOf
          (offsetWord ++ (before ++ (digits ++ (after ++ (w ++ r))))) = true :=
        List.isPrefixOf_iff_prefix.mpr (List.prefix_append _ _)
      simp [readOffset, word, front, split, back, number.1, Nat.not_lt.mpr small]

end Clauses

end Message

end MessageCatalog
