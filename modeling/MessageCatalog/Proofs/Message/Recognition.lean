import MessageCatalog.Proofs.Message.Tokens

/-!
# The reader recognises the grammar

A counter above the length of the text is never used up, so with such a counter each
mutual reader succeeds exactly on the words of its judgement. `Recognizes n` states this
for all of them at the counter `n`; each reader hands on a counter lowered by one and a
shorter text, and the induction is on the counter.

What a reader leaves unread tells its judgements apart. A message ends with the text or
before a closing brace, and an argument includes its closing brace. The body of an
argument and its branches are judged with the blanks and the brace behind them, because
a style takes those blanks with it and the branches do not.
-/

namespace MessageCatalog

namespace Message

open Text

/-- The text is at its end or goes on with a closing brace. -/
def Closes (s : List Char) : Prop :=
  ∀ c ∈ s.head?, c = '}'

/-- The selectors are pairwise distinct and none has been seen before. -/
def Fresh (seen : List String) (options : List Branch) : Prop :=
  (options.map Branch.selector).Nodup ∧ ∀ option ∈ options, option.selector ∉ seen

/-- With the counter `n`, the readers recognise exactly the words of the grammar in all
texts that are shorter than `n`. -/
structure Recognizes (n : Nat) : Prop where
  message : ∀ {inPlural : Bool} {s r : List Char} {message : Message}, s.length < n →
    (readMessage inPlural n s = .ok (message, r) ↔
      ∃ w, s = w ++ r ∧ MessageWord inPlural w message ∧ Closes r)
  argument : ∀ {inPlural : Bool} {s r : List Char} {element : Element}, s.length < n →
    (readArgument inPlural n s = .ok (element, r) ↔
      ∃ w, s = w ++ '}' :: r ∧ ArgumentWord inPlural w element)
  body : ∀ {inPlural : Bool} {name : String} {s r : List Char} {element : Element},
    s.length < n →
    ((∃ t, readBody inPlural n name s = .ok (element, t) ∧ skipBlanks t = '}' :: r) ↔
      ∃ w blanks, s = w ++ blanks ++ '}' :: r ∧ BodyWord inPlural name w element ∧
        Blanks blanks)
  options : ∀ {inPlural : Bool} {seen : List String} {s r : List Char}
    {options : List Branch}, s.length < n →
    ((∃ t, readOptions inPlural n seen s = .ok (options, t) ∧ skipBlanks t = '}' :: r) ↔
      ∃ blanks w, s = blanks ++ w ++ '}' :: r ∧ Blanks blanks ∧
        OptionsWord inPlural w options ∧ Fresh seen options ∧ (seen = [] → options ≠ []))

section Words

variable {inPlural : Bool} {v w r text : List Char} {message : Message}

@[simp] theorem fresh_nil (seen : List String) : Fresh seen [] := by
  simp [Fresh]

/-- A branch is fresh if its selector is, and the branches behind it may not use the
selector again. -/
theorem fresh_cons {seen : List String} {option : Branch} {options : List Branch} :
    Fresh seen (option :: options) ↔
      option.selector ∉ seen ∧ Fresh (option.selector :: seen) options := by
  simp only [Fresh, List.map_cons, List.nodup_cons, List.mem_map, List.mem_cons,
    forall_eq_or_imp, not_exists, not_and, not_or]
  constructor
  · rintro ⟨⟨other, distinct⟩, new, rest⟩
    exact ⟨new, distinct, fun option' here => ⟨other option' here, rest option' here⟩⟩
  · rintro ⟨new, distinct, rest⟩
    exact ⟨⟨fun option' here => (rest option' here).1, distinct⟩, new,
      fun option' here => (rest option' here).2⟩

@[simp] theorem closes_cons {c : Char} : Closes (c :: r) ↔ c = '}' := by
  simp [Closes]

theorem TextWord.head (h : TextWord inPlural v text) (inhabited : text ≠ []) :
    ∃ c s, v = c :: s ∧ endsText inPlural c = false := by
  cases h with
  | nil => exact absurd rfl inhabited
  | cons first rest =>
      rcases first.shape with ⟨rfl, ordinary, -⟩ | ⟨s, rfl⟩
      · exact ⟨_, _, rfl, ordinary⟩
      · exact ⟨'\\', _, rfl, by simp [endsText]⟩

/-- Text that starts with an ordinary character has a first character, because it is as long
as possible. -/
theorem TextWord.inhabited {s : List Char} {c : Char} (h : TextWord inPlural v text)
    (whole : c :: s = v ++ r) (interrupts : Interrupts inPlural r)
    (ordinary : endsText inPlural c = false) : text ≠ [] := by
  rintro rfl
  cases h
  rw [List.nil_append] at whole
  rw [← whole, interrupts_cons, ordinary] at interrupts
  exact absurd interrupts (by simp)

/-- Text ends in front of a message that does not start with text. -/
theorem MessageWord.interrupts (h : MessageWord inPlural w message) (bare : StartsBare message)
    (closes : Closes r) : Interrupts inPlural (w ++ r) := by
  cases h with
  | nil =>
      intro c hc
      rw [closes c hc]
      simp [endsText]
  | text => exact absurd (bare _ rfl) (by simp [Element.isLiteral])
  | pound => simp [endsText]
  | argument => simp [endsText]

theorem ArgumentWord.isLiteral {element : Element} (h : ArgumentWord inPlural w element) :
    element.isLiteral = false := by
  cases h with
  | plain => rfl
  | typed _ _ _ _ body => cases body <;> rfl

theorem MessageWord.startsBare (h : MessageWord inPlural w message)
    (interrupts : Interrupts inPlural (w ++ r)) : StartsBare message := by
  cases h with
  | nil => simp [StartsBare]
  | text run inhabited =>
      obtain ⟨c, s, rfl, ordinary⟩ := run.head inhabited
      rw [List.cons_append, List.cons_append, interrupts_cons, ordinary] at interrupts
      exact absurd interrupts (by simp)
  | pound => simp [StartsBare, Element.isLiteral]
  | argument inside =>
      intro element here
      obtain rfl := Option.some.inj here
      exact inside.isLiteral

theorem SelectorWord.head (h : SelectorWord w) :
    ∃ c s, w = c :: s ∧ c ≠ '}' ∧ isBlank c = false := by
  cases h with
  | exact => exact ⟨'=', _, rfl, by decide, by decide⟩
  | keyword run =>
      obtain ⟨inhabited, member⟩ := run
      cases w with
      | nil => exact absurd rfl inhabited
      | cons c s =>
          have name := isNameChar_iff.mp (member c List.mem_cons_self)
          refine ⟨c, s, rfl, ?_, name.1⟩
          rintro rfl
          exact name.2 (by simp)

/-- The type word is in front, and no type word starts with a blank. -/
theorem BodyWord.stops {name : String} {element : Element}
    (h : BodyWord inPlural name w element) : Stops isBlank (w ++ r) := by
  cases h with
  | @formatted _ _ kind => cases kind <;> exact stops_cons.mpr (by decide)
  | @plural _ _ kind => cases kind <;> exact stops_cons.mpr (by decide)
  | select => exact stops_cons.mpr (by decide)

theorem OptionsWord.stops {options : List Branch} (h : OptionsWord inPlural w options)
    (inhabited : options ≠ []) : Stops isBlank w := by
  cases h with
  | nil => exact absurd rfl inhabited
  | cons word =>
      obtain ⟨c, s, rfl, -, visible⟩ := word.head
      simpa using visible

/-- Blanks behind branches belong to the last of them. -/
theorem OptionsWord.append_blanks {options : List Branch} {blanks : List Char}
    (h : OptionsWord inPlural w options) (inhabited : options ≠ []) (blank : Blanks blanks) :
    OptionsWord inPlural (w ++ blanks) options := by
  induction options generalizing w with
  | nil => exact absurd rfl inhabited
  | cons option options ih =>
      cases h with
      | @cons _ selector before v after w _ _ word blank' inside blank'' rest =>
          cases options with
          | nil =>
              cases rest
              have longer := OptionsWord.cons word blank' inside (blank''.append blank) .nil
              simpa only [List.append_nil, List.append_assoc, List.cons_append] using longer
          | cons next options =>
              have longer := OptionsWord.cons word blank' inside blank''
                (ih rest (List.cons_ne_nil _ _))
              simpa only [List.append_assoc, List.cons_append] using longer

theorem OffsetClause.stops {offset : Int} (h : OffsetClause v offset w)
    (stops : Stops isBlank (w ++ r)) : Stops isBlank (v ++ (w ++ r)) := by
  cases h with
  | absent => exact stops
  | present => exact stops_cons.mpr (by decide)

theorem OptionsWord.brace_mem {options : List Branch} (h : OptionsWord inPlural w options)
    (inhabited : options ≠ []) : '{' ∈ w := by
  cases h with
  | nil => exact absurd rfl inhabited
  | cons => simp

end Words

/-! ### One round of each reader -/

namespace Recognizes

variable {n : Nat} {inPlural : Bool} {s r : List Char}

/-- The round that starts with an ordinary character takes the whole run of text. -/
theorem readMessage_text {c : Char} (ordinary : endsText inPlural c = false) :
    readMessage inPlural (n + 1) (c :: s) = (do
      let (text, s) ← readText inPlural (n + 1) (c :: s)
      let (message, s) ← readMessage inPlural n s
      .ok (.literal (String.ofList text) :: message, s)) := by
  obtain ⟨notOpening, notClosing, notSign⟩ := endsText_eq_false_iff.mp ordinary
  have noSign : ¬ (c = '#' ∧ inPlural = true) := fun h => notSign h.2 h.1
  simp only [readMessage, notOpening, notClosing, Bool.and_eq_true, decide_eq_true_eq, noSign,
    if_false]

theorem text_sound (ih : Recognizes n) {c : Char} {message : Message}
    (enough : (c :: s).length < n + 1) (ordinary : endsText inPlural c = false)
    (h : readMessage inPlural (n + 1) (c :: s) = .ok (message, r)) :
    ∃ w, c :: s = w ++ r ∧ MessageWord inPlural w message ∧ Closes r := by
  rw [readMessage_text ordinary] at h
  obtain ⟨⟨text, t⟩, run, h⟩ := bind_eq_ok_iff.mp h
  obtain ⟨⟨rest, r'⟩, more, h⟩ := bind_eq_ok_iff.mp h
  obtain ⟨rfl, rfl⟩ := Prod.mk.inj (Except.ok.inj h)
  obtain ⟨v, whole, glyphs, interrupts⟩ := (readText_eq_ok_iff enough).mp run
  have inhabited := glyphs.inhabited whole interrupts ordinary
  obtain ⟨d, v', rfl, -⟩ := glyphs.head inhabited
  have shorter : t.length < n := by
    have := congrArg List.length whole
    simp only [List.length_cons, List.length_append] at this enough
    omega
  obtain ⟨w, rfl, word, closes⟩ := (ih.message shorter).mp more
  refine ⟨d :: v' ++ w, by simp [whole], ?_, closes⟩
  exact .text glyphs inhabited word (word.startsBare interrupts)

theorem text_complete (ih : Recognizes n) {v w text : List Char} {message : Message}
    (enough : (v ++ w ++ r).length < n + 1) (glyphs : TextWord inPlural v text)
    (inhabited : text ≠ []) (word : MessageWord inPlural w message) (bare : StartsBare message)
    (closes : Closes r) :
    readMessage inPlural (n + 1) (v ++ w ++ r) =
      .ok (.literal (String.ofList text) :: message, r) := by
  have run := (readText_eq_ok_iff enough).mpr
    ⟨v, List.append_assoc _ _ _, glyphs, word.interrupts bare closes⟩
  obtain ⟨c, v', rfl, ordinary⟩ := glyphs.head inhabited
  have more : readMessage inPlural n (w ++ r) = .ok (message, r) := by
    refine (ih.message ?_).mpr ⟨w, rfl, word, closes⟩
    simp only [List.length_append, List.length_cons] at enough ⊢
    omega
  simp only [List.cons_append, List.append_assoc] at run ⊢
  rw [readMessage_text ordinary, run, ok_bind]
  simp only [more, ok_bind]

theorem message_sound (ih : Recognizes n) {message : Message} (enough : s.length < n + 1)
    (h : readMessage inPlural (n + 1) s = .ok (message, r)) :
    ∃ w, s = w ++ r ∧ MessageWord inPlural w message ∧ Closes r := by
  cases s with
  | nil =>
      obtain ⟨rfl, rfl⟩ := Prod.mk.inj (Except.ok.inj h)
      exact ⟨[], rfl, .nil, by simp [Closes]⟩
  | cons c s =>
      by_cases ordinary : endsText inPlural c = false
      · exact ih.text_sound enough ordinary h
      · have enough' : s.length < n := by simpa using enough
        rw [readMessage] at h
        split at h
        · rename_i closing
          obtain ⟨rfl, rfl⟩ := Prod.mk.inj (Except.ok.inj h)
          exact ⟨[], rfl, .nil, closes_cons.mpr closing⟩
        rename_i notClosing
        split at h
        · rename_i opening
          obtain ⟨⟨element, t⟩, read, h⟩ := bind_eq_ok_iff.mp h
          obtain ⟨⟨rest, r'⟩, more, h⟩ := bind_eq_ok_iff.mp h
          obtain ⟨rfl, rfl⟩ := Prod.mk.inj (Except.ok.inj h)
          obtain ⟨v, rfl, inside⟩ := (ih.argument enough').mp read
          simp only [List.length_append, List.length_cons] at enough'
          obtain ⟨w, rfl, word, closes⟩ := (ih.message (by omega)).mp more
          exact ⟨'{' :: v ++ '}' :: w, by simp [opening], .argument inside word, closes⟩
        rename_i notOpening
        -- Neither brace is left, so the character is a number sign that ends text.
        obtain ⟨rfl, rfl⟩ : inPlural = true ∧ c = '#' := by
          simpa [endsText, notOpening, notClosing] using ordinary
        obtain ⟨⟨rest, r'⟩, more, h⟩ := bind_eq_ok_iff.mp h
        obtain ⟨rfl, rfl⟩ := Prod.mk.inj (Except.ok.inj h)
        obtain ⟨w, rfl, word, closes⟩ := (ih.message enough').mp more
        exact ⟨'#' :: w, rfl, .pound word, closes⟩

theorem message_complete (ih : Recognizes n) {w : List Char} {message : Message}
    (enough : (w ++ r).length < n + 1) (word : MessageWord inPlural w message)
    (closes : Closes r) : readMessage inPlural (n + 1) (w ++ r) = .ok (message, r) := by
  cases word with
  | nil =>
      cases r with
      | nil => rfl
      | cons c r => simp [readMessage, closes_cons.mp closes]
  | text glyphs inhabited word bare =>
      exact ih.text_complete enough glyphs inhabited word bare closes
  | pound word =>
      have more := (ih.message (by simpa using enough)).mpr ⟨_, rfl, word, closes⟩
      simp [readMessage, more]
  | @argument _ v w element rest inside word =>
      simp only [List.append_assoc, List.cons_append, List.length_cons, List.length_append]
        at enough ⊢
      have read : readArgument inPlural n (v ++ '}' :: (w ++ r)) = .ok (element, w ++ r) := by
        refine (ih.argument ?_).mpr ⟨v, rfl, inside⟩
        simp only [List.length_append, List.length_cons]
        omega
      have more : readMessage inPlural n (w ++ r) = .ok (rest, r) := by
        refine (ih.message ?_).mpr ⟨w, rfl, word, closes⟩
        simp only [List.length_append]
        omega
      simp [readMessage, read, more]

theorem message_succ (ih : Recognizes n) {message : Message} (enough : s.length < n + 1) :
    readMessage inPlural (n + 1) s = .ok (message, r) ↔
      ∃ w, s = w ++ r ∧ MessageWord inPlural w message ∧ Closes r := by
  constructor
  · exact ih.message_sound enough
  · rintro ⟨w, rfl, word, closes⟩
    exact ih.message_complete enough word closes

/-- A name with blanks in front of it. -/
theorem readName_eq_ok_iff {what : Expectation} {name : String} :
    takeRun1 isNameChar what (skipBlanks s) = .ok (name, r) ↔
      ∃ blanks w, s = blanks ++ w ++ r ∧ Blanks blanks ∧ Run isNameChar w ∧
        Stops isNameChar r ∧ name = String.ofList w := by
  rw [takeRun1_eq_ok_iff]
  constructor
  · rintro ⟨w, whole, run, stops, rfl⟩
    obtain ⟨blanks, front, blank⟩ := exists_blanks s
    exact ⟨blanks, w, by rw [List.append_assoc, ← whole, ← front], blank, run, stops, rfl⟩
  · rintro ⟨blanks, w, rfl, blank, run, stops, rfl⟩
    refine ⟨w, ?_, run, stops, rfl⟩
    have visible : Stops isBlank w := run.stops fun c hc => (isNameChar_iff.mp hc).1
    rw [List.append_assoc, skipBlanks_blanks_append blank,
      skipBlanks_of_stops (visible.append run.1)]

theorem argument_sound (ih : Recognizes n) {element : Element} (enough : s.length < n + 1)
    (h : readArgument inPlural (n + 1) s = .ok (element, r)) :
    ∃ w, s = w ++ '}' :: r ∧ ArgumentWord inPlural w element := by
  rw [readArgument] at h
  obtain ⟨⟨name, t⟩, read, h⟩ := bind_eq_ok_iff.mp h
  obtain ⟨before, w, rfl, blank, run, -, rfl⟩ := readName_eq_ok_iff.mp read
  obtain ⟨after, back, blank'⟩ := exists_blanks t
  simp only at h
  split at h
  · rename_i rest closing
    obtain ⟨rfl, rfl⟩ := Prod.mk.inj (Except.ok.inj h)
    rw [closing] at back
    subst back
    exact ⟨before ++ w ++ after, by simp, .plain blank run blank'⟩
  · rename_i rest comma
    obtain ⟨⟨element', t'⟩, inside, h⟩ := bind_eq_ok_iff.mp h
    obtain ⟨r', closing, h⟩ := bind_eq_ok_iff.mp h
    obtain ⟨rfl, rfl⟩ := Prod.mk.inj (Except.ok.inj h)
    rw [comma] at back
    subst back
    obtain ⟨front, whole, blank''⟩ := exists_blanks rest
    have shorter : (skipBlanks rest).length < n := by
      have := congrArg List.length whole
      simp only [List.length_append, List.length_cons] at this enough
      omega
    obtain ⟨v, blanks, body, word, trailing⟩ :=
      (ih.body shorter).mp ⟨t', inside, require_eq_ok_iff.mp closing⟩
    refine ⟨before ++ w ++ after ++ ',' :: front ++ v ++ blanks, ?_,
      .typed blank run blank' blank'' word trailing⟩
    rw [whole, body]
    simp
  · exact absurd h (unexpected_ne_ok _ _ _)

/-- A name is read with the blanks around it, up to the mark behind it. -/
theorem readName_append {before name after t : List Char} {c : Char} (blank : Blanks before)
    (run : Run isNameChar name) (blank' : Blanks after) (mark : c ∈ ['}', ',']) :
    takeRun1 isNameChar .argumentName (skipBlanks (before ++ name ++ after ++ c :: t)) =
        .ok (String.ofList name, after ++ c :: t) ∧
      skipBlanks (after ++ c :: t) = c :: t := by
  have outside : isNameChar c = false ∧ isBlank c = false := by
    simp only [List.mem_cons, List.not_mem_nil, or_false] at mark
    rcases mark with rfl | rfl <;> exact ⟨rfl, rfl⟩
  constructor
  · refine readName_eq_ok_iff.mpr ⟨before, name, by simp, blank, run, ?_, rfl⟩
    exact (stops_cons.mpr outside.1).blanks_append (fun _ => isNameChar_of_isBlank) blank'
  · rw [skipBlanks_blanks_append blank']
    exact skipBlanks_of_stops (stops_cons.mpr outside.2)

theorem argument_complete (ih : Recognizes n) {w : List Char} {element : Element}
    (enough : (w ++ '}' :: r).length < n + 1) (word : ArgumentWord inPlural w element) :
    readArgument inPlural (n + 1) (w ++ '}' :: r) = .ok (element, r) := by
  cases word with
  | plain blank run blank' =>
      obtain ⟨read, closing⟩ := readName_append (t := r) blank run blank'
        (c := '}') List.mem_cons_self
      simp only [readArgument, read, ok_bind, closing]
  | @typed _ before name after front v back element blank run blank' blank'' body trailing =>
      simp only [List.append_assoc before, List.append_assoc name, List.append_assoc after,
        List.cons_append] at enough ⊢
      obtain ⟨read, comma⟩ := readName_append (t := front ++ (v ++ back ++ '}' :: r)) blank run
        blank' (c := ',') (List.mem_cons_of_mem _ List.mem_cons_self)
      have inside : skipBlanks (front ++ (v ++ back ++ '}' :: r)) = v ++ back ++ '}' :: r := by
        rw [skipBlanks_blanks_append blank'', List.append_assoc]
        exact skipBlanks_of_stops body.stops
      have shorter : (v ++ back ++ '}' :: r).length < n := by
        simp only [List.length_append, List.length_cons] at enough ⊢
        omega
      obtain ⟨t, rest, closing⟩ := (ih.body shorter).mpr ⟨v, back, rfl, body, trailing⟩
      simp only [List.append_assoc] at read comma inside rest ⊢
      simp only [readArgument, read, ok_bind, comma, inside, rest, closing, require_cons]

theorem argument_succ (ih : Recognizes n) {element : Element} (enough : s.length < n + 1) :
    readArgument inPlural (n + 1) s = .ok (element, r) ↔
      ∃ w, s = w ++ '}' :: r ∧ ArgumentWord inPlural w element := by
  constructor
  · exact ih.argument_sound enough
  · rintro ⟨w, rfl, word⟩
    exact ih.argument_complete enough word

/-- The body of an argument starts with one of the type words, or it is refused at once. -/
theorem typeWord_cases (inPlural : Bool) (n : Nat) (name : String) (s : List Char) :
    readBody inPlural (n + 1) name s = unexpected .argumentType s ∨
      ∃ t, Stops isTypeLetter t ∧
        ((∃ kind : FormatKind, s = kind.word.toList ++ t) ∨
          (∃ kind : PluralKind, s = kind.word.toList ++ t) ∨ s = "select".toList ++ t) := by
  rcases split : takeRun isTypeLetter s with ⟨letters, t⟩
  obtain ⟨rfl, -, stops⟩ := takeRun_eq_iff.mp split
  have spelled {word : String} (h : String.ofList letters = word) : letters = word.toList := by
    rw [← h, String.toList_ofList]
  simp only [readBody, split]
  split
  · rename_i kind word
    exact .inr ⟨t, stops, .inl ⟨kind, by rw [spelled (FormatKind.word_of_ofWord? word)]⟩⟩
  · rename_i kind _ word
    exact .inr ⟨t, stops,
      .inr (.inl ⟨kind, by rw [spelled (PluralKind.word_of_ofWord? word)]⟩)⟩
  · split
    · rename_i word
      exact .inr ⟨t, stops, .inr (.inr (by rw [spelled word]))⟩
    · exact .inl rfl

theorem exists_typeWord {name : String} {element : Element}
    (h : readBody inPlural (n + 1) name s = .ok (element, r)) :
    ∃ t, Stops isTypeLetter t ∧
      ((∃ kind : FormatKind, s = kind.word.toList ++ t) ∨
        (∃ kind : PluralKind, s = kind.word.toList ++ t) ∨ s = "select".toList ++ t) := by
  refine (typeWord_cases inPlural n name s).resolve_left fun refused => ?_
  exact absurd (refused.symm.trans h) (unexpected_ne_ok _ _ _)

theorem readBody_formatted {name : String} (kind : FormatKind) (stops : Stops isTypeLetter s) :
    readBody inPlural (n + 1) name (kind.word.toList ++ s) = (do
      let (style, s) ← readStyle (skipBlanks s)
      .ok (.formatted name kind style, s)) := by
  simp only [readBody, takeRun_append kind.letters.2 stops, String.ofList_toList,
    FormatKind.ofWord?_word]

theorem readBody_plural {name : String} (kind : PluralKind) (stops : Stops isTypeLetter s) :
    readBody inPlural (n + 1) name (kind.word.toList ++ s) = (do
      let s ← require ',' (skipBlanks s)
      let (offset, s) ← readOffset (skipBlanks s)
      let (options, s) ← readOptions true n [] s
      .ok (.plural name kind offset options, s)) := by
  have branching : FormatKind.ofWord? kind.word = none := by
    cases kind <;> rfl
  simp only [readBody, takeRun_append kind.letters.2 stops, String.ofList_toList, branching,
    PluralKind.ofWord?_word]

theorem readBody_select {name : String} (stops : Stops isTypeLetter s) :
    readBody inPlural (n + 1) name ("select".toList ++ s) = (do
      let s ← require ',' (skipBlanks s)
      let (options, s) ← readOptions inPlural n [] s
      .ok (.select name options, s)) := by
  have unformatted : FormatKind.ofWord? "select" = none := rfl
  have uncounted : PluralKind.ofWord? "select" = none := rfl
  simp only [readBody, takeRun_append letters_select.2 stops, String.ofList_toList, unformatted,
    uncounted, if_true]

/-- The comma after the type word of a branching argument, with the blanks in front. -/
theorem require_comma_iff :
    require ',' (skipBlanks s) = .ok r ↔ ∃ blanks, s = blanks ++ ',' :: r ∧ Blanks blanks := by
  rw [require_eq_ok_iff, skipBlanks_eq_iff]
  constructor
  · rintro ⟨blanks, whole, blank, -⟩
    exact ⟨blanks, whole, blank⟩
  · rintro ⟨blanks, whole, blank⟩
    exact ⟨blanks, whole, blank, stops_cons.mpr (by decide)⟩

/-- All branches of an argument are read, together with the blanks around them. -/
theorem readOptions_append (ih : Recognizes n) {before w blanks : List Char}
    {options : List Branch} (blank : Blanks before) (word : OptionsWord inPlural w options)
    (inhabited : options ≠ []) (distinct : (options.map Branch.selector).Nodup)
    (blank' : Blanks blanks)
    (enough : (before ++ (w ++ (blanks ++ '}' :: r))).length < n) :
    ∃ t, readOptions inPlural n [] (before ++ (w ++ (blanks ++ '}' :: r))) = .ok (options, t) ∧
      skipBlanks t = '}' :: r := by
  refine (ih.options enough).mpr ⟨before, w ++ blanks, by simp, blank,
    word.append_blanks inhabited blank', ⟨distinct, ?_⟩, fun _ => inhabited⟩
  intro option _
  exact List.not_mem_nil

theorem formatted_sound {name : String} {kind : FormatKind} {element : Element}
    {t u : List Char} (stops : Stops isTypeLetter u)
    (h : readBody inPlural (n + 1) name (kind.word.toList ++ u) = .ok (element, t))
    (closing : skipBlanks t = '}' :: r) :
    ∃ w blanks, kind.word.toList ++ u = w ++ blanks ++ '}' :: r ∧
      BodyWord inPlural name w element ∧ Blanks blanks := by
  rw [readBody_formatted kind stops] at h
  obtain ⟨⟨style, t'⟩, read, h⟩ := bind_eq_ok_iff.mp h
  obtain ⟨rfl, rfl⟩ := Prod.mk.inj (Except.ok.inj h)
  obtain ⟨w, blanks, rfl, clause, blank⟩ := exists_styleClause read
  obtain ⟨blanks', rest, blank'⟩ := exists_blanks t'
  rw [closing] at rest
  exact ⟨kind.word.toList ++ w, blanks ++ blanks', by simp [rest], .formatted clause,
    blank.append blank'⟩

theorem plural_sound (ih : Recognizes n) {name : String} {kind : PluralKind}
    {element : Element} {t u : List Char} (enough : (kind.word.toList ++ u).length < n + 1)
    (stops : Stops isTypeLetter u)
    (h : readBody inPlural (n + 1) name (kind.word.toList ++ u) = .ok (element, t))
    (closing : skipBlanks t = '}' :: r) :
    ∃ w blanks, kind.word.toList ++ u = w ++ blanks ++ '}' :: r ∧
      BodyWord inPlural name w element ∧ Blanks blanks := by
  rw [readBody_plural kind stops] at h
  obtain ⟨s₁, comma, h⟩ := bind_eq_ok_iff.mp h
  obtain ⟨⟨offset, s₂⟩, read, h⟩ := bind_eq_ok_iff.mp h
  obtain ⟨⟨options, s₃⟩, more, h⟩ := bind_eq_ok_iff.mp h
  obtain ⟨rfl, rfl⟩ := Prod.mk.inj (Except.ok.inj h)
  obtain ⟨before, rfl, blank⟩ := require_comma_iff.mp comma
  obtain ⟨after, whole, blank'⟩ := exists_blanks s₁
  obtain ⟨v, front, visible, clause⟩ := exists_offsetClause read (stops_skipBlanks s₁)
  have shorter : s₂.length < n := by
    have := congrArg List.length whole
    have := congrArg List.length front
    simp only [List.length_append, List.length_cons] at *
    omega
  obtain ⟨none, w, rfl, noBlank, word, fresh, inhabited⟩ :=
    (ih.options shorter).mp ⟨s₃, more, closing⟩
  rw [List.append_assoc] at visible
  obtain rfl := noBlank.eq_nil visible
  refine ⟨kind.word.toList ++ before ++ ',' :: after ++ v ++ w, [], ?_,
    .plural blank blank' (clause w ?_) word (inhabited rfl) fresh.1, blanks_nil⟩
  · rw [whole, front]
    simp
  · rw [List.nil_append]
    exact List.prefix_append _ _

theorem select_sound (ih : Recognizes n) {name : String} {element : Element}
    {t u : List Char} (enough : ("select".toList ++ u).length < n + 1)
    (stops : Stops isTypeLetter u)
    (h : readBody inPlural (n + 1) name ("select".toList ++ u) = .ok (element, t))
    (closing : skipBlanks t = '}' :: r) :
    ∃ w blanks, "select".toList ++ u = w ++ blanks ++ '}' :: r ∧
      BodyWord inPlural name w element ∧ Blanks blanks := by
  rw [readBody_select stops] at h
  obtain ⟨s₁, comma, h⟩ := bind_eq_ok_iff.mp h
  obtain ⟨⟨options, s₃⟩, more, h⟩ := bind_eq_ok_iff.mp h
  obtain ⟨rfl, rfl⟩ := Prod.mk.inj (Except.ok.inj h)
  obtain ⟨before, rfl, blank⟩ := require_comma_iff.mp comma
  have shorter : s₁.length < n := by
    simp only [List.length_append, List.length_cons] at enough
    omega
  obtain ⟨after, w, rfl, blank', word, fresh, inhabited⟩ :=
    (ih.options shorter).mp ⟨s₃, more, closing⟩
  exact ⟨"select".toList ++ before ++ ',' :: after ++ w, [], by simp,
    .select blank blank' word (inhabited rfl) fresh.1, blanks_nil⟩

/-- A type word ends at the next mark, whatever blanks are in between. -/
theorem stops_typeLetters {before t : List Char} {c : Char} (blank : Blanks before)
    (mark : isTypeLetter c = false) : Stops isTypeLetter (before ++ c :: t) :=
  (stops_cons.mpr mark).blanks_append (fun _ => isTypeLetter_of_isBlank) blank

theorem formatted_complete {name : String} {kind : FormatKind} {w blanks : List Char}
    {style : Option String} (clause : StyleClause w style) (blank : Blanks blanks) :
    ∃ t, readBody inPlural (n + 1) name (kind.word.toList ++ w ++ blanks ++ '}' :: r) =
        .ok (.formatted name kind style, t) ∧ skipBlanks t = '}' :: r := by
  obtain ⟨t, read, closing⟩ := readStyle_append (r := r) clause blank
  have stops : Stops isTypeLetter (w ++ blanks ++ '}' :: r) := by
    cases clause with
    | absent => exact stops_typeLetters blank (by decide)
    | present blank' =>
        simp only [List.append_assoc, List.cons_append]
        exact stops_typeLetters blank' (by decide)
  refine ⟨t, ?_, closing⟩
  rw [List.append_assoc, List.append_assoc, ← List.append_assoc w,
    readBody_formatted kind stops, read, ok_bind]

theorem plural_complete (ih : Recognizes n) {name : String} {kind : PluralKind}
    {before after v w blanks : List Char} {offset : Int} {options : List Branch}
    (enough : (w ++ (blanks ++ '}' :: r)).length < n) (blank : Blanks before)
    (blank' : Blanks after) (clause : OffsetClause v offset w)
    (word : OptionsWord true w options) (inhabited : options ≠ [])
    (distinct : (options.map Branch.selector).Nodup) (trailing : Blanks blanks) :
    ∃ t, readBody inPlural (n + 1) name
        (kind.word.toList ++ before ++ ',' :: after ++ v ++ w ++ blanks ++ '}' :: r) =
        .ok (.plural name kind offset options, t) ∧ skipBlanks t = '}' :: r := by
  have visible : Stops isBlank (w ++ (blanks ++ '}' :: r)) :=
    (word.stops inhabited).append (List.ne_nil_of_mem (word.brace_mem inhabited))
  have comma := require_comma_iff.mpr
    ⟨before, (rfl : _ = before ++ ',' :: (after ++ (v ++ (w ++ (blanks ++ '}' :: r))))), blank⟩
  have front : skipBlanks (after ++ (v ++ (w ++ (blanks ++ '}' :: r)))) =
      v ++ w ++ (blanks ++ '}' :: r) := by
    rw [skipBlanks_blanks_append blank', List.append_assoc]
    exact skipBlanks_of_stops (clause.stops visible)
  have read := readOffset_append (r := blanks ++ '}' :: r) clause (word.stops inhabited)
    (word.brace_mem inhabited)
  obtain ⟨t, more, closing⟩ :=
    ih.readOptions_append (r := r) blanks_nil word inhabited distinct trailing enough
  rw [List.nil_append] at more
  refine ⟨t, ?_, closing⟩
  simp only [List.append_assoc, List.cons_append]
  rw [readBody_plural kind (stops_typeLetters blank (by decide)), comma, ok_bind, front, read,
    ok_bind]
  simp only [more, ok_bind]

theorem select_complete (ih : Recognizes n) {name : String}
    {before after w blanks : List Char} {options : List Branch}
    (enough : (after ++ (w ++ (blanks ++ '}' :: r))).length < n) (blank : Blanks before)
    (blank' : Blanks after) (word : OptionsWord inPlural w options) (inhabited : options ≠ [])
    (distinct : (options.map Branch.selector).Nodup) (trailing : Blanks blanks) :
    ∃ t, readBody inPlural (n + 1) name
        ("select".toList ++ before ++ ',' :: after ++ w ++ blanks ++ '}' :: r) =
        .ok (.select name options, t) ∧ skipBlanks t = '}' :: r := by
  have comma := require_comma_iff.mpr
    ⟨before, (rfl : _ = before ++ ',' :: (after ++ (w ++ (blanks ++ '}' :: r)))), blank⟩
  obtain ⟨t, more, closing⟩ :=
    ih.readOptions_append blank' word inhabited distinct trailing enough
  refine ⟨t, ?_, closing⟩
  simp only [List.append_assoc, List.cons_append]
  rw [readBody_select (stops_typeLetters blank (by decide)), comma, ok_bind, more, ok_bind]

theorem body_succ (ih : Recognizes n) {name : String} {element : Element}
    (enough : s.length < n + 1) :
    (∃ t, readBody inPlural (n + 1) name s = .ok (element, t) ∧ skipBlanks t = '}' :: r) ↔
      ∃ w blanks, s = w ++ blanks ++ '}' :: r ∧ BodyWord inPlural name w element ∧
        Blanks blanks := by
  constructor
  · rintro ⟨t, h, closing⟩
    obtain ⟨u, stops, ⟨kind, rfl⟩ | ⟨kind, rfl⟩ | rfl⟩ := exists_typeWord h
    · exact formatted_sound stops h closing
    · exact ih.plural_sound enough stops h closing
    · exact ih.select_sound enough stops h closing
  · rintro ⟨w, blanks, rfl, word, trailing⟩
    cases word with
    | formatted clause => exact formatted_complete clause trailing
    | plural blank blank' clause word inhabited distinct =>
        refine ih.plural_complete ?_ blank blank' clause word inhabited distinct trailing
        simp only [List.length_append, List.length_cons] at enough ⊢
        omega
    | select blank blank' word inhabited distinct =>
        refine ih.select_complete ?_ blank blank' word inhabited distinct trailing
        simp only [List.length_append, List.length_cons] at enough ⊢
        omega

/-- In front of a new selector, the reader goes on with a branch. -/
theorem readOptions_selector {seen : List String} {selector t : List Char}
    (word : SelectorWord selector) (start : skipBlanks s = selector ++ t)
    (number : Stops isDigit t) (name : Stops isNameChar t)
    (new : String.ofList selector ∉ seen) :
    readOptions inPlural (n + 1) seen s = (do
      let s ← require '{' (skipBlanks t)
      let (value, s) ← readMessage inPlural n s
      let s ← require '}' s
      let (options, s) ← readOptions inPlural n (String.ofList selector :: seen) s
      .ok (.mk (String.ofList selector) value :: options, s)) := by
  have read := readSelector_append word number name
  obtain ⟨c, v, rfl, notClosing, -⟩ := word.head
  rw [readOptions, start]
  split
  · rename_i empty
    exact absurd empty (by simp)
  · rename_i closing
    exact absurd (List.cons_eq_cons.mp closing).1 notClosing
  · rw [read, ok_bind]
    simp only [List.contains_eq_mem, new, decide_false, Bool.false_eq_true, if_false]

/-- Branches end before a closing brace, provided that there was one. -/
theorem endOptions_eq_ok_iff {seen : List String} {options : List Branch} {t : List Char} :
    readOptions.endOptions seen s = .ok (options, t) ↔ seen ≠ [] ∧ options = [] ∧ t = s := by
  rw [readOptions.endOptions]
  cases seen with
  | nil => simp
  | cons selector seen => simp [eq_comm]

theorem options_sound (ih : Recognizes n) {seen : List String} {options : List Branch}
    {t : List Char} (enough : s.length < n + 1)
    (h : readOptions inPlural (n + 1) seen s = .ok (options, t))
    (closing : skipBlanks t = '}' :: r) :
    ∃ blanks w, s = blanks ++ w ++ '}' :: r ∧ Blanks blanks ∧
      OptionsWord inPlural w options ∧ Fresh seen options ∧ (seen = [] → options ≠ []) := by
  obtain ⟨blanks, whole, blank⟩ := exists_blanks s
  rw [readOptions] at h
  split at h
  · obtain ⟨-, -, rfl⟩ := endOptions_eq_ok_iff.mp h
    exact absurd closing (by simp [skipBlanks])
  · rename_i rest start
    obtain ⟨known, rfl, rfl⟩ := endOptions_eq_ok_iff.mp h
    rw [skipBlanks_of_stops (stops_cons.mpr (by decide))] at closing
    rw [start, closing] at whole
    exact ⟨blanks, [], by simpa using whole, blank, .nil, fresh_nil seen,
      fun first => absurd first known⟩
  · obtain ⟨⟨selector, s₁⟩, read, h⟩ := bind_eq_ok_iff.mp h
    obtain ⟨word, front, valid, rfl⟩ := exists_selectorWord read
    simp only at h
    split at h
    · exact absurd h (by simp [bind, Except.bind])
    · rename_i new
      obtain ⟨s₂, opening, h⟩ := bind_eq_ok_iff.mp h
      obtain ⟨⟨value, s₃⟩, message, h⟩ := bind_eq_ok_iff.mp h
      obtain ⟨s₄, ending, h⟩ := bind_eq_ok_iff.mp h
      obtain ⟨⟨more, s₅⟩, rest, h⟩ := bind_eq_ok_iff.mp h
      obtain ⟨rfl, rfl⟩ := Prod.mk.inj (Except.ok.inj h)
      obtain ⟨before, gap, blank'⟩ := exists_blanks s₁
      rw [require_eq_ok_iff.mp opening] at gap
      obtain rfl := require_eq_ok_iff.mp ending
      have size := congrArg List.length whole
      have size' := congrArg List.length front
      have size'' := congrArg List.length gap
      simp only [List.length_append, List.length_cons] at size size' size''
      obtain ⟨v, rfl, inside, -⟩ := (ih.message (by omega)).mp message
      simp only [List.length_append, List.length_cons] at size''
      obtain ⟨after, w, rfl, blank'', rest, fresh, -⟩ :=
        (ih.options (by omega)).mp ⟨s₅, rest, closing⟩
      refine ⟨blanks, _, ?_, blank, .cons valid blank' inside blank'' rest,
        fresh_cons.mpr ⟨by simpa using new, fresh⟩, by simp⟩
      rw [whole, front, gap]
      simp

theorem branch_complete (ih : Recognizes n) {seen : List String} {options : List Branch}
    {blanks selector before v after w : List Char} {value : Message}
    (enough : (v ++ '}' :: (after ++ (w ++ '}' :: r))).length < n) (blank : Blanks blanks)
    (word : SelectorWord selector) (blank' : Blanks before)
    (inside : MessageWord inPlural v value) (blank'' : Blanks after)
    (rest : OptionsWord inPlural w options) (new : String.ofList selector ∉ seen)
    (fresh : Fresh (String.ofList selector :: seen) options) :
    ∃ t, readOptions inPlural (n + 1) seen (blanks ++ (selector ++ (before ++
        '{' :: (v ++ '}' :: (after ++ (w ++ '}' :: r)))))) =
        .ok (.mk (String.ofList selector) value :: options, t) ∧
      skipBlanks t = '}' :: r := by
  have opening (p : Char → Bool) (hp : ∀ c, isBlank c = true → p c = false)
      (brace : p '{' = false) (t : List Char) : Stops p (before ++ '{' :: t) :=
    (stops_cons.mpr brace).blanks_append hp blank'
  have start (t : List Char) : skipBlanks (blanks ++ (selector ++ t)) = selector ++ t := by
    obtain ⟨c, u, rfl, -, visible⟩ := word.head
    rw [skipBlanks_blanks_append blank]
    exact skipBlanks_of_stops (stops_cons.mpr visible)
  have brace (t : List Char) : skipBlanks (before ++ '{' :: t) = '{' :: t := by
    rw [skipBlanks_blanks_append blank']
    exact skipBlanks_of_stops (stops_cons.mpr (by decide))
  have message : readMessage inPlural n (v ++ '}' :: (after ++ (w ++ '}' :: r))) =
      .ok (value, '}' :: (after ++ (w ++ '}' :: r))) :=
    (ih.message enough).mpr ⟨v, rfl, inside, closes_cons.mpr rfl⟩
  have shorter : (after ++ (w ++ '}' :: r)).length < n := by
    simp only [List.length_append, List.length_cons] at enough ⊢
    omega
  obtain ⟨t, more, closing⟩ := (ih.options shorter).mpr
    ⟨after, w, (List.append_assoc _ _ _).symm, blank'', rest, fresh, by simp⟩
  refine ⟨t, ?_, closing⟩
  rw [readOptions_selector word (start _)
    (opening isDigit (fun _ => isDigit_of_isBlank) (by decide) _)
    (opening isNameChar (fun _ => isNameChar_of_isBlank) (by decide) _) new]
  simp only [brace, require_cons, ok_bind, message, more]

theorem options_complete (ih : Recognizes n) {seen : List String} {options : List Branch}
    {blanks w : List Char} (enough : (blanks ++ w ++ '}' :: r).length < n + 1)
    (blank : Blanks blanks) (word : OptionsWord inPlural w options)
    (fresh : Fresh seen options) (inhabited : seen = [] → options ≠ []) :
    ∃ t, readOptions inPlural (n + 1) seen (blanks ++ w ++ '}' :: r) = .ok (options, t) ∧
      skipBlanks t = '}' :: r := by
  have closing : skipBlanks ('}' :: r) = '}' :: r :=
    skipBlanks_of_stops (stops_cons.mpr (by decide))
  cases word with
  | nil =>
      have known : seen ≠ [] := fun first => inhabited first rfl
      have start : skipBlanks (blanks ++ [] ++ '}' :: r) = '}' :: r := by
        rw [List.append_nil, skipBlanks_blanks_append blank, closing]
      refine ⟨'}' :: r, ?_, closing⟩
      rw [readOptions, start]
      exact endOptions_eq_ok_iff.mpr ⟨known, rfl, rfl⟩
  | cons word blank' inside blank'' rest =>
      obtain ⟨new, fresh⟩ := fresh_cons.mp fresh
      simp only [List.append_assoc, List.cons_append] at enough ⊢
      refine ih.branch_complete ?_ blank word blank' inside blank'' rest new fresh
      simp only [List.length_append, List.length_cons] at enough ⊢
      omega

theorem options_succ (ih : Recognizes n) {seen : List String} {options : List Branch}
    (enough : s.length < n + 1) :
    (∃ t, readOptions inPlural (n + 1) seen s = .ok (options, t) ∧
        skipBlanks t = '}' :: r) ↔
      ∃ blanks w, s = blanks ++ w ++ '}' :: r ∧ Blanks blanks ∧
        OptionsWord inPlural w options ∧ Fresh seen options ∧ (seen = [] → options ≠ []) := by
  constructor
  · rintro ⟨t, h, closing⟩
    exact ih.options_sound enough h closing
  · rintro ⟨blanks, w, rfl, blank, word, fresh, inhabited⟩
    exact ih.options_complete enough blank word fresh inhabited

end Recognizes

/-- Every counter is enough for the texts below it. -/
theorem recognizes (n : Nat) : Recognizes n := by
  induction n with
  | zero => constructor <;> exact fun h => absurd h (Nat.not_lt_zero _)
  | succ n ih =>
      exact ⟨ih.message_succ, ih.argument_succ, ih.body_succ, ih.options_succ⟩

/-! ### Derivations are unambiguous -/

section Unambiguous

variable {inPlural : Bool} {v v' r r' : List Char}

theorem TextWord.unique {text text' : List Char} (word : TextWord inPlural v text)
    (ends : Interrupts inPlural r) (word' : TextWord inPlural v' text')
    (ends' : Interrupts inPlural r') (same : v ++ r = v' ++ r') : text = text' ∧ r = r' := by
  have enough : (v ++ r).length < (v ++ r).length + 1 := Nat.lt_succ_self _
  have read := (readText_eq_ok_iff enough).mpr ⟨v, rfl, word, ends⟩
  have read' := (readText_eq_ok_iff enough).mpr ⟨v', same, word', ends'⟩
  exact Prod.mk.inj (Except.ok.inj (read.symm.trans read'))

theorem MessageWord.unique {message message' : Message} (word : MessageWord inPlural v message)
    (closes : Closes r) (word' : MessageWord inPlural v' message') (closes' : Closes r')
    (same : v ++ r = v' ++ r') : message = message' ∧ r = r' := by
  have enough : (v ++ r).length < (v ++ r).length + 1 := Nat.lt_succ_self _
  have read := ((recognizes _).message enough).mpr ⟨v, rfl, word, closes⟩
  have read' := ((recognizes _).message enough).mpr ⟨v', same, word', closes'⟩
  exact Prod.mk.inj (Except.ok.inj (read.symm.trans read'))

theorem ArgumentWord.unique {element element' : Element}
    (word : ArgumentWord inPlural v element) (word' : ArgumentWord inPlural v' element')
    (same : v ++ '}' :: r = v' ++ '}' :: r') : element = element' ∧ r = r' := by
  have enough : (v ++ '}' :: r).length < (v ++ '}' :: r).length + 1 := Nat.lt_succ_self _
  have read := ((recognizes _).argument enough).mpr ⟨v, rfl, word⟩
  have read' := ((recognizes _).argument enough).mpr ⟨v', same, word'⟩
  exact Prod.mk.inj (Except.ok.inj (read.symm.trans read'))

end Unambiguous

/-! ### Whole texts -/

theorem readAll_eq_ok_iff {text : List Char} {message : Message} :
    readAll text = .ok message ↔ MessageWord false text message := by
  have read {r : List Char} : readMessage false (text.length + 1) text = .ok (message, r) ↔
      ∃ w, text = w ++ r ∧ MessageWord false w message ∧ Closes r :=
    (recognizes _).message (Nat.lt_succ_self _)
  constructor
  · intro h
    obtain ⟨⟨found, rest⟩, whole, h⟩ := bind_eq_ok_iff.mp h
    simp only at h
    split at h
    · rename_i empty
      obtain rfl := List.isEmpty_iff.mp empty
      obtain rfl := Except.ok.inj h
      obtain ⟨w, rfl, word, -⟩ := read.mp whole
      rwa [List.append_nil]
    · exact absurd h (unexpected_ne_ok _ _ _)
  · intro word
    have whole := read.mpr ⟨text, (List.append_nil _).symm, word, by simp [Closes]⟩
    simp [readAll, whole]

theorem parse_eq_ok_iff {text : String} {message : Message} :
    parse text = .ok message ↔ readAll text.toList = .ok message := by
  rw [parse]
  cases readAll text.toList with
  | error fault => exact ⟨nofun, nofun⟩
  | ok found =>
      exact ⟨fun same => congrArg Except.ok (Except.ok.inj same),
        fun same => congrArg Except.ok (Except.ok.inj same)⟩

/-- A string is read as a message exactly if the grammar derives it for the message. The
grammar does not mention the reader, so this settles both which texts are refused and
what the others denote. -/
theorem parse_eq_ok_iff_messageWord (text : String) (message : Message) :
    parse text = .ok message ↔ MessageWord false text.toList message :=
  parse_eq_ok_iff.trans readAll_eq_ok_iff

end Message

end MessageCatalog
