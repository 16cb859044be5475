import MessageCatalog.Proofs.Message.Faults

/-!
# Faults are true

Every fault is where the text goes wrong, and not later: what is in front of it is the
beginning of some message. A text is completed from the inside to the outside. A reader
that fails has found the beginning of a word of its kind, or one of the readers that it has
called has; the word is completed by what the grammar asks for next. Braces close behind
it, and nothing else has to follow.

Two things need care. A selector that completes a branch must not have been seen before.
And what is put behind an offset clause must not change how the clause is read.
-/

namespace MessageCatalog

namespace Message

open Text

/-! ### What was read -/

section Read

variable {inPlural : Bool} {s t : List Char} {n : Nat}

theorem skipBlanks_of_closes (closes : Closes t) : skipBlanks t = t := by
  refine skipBlanks_of_stops fun c here => ?_
  rw [closes c here]
  rfl

/-- Branches that were read are words, whether a brace follows them or the text ends. -/
theorem exists_options {seen : List String} {options : List Branch} (enough : s.length < n)
    (read : readOptions inPlural n seen s = .ok (options, t)) :
    ∃ w, skipBlanks s = w ++ t ∧ OptionsWord inPlural w options ∧ Fresh seen options ∧
      (seen = [] → options ≠ []) ∧ Closes t := by
  induction n generalizing s seen options with
  | zero => exact absurd enough (Nat.not_lt_zero _)
  | succ n ih =>
      obtain ⟨blanks, whole, -⟩ := exists_blanks s
      rw [readOptions] at read
      split at read
      · rename_i start
        obtain ⟨known, rfl, rfl⟩ := Recognizes.endOptions_eq_ok_iff.mp read
        exact ⟨[], start, .nil, fresh_nil seen, fun first => absurd first known,
          by simp [Closes]⟩
      · rename_i start
        obtain ⟨known, rfl, rfl⟩ := Recognizes.endOptions_eq_ok_iff.mp read
        exact ⟨[], start, .nil, fresh_nil seen, fun first => absurd first known,
          closes_cons.mpr rfl⟩
      · obtain ⟨⟨selector, s₁⟩, first, read⟩ := bind_eq_ok_iff.mp read
        obtain ⟨word, front, valid, rfl⟩ := exists_selectorWord first
        simp only at read
        split at read
        · exact absurd read (by simp [bind, Except.bind])
        · rename_i new
          obtain ⟨s₂, opening, read⟩ := bind_eq_ok_iff.mp read
          obtain ⟨⟨value, s₃⟩, message, read⟩ := bind_eq_ok_iff.mp read
          obtain ⟨s₄, ending, read⟩ := bind_eq_ok_iff.mp read
          obtain ⟨⟨more, s₅⟩, rest, read⟩ := bind_eq_ok_iff.mp read
          obtain ⟨rfl, rfl⟩ := Prod.mk.inj (Except.ok.inj read)
          obtain ⟨before, gap, blank⟩ := exists_blanks s₁
          rw [require_eq_ok_iff.mp opening] at gap
          obtain rfl := require_eq_ok_iff.mp ending
          have size := congrArg List.length whole
          have size' := congrArg List.length front
          have size'' := congrArg List.length gap
          simp only [List.length_append, List.length_cons] at size size' size''
          obtain ⟨v, rfl, inside, -⟩ := ((recognizes n).message (by omega)).mp message
          simp only [List.length_append, List.length_cons] at size''
          obtain ⟨w, behind, options, fresh, -, closes⟩ := ih (by omega) rest
          obtain ⟨after, gap', blank'⟩ := exists_blanks s₄
          refine ⟨_, ?_, .cons valid blank inside blank' options,
            fresh_cons.mpr ⟨by simpa using new, fresh⟩, by simp, closes⟩
          rw [front, gap, gap', behind]
          simp

/-- The body of an argument that was read is a word with blanks behind it, whatever
follows. -/
theorem exists_body {name : String} {element : Element} (enough : s.length < n)
    (read : readBody inPlural n name s = .ok (element, t)) :
    ∃ w blanks, s = w ++ blanks ++ skipBlanks t ∧ BodyWord inPlural name w element ∧
      Blanks blanks := by
  obtain ⟨n, rfl⟩ := Nat.exists_eq_add_one.mpr (Nat.zero_lt_of_lt enough)
  obtain ⟨u, stops, ⟨kind, rfl⟩ | ⟨kind, rfl⟩ | rfl⟩ := Recognizes.exists_typeWord read
  · rw [Recognizes.readBody_formatted kind stops] at read
    obtain ⟨⟨style, t'⟩, styled, read⟩ := bind_eq_ok_iff.mp read
    obtain ⟨rfl, rfl⟩ := Prod.mk.inj (Except.ok.inj read)
    obtain ⟨w, blanks, rfl, clause, blank⟩ := exists_styleClause styled
    obtain ⟨blanks', rest, blank'⟩ := exists_blanks t'
    refine ⟨kind.word.toList ++ w, blanks ++ blanks', ?_, .formatted clause,
      blank.append blank'⟩
    simp only [List.append_assoc, ← rest]
  · rw [Recognizes.readBody_plural kind stops] at read
    obtain ⟨s₁, comma, read⟩ := bind_eq_ok_iff.mp read
    obtain ⟨⟨offset, s₂⟩, counted, read⟩ := bind_eq_ok_iff.mp read
    obtain ⟨⟨options, s₃⟩, more, read⟩ := bind_eq_ok_iff.mp read
    obtain ⟨rfl, rfl⟩ := Prod.mk.inj (Except.ok.inj read)
    obtain ⟨before, rfl, blank⟩ := Recognizes.require_comma_iff.mp comma
    obtain ⟨after, whole, blank'⟩ := exists_blanks s₁
    obtain ⟨v, front, visible, clause⟩ := exists_offsetClause counted (stops_skipBlanks s₁)
    have shorter : s₂.length < n := by
      have := congrArg List.length whole
      have := congrArg List.length front
      simp only [List.length_append, List.length_cons] at *
      omega
    obtain ⟨w, behind, word, fresh, inhabited, closes⟩ := exists_options shorter more
    rw [skipBlanks_of_stops visible] at behind
    have clause := clause w (behind ▸ List.prefix_append w _)
    refine ⟨_, [], ?_, .plural blank blank' clause word (inhabited rfl) fresh.1, blanks_nil⟩
    rw [skipBlanks_of_closes closes, whole, front, behind]
    simp
  · rw [Recognizes.readBody_select stops] at read
    obtain ⟨s₁, comma, read⟩ := bind_eq_ok_iff.mp read
    obtain ⟨⟨options, s₃⟩, more, read⟩ := bind_eq_ok_iff.mp read
    obtain ⟨rfl, rfl⟩ := Prod.mk.inj (Except.ok.inj read)
    obtain ⟨before, rfl, blank⟩ := Recognizes.require_comma_iff.mp comma
    have shorter : s₁.length < n := by
      simp only [List.length_append, List.length_cons] at enough
      omega
    obtain ⟨w, behind, word, fresh, inhabited, closes⟩ := exists_options shorter more
    obtain ⟨after, whole, blank'⟩ := exists_blanks s₁
    refine ⟨_, [], ?_, .select blank blank' word (inhabited rfl) fresh.1, blanks_nil⟩
    rw [skipBlanks_of_closes closes, whole, behind]
    simp

end Read

/-! ### Branches behind an offset clause -/

/-- A clause is read in the same way in front of the second text as in front of the
first. -/
def Steady (s w : List Char) : Prop :=
  (¬ offsetWord <+: s → ¬ offsetWord <+: w) ∧ (Stops isDigit s → Stops isDigit w)

section Steady

variable {s t u v w : List Char}

theorem steady_of_wordless (word : ¬ offsetWord <+: w) (number : Stops isDigit w) :
    Steady s w :=
  ⟨fun _ => word, fun _ => number⟩

/-- No word of a clause goes on behind an opening brace. -/
theorem steady_brace (inhabited : u ≠ []) : Steady (u ++ s) (u ++ '{' :: t) := by
  constructor
  · intro wordless word
    exact wordless ((prefix_of_not_mem word (by decide)).trans (List.prefix_append u s))
  · intro number
    exact number.of_append.append inhabited

theorem OffsetClause.steady {offset : Int} (clause : OffsetClause v offset s)
    (steady : Steady s w) : OffsetClause v offset w := by
  cases clause with
  | absent wordless => exact .absent (steady.1 wordless)
  | @present before digits after _ blank number small blank' maximal =>
      refine .present blank number small blank' ?_
      by_cases bare : after = []
      · subst bare
        exact steady.2 maximal
      · exact maximal.of_append.append bare

end Steady

/-! ### Completions -/

/-- The branch that completes an argument without branches. -/
def dummyBranch : List Char :=
  ['a', '{', '}']

/-- What `dummyBranch` denotes. -/
def dummyBranches : List Branch :=
  [.mk (String.ofList ['a']) []]

section Completions

variable {inPlural : Bool}

theorem SelectorWord.ne_nil {w : List Char} (word : SelectorWord w) : w ≠ [] := by
  obtain ⟨c, v, rfl, -⟩ := word.head
  exact List.cons_ne_nil c v

/-- A last branch, with nothing behind it. -/
theorem OptionsWord.single {selector before v : List Char} {value : Message}
    (word : SelectorWord selector) (blank : Blanks before)
    (inside : MessageWord inPlural v value) :
    OptionsWord inPlural (selector ++ before ++ '{' :: v ++ ['}'])
      [.mk (String.ofList selector) value] := by
  simpa using OptionsWord.cons word blank inside blanks_nil .nil

theorem dummyBranch_word : OptionsWord inPlural dummyBranch dummyBranches :=
  .single (.keyword (run_singleton rfl)) blanks_nil .nil

theorem steady_dummyBranch (s : List Char) : Steady s dummyBranch :=
  steady_of_wordless (by decide) (stops_cons.mpr (by decide))

theorem fresh_single {seen : List String} {selector : String} {value : Message}
    (new : selector ∉ seen) : Fresh seen [.mk selector value] :=
  fresh_cons.mpr ⟨new, fresh_nil _⟩

theorem dummyBranches_distinct : (dummyBranches.map Branch.selector).Nodup := by
  simp [dummyBranches]

end Completions

/-- The branches of `s` that are in front of `rest` can be completed. No selector of them has
been seen, and an offset clause in front of them is still read in the same way. -/
def BranchesResume (inPlural : Bool) (seen : List String) (s rest : List Char) : Prop :=
  ∃ w options, Resumes s rest w ∧ Steady s w ∧ OptionsWord inPlural w options ∧
    Fresh seen options ∧ (seen = [] → options ≠ [])

/-! ### One round of each reader -/

/-- With the counter `n`, what a reader that fails has read is the beginning of a word. A
completed message starts as the text does, so that text in front of it still ends there. -/
structure Viable (n : Nat) : Prop where
  message : ∀ {inPlural : Bool} {s : List Char} {fault : Fault}, s.length < n →
    readMessage inPlural n s = .error fault →
      ∃ w message, Resumes s fault.rest w ∧ w.head? = s.head? ∧
        MessageWord inPlural w message
  argument : ∀ {inPlural : Bool} {s : List Char} {fault : Fault}, s.length < n →
    readArgument inPlural n s = .error fault →
      ∃ w element, Resumes s fault.rest w ∧ ArgumentWord inPlural w element
  body : ∀ {inPlural : Bool} {name : String} {s : List Char} {fault : Fault}, s.length < n →
    readBody inPlural n name s = .error fault →
      ∃ w element, Resumes s fault.rest w ∧ BodyWord inPlural name w element
  options : ∀ {inPlural : Bool} {seen : List String} {s : List Char} {fault : Fault},
    s.length < n → readOptions inPlural n seen s = .error fault →
      BranchesResume inPlural seen (skipBlanks s) fault.rest

namespace Viable

variable {n : Nat} {inPlural : Bool} {s : List Char} {fault : Fault}

theorem text_viable (ih : Viable n) {c : Char} (enough : (c :: s).length < n + 1)
    (ordinary : endsText inPlural c = false)
    (failed : readMessage inPlural (n + 1) (c :: s) = .error fault) :
    ∃ w message, Resumes (c :: s) fault.rest w ∧ w.head? = some c ∧
      MessageWord inPlural w message := by
  rw [Recognizes.readMessage_text ordinary] at failed
  rcases bind_eq_error_iff.mp failed with run | ⟨⟨text, t⟩, run, failed⟩
  · obtain ⟨w, text, resumes, head, word, inhabited⟩ := exists_text run
    refine ⟨w, [.literal (String.ofList text)], resumes, head, ?_⟩
    simpa using MessageWord.text word inhabited .nil (by simp [StartsBare])
  · rcases bind_eq_error_iff.mp failed with later | ⟨_, -, failed⟩
    · obtain ⟨v, whole, glyphs, interrupts⟩ := (readText_eq_ok_iff enough).mp run
      have inhabited := glyphs.inhabited whole interrupts ordinary
      obtain ⟨d, v', rfl, -⟩ := glyphs.head inhabited
      obtain ⟨rfl, -⟩ := List.cons_eq_cons.mp whole
      have shorter : t.length < n := by
        have := congrArg List.length whole
        simp only [List.length_append, List.length_cons] at this enough
        omega
      obtain ⟨w, message, resumes, head, word⟩ := ih.message shorter later
      -- The completed message starts as the rest does, where the text ended.
      have bare : StartsBare message := by
        refine word.startsBare (r := []) fun c here => interrupts c ?_
        rwa [List.append_nil, head] at here
      rw [whole]
      exact ⟨c :: v' ++ w, _, resumes.append_left (c :: v'), rfl,
        .text glyphs inhabited word bare⟩
    · exact absurd failed (by simp)

theorem message_succ (ih : Viable n) (enough : s.length < n + 1)
    (failed : readMessage inPlural (n + 1) s = .error fault) :
    ∃ w message, Resumes s fault.rest w ∧ w.head? = s.head? ∧
      MessageWord inPlural w message := by
  cases s with
  | nil => exact absurd failed (by simp [readMessage])
  | cons c s =>
      by_cases ordinary : endsText inPlural c = false
      · exact ih.text_viable enough ordinary failed
      · have enough' : s.length < n := by simpa using enough
        rw [readMessage] at failed
        split at failed
        · exact absurd failed (by simp)
        rename_i notClosing
        split at failed
        · rename_i opening
          subst opening
          rcases bind_eq_error_iff.mp failed with inner | ⟨⟨element, t⟩, read, failed⟩
          · obtain ⟨w, element, resumes, inside⟩ := ih.argument enough' inner
            exact ⟨'{' :: w ++ ['}'], _, (resumes.cons '{').append_right ['}'], rfl,
              .argument inside .nil⟩
          · rcases bind_eq_error_iff.mp failed with later | ⟨_, -, failed⟩
            · obtain ⟨v, rfl, inside⟩ := ((recognizes n).argument enough').mp read
              simp only [List.length_append, List.length_cons] at enough'
              obtain ⟨w, message, resumes, -, word⟩ := ih.message (by omega) later
              refine ⟨'{' :: v ++ '}' :: w, _, ?_, rfl, .argument inside word⟩
              exact (resumes.cons '}').append_left ('{' :: v)
            · exact absurd failed (by simp)
        rename_i notOpening
        -- Neither brace is left, so the character is a number sign that ends text.
        obtain ⟨rfl, rfl⟩ : inPlural = true ∧ c = '#' := by
          simpa [endsText, notOpening, notClosing] using ordinary
        rcases bind_eq_error_iff.mp failed with later | ⟨_, -, failed⟩
        · obtain ⟨w, message, resumes, -, word⟩ := ih.message enough' later
          exact ⟨'#' :: w, _, resumes.cons '#', rfl, .pound word⟩
        · exact absurd failed (by simp)

theorem argument_succ (ih : Viable n) (enough : s.length < n + 1)
    (failed : readArgument inPlural (n + 1) s = .error fault) :
    ∃ w element, Resumes s fault.rest w ∧ ArgumentWord inPlural w element := by
  rw [readArgument] at failed
  rcases bind_eq_error_iff.mp failed with nameless | ⟨⟨name, t⟩, read, behind⟩
  · obtain ⟨before, whole, blank⟩ := exists_blanks s
    obtain ⟨-, rfl⟩ := takeRun1_eq_error_iff.mp nameless
    refine ⟨before ++ ['a'] ++ [], _, ?_, .plain blank (run_singleton rfl) blanks_nil⟩
    have resumes := resumes_of_append before (skipBlanks s) ['a']
    rw [← whole] at resumes
    exact resumes.append_right []
  · clear failed
    obtain ⟨before, w, rfl, blank, run, -, rfl⟩ := Recognizes.readName_eq_ok_iff.mp read
    obtain ⟨after, back, blank'⟩ := exists_blanks t
    have unfinished : Resumes (before ++ w ++ t) (skipBlanks t) (before ++ w ++ after) := by
      have resumes := resumes_prefix (before ++ w ++ after) (skipBlanks t)
      rwa [List.append_assoc (before ++ w), ← back] at resumes
    simp only at behind
    split at behind
    · exact absurd behind (by simp)
    · rename_i rest comma
      obtain ⟨front, whole, blank''⟩ := exists_blanks rest
      have start : before ++ w ++ t =
          before ++ w ++ after ++ ',' :: front ++ skipBlanks rest := by
        rw [back, comma, List.append_assoc _ (',' :: front), List.cons_append, ← whole,
          List.append_assoc (before ++ w)]
      rw [start]
      have shorter : (skipBlanks rest).length < n := by
        have := congrArg List.length start
        simp only [List.length_append, List.length_cons] at this enough
        omega
      rcases bind_eq_error_iff.mp behind with inner | ⟨⟨element, t'⟩, inside, closing⟩
      · obtain ⟨v, element, resumes, body⟩ := ih.body shorter inner
        exact ⟨_, element, (resumes.append_left _).append_right [],
          .typed blank run blank' blank'' body blanks_nil⟩
      · rcases bind_eq_error_iff.mp closing with unclosed | ⟨_, -, closed⟩
        · obtain ⟨-, rfl⟩ := require_eq_error_iff.mp unclosed
          obtain ⟨v, blanks, body, word, trailing⟩ := exists_body shorter inside
          refine ⟨_, element, ?_, .typed blank run blank' blank'' word trailing⟩
          rw [body]
          simpa using
            resumes_prefix (before ++ w ++ after ++ ',' :: front ++ v ++ blanks) (skipBlanks t')
        · exact absurd closed (by simp)
    · rw [unexpected_eq_error_iff.mp behind]
      exact ⟨_, _, unfinished, .plain blank run blank'⟩

/-- A branching argument without its comma is completed by a comma and a branch. -/
theorem comma_viable {t : List Char} (failed : require ',' (skipBlanks t) = .error fault) :
    ∃ before, Blanks before ∧ Resumes t fault.rest (before ++ ',' :: dummyBranch) := by
  obtain ⟨before, whole, blank⟩ := exists_blanks t
  obtain ⟨-, rfl⟩ := require_eq_error_iff.mp failed
  have resumes := resumes_of_append before (skipBlanks t) (',' :: dummyBranch)
  rw [← whole] at resumes
  exact ⟨before, blank, resumes⟩

theorem plural_viable (ih : Viable n) {name : String} {kind : PluralKind} {u : List Char}
    (enough : u.length < n) (stops : Stops isTypeLetter u)
    (failed : readBody inPlural (n + 1) name (kind.word.toList ++ u) = .error fault) :
    ∃ w element, Resumes (kind.word.toList ++ u) fault.rest w ∧
      BodyWord inPlural name w element := by
  rw [Recognizes.readBody_plural kind stops] at failed
  rcases bind_eq_error_iff.mp failed with bare | ⟨s, comma, counting⟩
  · obtain ⟨before, blank, resumes⟩ := comma_viable bare
    refine ⟨kind.word.toList ++ before ++ ',' :: [] ++ [] ++ dummyBranch, _, ?_,
      .plural blank blanks_nil (.absent (by decide)) dummyBranch_word (List.cons_ne_nil _ _)
        dummyBranches_distinct⟩
    simpa using resumes.append_left kind.word.toList
  obtain ⟨before, rfl, blank⟩ := Recognizes.require_comma_iff.mp comma
  obtain ⟨after, whole, blank'⟩ := exists_blanks s
  rcases bind_eq_error_iff.mp counting with countless | ⟨⟨offset, t⟩, counted, branching⟩
  · obtain ⟨v, resumes, clause⟩ := exists_offset countless
    refine ⟨kind.word.toList ++ before ++ ',' :: after ++ v ++ dummyBranch, _, ?_,
      .plural blank blank' (clause dummyBranch (stops_cons.mpr (by decide))) dummyBranch_word
        (List.cons_ne_nil _ _) dummyBranches_distinct⟩
    have longer := resumes.append_left (kind.word.toList ++ before ++ ',' :: after)
    rw [whole]
    simpa using longer.append_right dummyBranch
  obtain ⟨v, front, visible, clause⟩ := exists_offsetClause counted (stops_skipBlanks s)
  rcases bind_eq_error_iff.mp branching with inner | ⟨_, -, branched⟩
  · have shorter : t.length < n := by
      have := congrArg List.length whole
      have := congrArg List.length front
      simp only [List.length_append, List.length_cons] at *
      omega
    obtain ⟨w, options, resumes, steady, word, fresh, inhabited⟩ := ih.options shorter inner
    rw [skipBlanks_of_stops visible] at resumes steady
    refine ⟨kind.word.toList ++ before ++ ',' :: after ++ v ++ w, _, ?_,
      .plural blank blank' ((clause t (List.prefix_refl t)).steady steady) word
        (inhabited rfl) fresh.1⟩
    rw [whole, front]
    simpa using resumes.append_left (kind.word.toList ++ before ++ ',' :: after ++ v)
  · exact absurd branched (by simp)

theorem select_viable (ih : Viable n) {name : String} {u : List Char}
    (enough : u.length < n) (stops : Stops isTypeLetter u)
    (failed : readBody inPlural (n + 1) name ("select".toList ++ u) = .error fault) :
    ∃ w element, Resumes ("select".toList ++ u) fault.rest w ∧
      BodyWord inPlural name w element := by
  rw [Recognizes.readBody_select stops] at failed
  rcases bind_eq_error_iff.mp failed with bare | ⟨s, comma, branching⟩
  · obtain ⟨before, blank, resumes⟩ := comma_viable bare
    refine ⟨"select".toList ++ before ++ ',' :: [] ++ dummyBranch, _, ?_,
      .select blank blanks_nil dummyBranch_word (List.cons_ne_nil _ _) dummyBranches_distinct⟩
    simpa using resumes.append_left "select".toList
  obtain ⟨before, rfl, blank⟩ := Recognizes.require_comma_iff.mp comma
  obtain ⟨after, whole, blank'⟩ := exists_blanks s
  rcases bind_eq_error_iff.mp branching with inner | ⟨_, -, branched⟩
  · have shorter : s.length < n := by
      simp only [List.length_append, List.length_cons] at enough
      omega
    obtain ⟨w, options, resumes, -, word, fresh, inhabited⟩ := ih.options shorter inner
    refine ⟨"select".toList ++ before ++ ',' :: after ++ w, _, ?_,
      .select blank blank' word (inhabited rfl) fresh.1⟩
    rw [whole]
    simpa using resumes.append_left ("select".toList ++ before ++ ',' :: after)
  · exact absurd branched (by simp)

theorem body_succ (ih : Viable n) {name : String} (enough : s.length < n + 1)
    (failed : readBody inPlural (n + 1) name s = .error fault) :
    ∃ w element, Resumes s fault.rest w ∧ BodyWord inPlural name w element := by
  have shorter {word : List Char} {u : List Char} (letters : Run isTypeLetter word)
      (whole : s = word ++ u) : u.length < n := by
    have := List.length_pos_iff.mpr letters.1
    rw [whole, List.length_append] at enough
    omega
  rcases Recognizes.typeWord_cases inPlural n name s with
    refused | ⟨u, stops, ⟨kind, rfl⟩ | ⟨kind, rfl⟩ | rfl⟩
  · rw [refused] at failed
    rw [unexpected_eq_error_iff.mp failed]
    exact ⟨FormatKind.number.word.toList ++ [], _, resumes_here s _, .formatted .absent⟩
  · rw [Recognizes.readBody_formatted kind stops] at failed
    rcases bind_eq_error_iff.mp failed with unstyled | ⟨_, -, styled⟩
    · obtain ⟨w, style, resumes, clause⟩ := exists_style unstyled
      exact ⟨_, _, resumes.append_left kind.word.toList, .formatted clause⟩
    · exact absurd styled (by simp)
  · exact ih.plural_viable (shorter kind.letters rfl) stops failed
  · exact ih.select_viable (shorter letters_select rfl) stops failed

/-- Where branches may end, nothing is missing, unless there has been no branch yet. -/
theorem missing_viable (seen : List String) (s : List Char) :
    BranchesResume inPlural seen s s := by
  by_cases first : seen = []
  · subst first
    exact ⟨dummyBranch, dummyBranches, resumes_here s _, steady_dummyBranch s,
      dummyBranch_word, fresh_single List.not_mem_nil, fun _ => List.cons_ne_nil _ _⟩
  · exact ⟨[], [], resumes_here s _, steady_of_wordless (by decide) (stops_nil _), .nil,
      fresh_nil seen, fun empty => absurd empty first⟩

/-- A branch that fails behind its opening brace is completed on its own. -/
theorem branch_viable {seen : List String} {selector before v t : List Char} {value : Message}
    (word : SelectorWord selector) (blank : Blanks before)
    (inside : MessageWord inPlural v value) (new : String.ofList selector ∉ seen)
    (resumes : Resumes t fault.rest ('{' :: v ++ ['}'])) :
    BranchesResume inPlural seen (selector ++ (before ++ t)) fault.rest := by
  refine ⟨_, _, ?_, ?_, .single word blank inside, fresh_single new,
    fun _ => List.cons_ne_nil _ _⟩
  · simpa using resumes.append_left (selector ++ before)
  · have inhabited : selector ++ before ≠ [] := by simp [word.ne_nil]
    simpa using steady_brace (s := t) (t := v ++ ['}']) inhabited

/-- The part of a branch behind its selector, and the branches behind it. -/
theorem selected_viable (ih : Viable n) {seen : List String} {word : List Char}
    (enough : (word ++ s).length < n + 1) (valid : SelectorWord word)
    (new : String.ofList word ∉ seen)
    (failed : (do
      let s ← require '{' (skipBlanks s)
      let (value, s) ← readMessage inPlural n s
      let s ← require '}' s
      let (options, s) ← readOptions inPlural n (String.ofList word :: seen) s
      .ok (.mk (String.ofList word) value :: options, s) :
        Except Fault (List Branch × List Char)) = .error fault) :
    BranchesResume inPlural seen (word ++ s) fault.rest := by
  obtain ⟨before, gap, blank⟩ := exists_blanks s
  rw [gap] at enough ⊢
  rcases bind_eq_error_iff.mp failed with unopened | ⟨t, opening, inner⟩
  · obtain ⟨-, rfl⟩ := require_eq_error_iff.mp unopened
    exact branch_viable valid blank .nil new (resumes_here _ _)
  rw [require_eq_ok_iff.mp opening] at enough ⊢
  have shorter : t.length < n := by
    simp only [List.length_append, List.length_cons] at enough
    omega
  rcases bind_eq_error_iff.mp inner with unread | ⟨⟨value, u⟩, message, ending⟩
  · obtain ⟨v, value, resumes, -, inside⟩ := ih.message shorter unread
    exact branch_viable valid blank inside new ((resumes.cons '{').append_right ['}'])
  obtain ⟨v, rfl, inside, -⟩ := ((recognizes n).message shorter).mp message
  rcases bind_eq_error_iff.mp ending with unclosed | ⟨t, closing, further⟩
  · obtain ⟨-, rfl⟩ := require_eq_error_iff.mp unclosed
    exact branch_viable valid blank inside new (resumes_of_append ('{' :: v) u ['}'])
  obtain rfl := require_eq_ok_iff.mp closing
  obtain ⟨after, gap', blank'⟩ := exists_blanks t
  rcases bind_eq_error_iff.mp further with later | ⟨_, -, read⟩
  · have shorter' : t.length < n := by
      simp only [List.length_append, List.length_cons] at shorter
      omega
    obtain ⟨w, options, resumes, -, rest, fresh, -⟩ := ih.options shorter' later
    refine ⟨_, _, ?_, ?_, .cons valid blank inside blank' rest, fresh_cons.mpr ⟨new, fresh⟩,
      fun _ => List.cons_ne_nil _ _⟩
    · rw [gap']
      simpa using resumes.append_left (word ++ before ++ '{' :: v ++ '}' :: after)
    · have inhabited : word ++ before ≠ [] := by simp [valid.ne_nil]
      simpa using steady_brace (s := '{' :: (v ++ '}' :: t)) (t := v ++ '}' :: (after ++ w))
        inhabited
  · exact absurd read (by simp)

theorem endOptions_eq_error_iff {seen : List String} :
    readOptions.endOptions seen s = .error fault ↔
      seen = [] ∧ fault = ⟨.expected .someOption, s⟩ := by
  rw [readOptions.endOptions]
  cases seen with
  | nil => simp
  | cons selector seen => simp

theorem options_succ (ih : Viable n) {seen : List String} (enough : s.length < n + 1)
    (failed : readOptions inPlural (n + 1) seen s = .error fault) :
    BranchesResume inPlural seen (skipBlanks s) fault.rest := by
  rw [readOptions] at failed
  split at failed
  · rename_i start
    obtain ⟨-, rfl⟩ := endOptions_eq_error_iff.mp failed
    rw [start]
    exact missing_viable seen []
  · rename_i rest start
    obtain ⟨-, rfl⟩ := endOptions_eq_error_iff.mp failed
    rw [start]
    exact missing_viable seen ('}' :: rest)
  rcases bind_eq_error_iff.mp failed with unselected | ⟨⟨selector, t⟩, first, behind⟩
  · rcases exists_number unselected seen with here | ⟨digits, resumes, number, new⟩
    · rw [here]
      exact missing_viable seen _
    · refine ⟨_, _, ?_, ?_, .single (.exact number) blanks_nil .nil, fresh_single new,
        fun _ => List.cons_ne_nil _ _⟩
      · simpa using resumes.append_right ['{', '}']
      · exact steady_of_wordless (by simp [offsetWord]) (stops_cons.mpr (by decide))
  obtain ⟨word, front, valid, rfl⟩ := exists_selectorWord first
  simp only at behind
  split at behind
  · -- A repeated selector is refused where it starts, where branches may end.
    obtain rfl := Except.error.inj behind
    exact missing_viable seen _
  · rename_i new
    obtain ⟨blanks, whole, -⟩ := exists_blanks s
    rw [whole, List.length_append] at enough
    rw [front] at enough ⊢
    exact ih.selected_viable (Nat.lt_of_le_of_lt (Nat.le_add_left _ _) enough) valid
      (by simpa using new) behind

end Viable

/-- Every counter is enough for the texts below it. -/
theorem viable (n : Nat) : Viable n := by
  induction n with
  | zero => constructor <;> exact fun short => absurd short (Nat.not_lt_zero _)
  | succ n ih =>
      exact ⟨ih.message_succ, ih.argument_succ, ih.body_succ, ih.options_succ⟩

/-! ### Whole texts -/

/-- What is in front of a fault is the beginning of a message. -/
theorem exists_message {text : List Char} {fault : Fault} (failed : readAll text = .error fault) :
    ∃ before completion message, text = before ++ fault.rest ∧
      MessageWord false (before ++ completion) message := by
  rcases bind_eq_error_iff.mp failed with unread | ⟨⟨message, rest⟩, read, leftover⟩
  · obtain ⟨_, message, ⟨before, completion, whole, rfl⟩, -, word⟩ :=
      (viable _).message (Nat.lt_succ_self _) unread
    exact ⟨before, completion, message, whole, word⟩
  · simp only at leftover
    split at leftover
    · exact absurd leftover (by simp)
    · obtain ⟨w, whole, word, -⟩ := ((recognizes _).message (Nat.lt_succ_self _)).mp read
      rw [unexpected_eq_error_iff.mp leftover]
      exact ⟨w, [], message, whole, by rwa [List.append_nil]⟩

/-- The last line of a text is what is behind its last line feed. -/
theorem exists_lastLine (s : List Char) :
    ∃ lines last, s = lines ++ last ∧ (lines = [] ∨ lines.getLast? = some '\n') ∧
      '\n' ∉ last ∧ columnAfter s = 1 + last.length := by
  rcases split : takeRun (· != '\n') s.reverse with ⟨last, lines⟩
  obtain ⟨whole, member, stops⟩ := takeRun_eq_iff.mp split
  refine ⟨lines.reverse, last.reverse, ?_, ?_, ?_, ?_⟩
  · rw [← List.reverse_append, ← whole, List.reverse_reverse]
  · cases lines with
    | nil => exact .inl rfl
    | cons c lines =>
        have feed : c = '\n' := by simpa using stops_cons.mp stops
        simp [feed]
  · intro here
    exact absurd (member _ (List.mem_reverse.mp here)) (by decide)
  · obtain ⟨rfl, -⟩ := Prod.mk.inj split
    rw [columnAfter, List.length_reverse, Nat.add_comm]

theorem locate_append (before : List Char) (fault : Fault) :
    fault.locate (before ++ fault.rest) =
      ⟨fault.message, byteLength before, lineAfter before, columnAfter before⟩ := by
  have front : (before ++ fault.rest).take ((before ++ fault.rest).length - fault.rest.length) =
      before := by
    rw [List.length_append, Nat.add_sub_cancel, List.take_left]
  rw [Fault.locate, front]

theorem parse_eq_error_iff {text : String} {diagnostic : Diagnostic} :
    parse text = .error diagnostic ↔
      ∃ fault, readAll text.toList = .error fault ∧ fault.locate text.toList = diagnostic := by
  rw [parse]
  cases readAll text.toList with
  | error fault => simp [Except.mapError]
  | ok message => simp [Except.mapError]

/-- A text is never refused later than where it goes wrong. The diagnostic gives the place as
an offset between two characters of the text, with its line and its column, and some message
starts with the text in front of it. -/
theorem parse_error_viable (text : String) (diagnostic : Diagnostic)
    (failed : parse text = .error diagnostic) :
    ∃ before rest : String, text = before ++ rest ∧
      diagnostic.offset = before.utf8ByteSize ∧
      diagnostic.offset ≤ text.utf8ByteSize ∧
      (String.Pos.Raw.mk diagnostic.offset).IsValid text ∧
      diagnostic.line = 1 + before.toList.count '\n' ∧
      (∃ lines last : List Char, before.toList = lines ++ last ∧
        (lines = [] ∨ lines.getLast? = some '\n') ∧ '\n' ∉ last ∧
        diagnostic.column = 1 + last.length) ∧
      ∃ completion message, parse (before ++ completion) = .ok message := by
  obtain ⟨fault, unread, rfl⟩ := parse_eq_error_iff.mp failed
  obtain ⟨before, completion, message, whole, word⟩ := exists_message unread
  have same : text = String.ofList before ++ String.ofList fault.rest := by
    rw [← String.toList_inj, String.toList_append, String.toList_ofList, String.toList_ofList,
      whole]
  have offset : (fault.locate text.toList).offset = (String.ofList before).utf8ByteSize := by
    rw [whole, locate_append]
    exact byteLength_eq_utf8ByteSize before
  have valid : (String.Pos.Raw.mk (fault.locate text.toList).offset).IsValid text :=
    String.Pos.Raw.isValid_iff_exists_append.mpr ⟨_, _, same, by rw [offset]; rfl⟩
  refine ⟨_, _, same, offset, valid.le_utf8ByteSize, valid, ?_, ?_, ?_⟩
  · rw [whole, locate_append, String.toList_ofList, lineAfter, Nat.add_comm]
  · rw [whole, locate_append, String.toList_ofList]
    exact exists_lastLine before
  · refine ⟨String.ofList completion, message, parse_eq_ok_iff.mpr (readAll_eq_ok_iff.mpr ?_)⟩
    rwa [String.toList_append, String.toList_ofList, String.toList_ofList]

/-- A selector that is used again is refused where it starts, behind a letter of two bytes
and a line feed. -/
theorem parse_error_viable_repeated :
    parse "é\n\x7bn, plural, =1 \x7b\x7d =1" =
        .error ⟨"Duplicate option selector \"=1\".", 21, 2, 19⟩ ∧
      ∃ before rest : String, "é\n\x7bn, plural, =1 \x7b\x7d =1" = before ++ rest ∧
        21 = before.utf8ByteSize ∧
        21 ≤ "é\n\x7bn, plural, =1 \x7b\x7d =1".utf8ByteSize ∧
        (String.Pos.Raw.mk 21).IsValid "é\n\x7bn, plural, =1 \x7b\x7d =1" ∧
        2 = 1 + before.toList.count '\n' ∧
        (∃ lines last : List Char, before.toList = lines ++ last ∧
          (lines = [] ∨ lines.getLast? = some '\n') ∧ '\n' ∉ last ∧ 19 = 1 + last.length) ∧
        ∃ completion message, parse (before ++ completion) = .ok message := by
  have letters : "é\n\x7bn, plural, =1 \x7b\x7d =1".toList =
      ['é', '\n', '{', 'n', ',', ' ', 'p', 'l', 'u', 'r', 'a', 'l', ',', ' ', '=', '1', ' ',
        '{', '}', ' ', '=', '1'] := by
    decide
  have failed : parse "é\n\x7bn, plural, =1 \x7b\x7d =1" =
      .error ⟨"Duplicate option selector \"=1\".", 21, 2, 19⟩ := by
    refine parse_eq_error_iff.mpr ⟨⟨.repeatedSelector "=1", ['=', '1']⟩, ?_, ?_⟩
    · rw [letters]
      rfl
    · rw [letters]
      decide
  exact ⟨failed, parse_error_viable _ _ failed⟩

end Message

end MessageCatalog
