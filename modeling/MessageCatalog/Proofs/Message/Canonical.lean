import MessageCatalog.Proofs.Message.RoundTrip

/-!
# Canonical texts

The canonical text of a message that could have been read determines the message, masked
arguments included: what follows a name, a type word, a selector or an offset never goes
on with the same class of characters, so two equal texts split at the same places. This
does not use the reader, which does not recognise every canonical text.

Bringing a text into canonical form a second time therefore changes nothing exactly if
no argument of its message is masked.
-/

namespace MessageCatalog

namespace Message

open Text

/-! ### Splitting canonical texts -/

section Splitting

variable {inPlural : Bool} {r r' s s' : List Char}

theorem Element.Shaped.head {element : Element} (shaped : element.Shaped inPlural) :
    ∃ c t, printElement inPlural element = c :: t ∧ c ≠ '}' ∧
      endsText inPlural c = !element.isLiteral := by
  cases element with
  | literal text =>
      obtain ⟨c, t, whole, ordinary⟩ := (escapeText_word inPlural text.toList).head
        (fun empty => shaped (String.toList_eq_nil_iff.mp empty))
      exact ⟨c, t, whole, (endsText_eq_false_iff.mp ordinary).2.1, ordinary⟩
  | pound =>
      obtain rfl : inPlural = true := shaped
      exact ⟨'#', [], rfl, by decide, rfl⟩
  | argument => exact ⟨'{', _, rfl, by decide, rfl⟩
  | formatted => exact ⟨'{', _, printElement_formatted, by decide, rfl⟩
  | plural => exact ⟨'{', _, printElement_plural, by decide, rfl⟩
  | select => exact ⟨'{', _, printElement_select, by decide, rfl⟩

theorem Shaped.interrupts {message : Message} (shaped : Shaped inPlural message)
    (bare : StartsBare message) (closes : Closes r) :
    Interrupts inPlural (printElements inPlural message ++ r) := by
  cases message with
  | nil =>
      intro c hc
      rw [closes c hc]
      simp [endsText]
  | cons element message =>
      obtain ⟨c, t, whole, -, ends⟩ := shaped.1.head
      rw [printElements, whole, List.cons_append, List.cons_append, interrupts_cons, ends,
        bare element rfl]
      rfl

theorem SelectorWord.ink {w : List Char} (word : SelectorWord w) :
    ∀ c ∈ w, (!isBlank c) = true := by
  cases word with
  | exact number =>
      intro c hc
      rcases List.mem_cons.mp hc with rfl | hc
      · decide
      · simp [isBlank_of_isDigit (number.2 c hc)]
  | keyword name =>
      intro c hc
      simp [(isNameChar_iff.mp (name.2 c hc)).1]

theorem SelectorWord.head_ne_brace {w : List Char} (word : SelectorWord w) :
    ∃ c t, w = c :: t ∧ c ≠ '{' := by
  cases word with
  | exact => exact ⟨'=', _, rfl, by decide⟩
  | keyword name =>
      cases w with
      | nil => exact absurd rfl name.1
      | cons c t =>
          refine ⟨c, t, rfl, ?_⟩
          rintro rfl
          exact (isNameChar_iff.mp (name.2 _ List.mem_cons_self)).2 (by simp)

/-- Selectors and offsets end at the next blank. -/
theorem ink_split {w w' : List Char} (ink : ∀ c ∈ w, (!isBlank c) = true)
    (ink' : ∀ c ∈ w', (!isBlank c) = true) (same : w ++ ' ' :: s = w' ++ ' ' :: s') :
    w = w' ∧ s = s' := by
  obtain ⟨rfl, rest⟩ := run_split ink (stops_cons.mpr rfl) ink' (stops_cons.mpr rfl) same
  exact ⟨rfl, (List.cons_eq_cons.mp rest).2⟩

theorem name_split {name name' : String} (named : IsName name) (named' : IsName name')
    (stops : Stops isNameChar s) (stops' : Stops isNameChar s')
    (same : name.toList ++ s = name'.toList ++ s') : name = name' ∧ s = s' := by
  obtain ⟨rfl, rest⟩ := (run_split named.2 stops named'.2 stops' same).imp
    String.toList_inj.mp id
  exact ⟨rfl, rest⟩

theorem offset_ink (n : Nat) : ∀ c ∈ offsetWord ++ n.repr.toList, (!isBlank c) = true := by
  have ink : ∀ c ∈ offsetWord, (!isBlank c) = true := List.all_eq_true.mp (by decide)
  intro c hc
  rcases List.mem_append.mp hc with hc | hc
  · exact ink c hc
  · simp [isBlank_of_isDigit ((run_isDigit_repr n).2 c hc)]

/-- A number stands in front of the first selector exactly if the offset is not zero, and
a selector is never followed by another one. -/
theorem offsetClause_split {offset offset' : Int} {w w' : List Char} (nonneg : 0 ≤ offset)
    (nonneg' : 0 ≤ offset') (word : SelectorWord w) (word' : SelectorWord w')
    (same : offsetClause offset ++ ' ' :: (w ++ ' ' :: '{' :: s) =
      offsetClause offset' ++ ' ' :: (w' ++ ' ' :: '{' :: s')) :
    offset = offset' ∧ w = w' ∧ s = s' := by
  have apart {v v' t t' : List Char} {n : Nat} (first : SelectorWord v)
      (second : SelectorWord v') :
      v ++ ' ' :: '{' :: t ≠ offsetWord ++ n.repr.toList ++ ' ' :: (v' ++ t') := by
    intro same
    obtain ⟨-, rest⟩ := ink_split first.ink (offset_ink n) same
    obtain ⟨c, u, rfl, brace⟩ := second.head_ne_brace
    exact brace (List.cons_eq_cons.mp rest).1.symm
  by_cases zero : offset = 0
  · by_cases zero' : offset' = 0
    · subst zero zero'
      obtain ⟨rfl, rest⟩ := ink_split word.ink word'.ink (List.cons_eq_cons.mp same).2
      exact ⟨rfl, rfl, (List.cons_eq_cons.mp rest).2⟩
    · rw [zero, offsetClause_of_nonneg nonneg' zero'] at same
      exact absurd (List.cons_eq_cons.mp same).2 (apart word word')
  · by_cases zero' : offset' = 0
    · rw [zero', offsetClause_of_nonneg nonneg zero] at same
      exact absurd (List.cons_eq_cons.mp same).2.symm (apart word' word)
    · rw [offsetClause_of_nonneg nonneg zero, offsetClause_of_nonneg nonneg' zero'] at same
      obtain ⟨number, branches⟩ :=
        ink_split (offset_ink _) (offset_ink _) (List.cons_eq_cons.mp same).2
      obtain ⟨rfl, rest⟩ := ink_split word.ink word'.ink branches
      have digits := congrArg digitsValue (List.append_cancel_left number)
      rw [digitsValue_repr, digitsValue_repr] at digits
      exact ⟨by omega, rfl, (List.cons_eq_cons.mp rest).2⟩

theorem styleClause_split {style style' : Option String}
    (valid : ∀ written ∈ style, IsStyle written) (valid' : ∀ written ∈ style', IsStyle written)
    (same : styleClause style ++ '}' :: r = styleClause style' ++ '}' :: r') :
    style = style' ∧ r = r' := by
  have braceless {written : String} (h : IsStyle written) :
      ∀ c ∈ written.toList, (c != '}') = true := by
    intro c hc
    simpa using (h.2.2 c hc).2
  cases style with
  | none =>
      cases style' with
      | none => exact ⟨rfl, (List.cons_eq_cons.mp same).2⟩
      | some style' => exact absurd (List.cons_eq_cons.mp same).1 (by decide)
  | some style =>
      cases style' with
      | none => exact absurd (List.cons_eq_cons.mp same).1 (by decide)
      | some style' =>
          have texts : style.toList ++ '}' :: r = style'.toList ++ '}' :: r' := by
            simpa [styleClause] using same
          obtain ⟨text, rest⟩ := run_split (braceless (valid style rfl)) (stops_cons.mpr rfl)
            (braceless (valid' style' rfl)) (stops_cons.mpr rfl) texts
          obtain rfl := String.toList_inj.mp text
          exact ⟨rfl, (List.cons_eq_cons.mp rest).2⟩

/-- A style begins after a comma, and an argument without one is at its end. -/
theorem styleClause_stops (style : Option String) :
    Stops isTypeLetter (styleClause style ++ '}' :: r) := by
  cases style <;> exact stops_cons.mpr (by decide)

theorem typed_split {name name' : String} {word : List Char} (named : IsName name)
    (named' : IsName name')
    (same : '{' :: (name.toList ++ ',' :: ' ' :: (word ++ s)) ++ ['}'] ++ r =
      '{' :: (name'.toList ++ ',' :: ' ' :: (word ++ s')) ++ ['}'] ++ r') :
    name = name' ∧ s ++ '}' :: r = s' ++ '}' :: r' := by
  simp only [List.append_assoc, List.cons_append, List.nil_append] at same
  obtain ⟨rfl, rest⟩ := name_split named named' (stops_cons.mpr rfl) (stops_cons.mpr rfl)
    (List.cons_eq_cons.mp same).2
  have behind := (List.cons_eq_cons.mp (List.cons_eq_cons.mp rest).2).2
  exact ⟨rfl, List.append_cancel_left behind⟩

end Splitting

/-! ### The form of an element -/

/-- Which alternative of the grammar an element is. -/
inductive Element.Form where
  | literal
  | pound
  | argument
  | formatted (kind : FormatKind)
  | plural (kind : PluralKind)
  | select

/-- The form of an element. -/
def Element.form : Element → Form
  | .literal _ => .literal
  | .pound => .pound
  | .argument _ => .argument
  | .formatted _ kind _ => .formatted kind
  | .plural _ kind _ _ => .plural kind
  | .select _ _ => .select

/-- The form that the first characters of a canonical text announce. -/
def announced (inPlural : Bool) : List Char → Element.Form
  | '{' :: s =>
    match (takeRun isNameChar s).2 with
    | ',' :: ' ' :: s =>
      let word := String.ofList (takeRun isTypeLetter s).1
      match FormatKind.ofWord? word, PluralKind.ofWord? word with
      | some kind, _ => .formatted kind
      | none, some kind => .plural kind
      | none, none => .select
    | _ => .argument
  | '#' :: _ => if inPlural then .pound else .literal
  | _ => .literal

section Forms

variable {inPlural : Bool} {s r : List Char}

theorem announced_typed {name word : String} (named : IsName name)
    (letters : Run isTypeLetter word.toList) (stops : Stops isTypeLetter s) :
    announced inPlural ('{' :: (name.toList ++ ',' :: ' ' :: (word.toList ++ s))) =
      match FormatKind.ofWord? word, PluralKind.ofWord? word with
      | some kind, _ => .formatted kind
      | none, some kind => .plural kind
      | none, none => .select := by
  have comma : Stops isNameChar (',' :: ' ' :: (word.toList ++ s)) := stops_cons.mpr rfl
  simp only [announced, takeRun_append named.2 comma, takeRun_append letters.2 stops,
    String.ofList_toList]

theorem Element.Shaped.announced {element : Element} (shaped : element.Shaped inPlural)
    (r : List Char) :
    announced inPlural (printElement inPlural element ++ r) = element.form := by
  cases element with
  | literal text =>
      obtain ⟨c, t, whole, ordinary⟩ := (escapeText_word inPlural text.toList).head
        (fun empty => shaped (String.toList_eq_nil_iff.mp empty))
      obtain ⟨opening, -, sign⟩ := endsText_eq_false_iff.mp ordinary
      rw [printElement, whole, List.cons_append, Message.announced.eq_def]
      split
      · rename_i h
        exact absurd (List.cons_eq_cons.mp h).1 opening
      · rename_i h
        cases inPlural with
        | false => rfl
        | true => exact absurd (List.cons_eq_cons.mp h).1 (sign rfl)
      · rfl
  | pound =>
      obtain rfl : inPlural = true := shaped
      rfl
  | argument name =>
      have closing : Stops isNameChar ('}' :: r) := stops_cons.mpr rfl
      simp only [printElement, List.append_assoc, List.cons_append, List.nil_append,
        Message.announced, takeRun_append shaped.2 closing]
      rfl
  | formatted name kind style =>
      rw [printElement_formatted]
      simp only [List.append_assoc, List.cons_append, List.nil_append]
      rw [announced_typed shaped.1 kind.letters (styleClause_stops style),
        FormatKind.ofWord?_word]
      rfl
  | plural name kind =>
      rw [printElement_plural]
      simp only [List.append_assoc, List.cons_append, List.nil_append]
      rw [announced_typed shaped.1 kind.letters (stops_cons.mpr rfl),
        PluralKind.ofWord?_word]
      cases kind <;> rfl
  | select name options =>
      rw [printElement_select]
      simp only [List.append_assoc, List.cons_append, List.nil_append]
      rw [announced_typed shaped.1 letters_select (stops_cons.mpr rfl)]
      rfl

end Forms

/-! ### The printer is injective -/

/-- The offset is told apart from the first selector. -/
theorem offset_split {offset offset' : Int} {options options' : List Branch} {r r' : List Char}
    (nonneg : 0 ≤ offset) (nonneg' : 0 ≤ offset') (choice : IsChoice options)
    (choice' : IsChoice options')
    (same : offsetClause offset ++ (printOptions true options ++ '}' :: r) =
      offsetClause offset' ++ (printOptions true options' ++ '}' :: r')) :
    offset = offset' ∧
      printOptions true options ++ '}' :: r = printOptions true options' ++ '}' :: r' := by
  cases options with
  | nil => exact absurd rfl choice.1
  | cons option options =>
      cases options' with
      | nil => exact absurd rfl choice'.1
      | cons option' options' =>
          simp only [printOptions_cons, List.append_assoc, List.cons_append] at same ⊢
          obtain ⟨rfl, word, rest⟩ := offsetClause_split nonneg nonneg'
            (choice.2.2 _ List.mem_cons_self) (choice'.2.2 _ List.mem_cons_self) same
          exact ⟨rfl, by rw [word, rest]⟩

mutual

theorem Element.Shaped.split {p : Bool} {r r' : List Char} : ∀ (element element' : Element),
    element.Shaped p → element'.Shaped p → (element.isLiteral = true → Interrupts p r) →
    (element'.isLiteral = true → Interrupts p r') →
    printElement p element ++ r = printElement p element' ++ r' →
    element.form = element'.form → element = element' ∧ r = r'
  | .literal text, element', _, _, ends, ends', same, form => by
      cases element' with
      | literal text' =>
          obtain ⟨texts, rest⟩ := (escapeText_word p text.toList).unique (ends rfl)
            (escapeText_word p text'.toList) (ends' rfl) same
          exact ⟨congrArg Element.literal (String.toList_inj.mp texts), rest⟩
      | _ => cases form
  | .pound, element', _, _, _, _, same, form => by
      cases element' with
      | pound => exact ⟨rfl, (List.cons_eq_cons.mp same).2⟩
      | _ => cases form
  | .argument name, element', named, shaped', _, _, same, form => by
      cases element' with
      | argument name' =>
          simp only [printElement, List.append_assoc, List.cons_append, List.nil_append] at same
          obtain ⟨rfl, rest⟩ := name_split named shaped' (stops_cons.mpr rfl)
            (stops_cons.mpr rfl) (List.cons_eq_cons.mp same).2
          exact ⟨rfl, (List.cons_eq_cons.mp rest).2⟩
      | _ => cases form
  | .formatted name kind style, element', shaped, shaped', _, _, same, form => by
      cases element' with
      | formatted name' kind' style' =>
          cases form
          rw [printElement_formatted, printElement_formatted] at same
          obtain ⟨rfl, behind⟩ := typed_split shaped.1 shaped'.1 same
          obtain ⟨rfl, rest⟩ := styleClause_split shaped.2 shaped'.2 behind
          exact ⟨rfl, rest⟩
      | _ => cases form
  | .plural name kind offset options, element', ⟨named, nonneg, _, choice, inside⟩, shaped', _,
      _, same, form => by
      cases element' with
      | plural name' kind' offset' options' =>
          obtain ⟨named', nonneg', -, choice', inside'⟩ := shaped'
          cases form
          rw [printElement_plural, printElement_plural] at same
          obtain ⟨rfl, behind⟩ := typed_split named named' same
          simp only [List.append_assoc, List.cons_append] at behind
          obtain ⟨rfl, branches⟩ := offset_split nonneg nonneg' choice choice'
            (List.cons_eq_cons.mp behind).2
          obtain ⟨rfl, rest⟩ := ShapedOptions.split options options' inside inside'
            choice.2.2 choice'.2.2 branches
          exact ⟨rfl, rest⟩
      | _ => cases form
  | .select name options, element', ⟨named, choice, inside⟩, shaped', _, _, same, form => by
      cases element' with
      | select name' options' =>
          obtain ⟨named', choice', inside'⟩ := shaped'
          rw [printElement_select, printElement_select] at same
          obtain ⟨rfl, behind⟩ := typed_split named named' same
          obtain ⟨rfl, rest⟩ := ShapedOptions.split options options' inside inside'
            choice.2.2 choice'.2.2 (List.cons_eq_cons.mp behind).2
          exact ⟨rfl, rest⟩
      | _ => cases form

theorem Branch.Shaped.split {p : Bool} {r r' : List Char} : ∀ (option option' : Branch),
    option.Shaped p → option'.Shaped p →
    printElements p option.value ++ '}' :: r = printElements p option'.value ++ '}' :: r' →
    option.value = option'.value ∧ r = r'
  | .mk _ value, .mk _ value', shaped, shaped', same => by
      obtain ⟨rfl, rest⟩ := Shaped.split value value' shaped shaped'
        (closes_cons.mpr rfl) (closes_cons.mpr rfl) same
      exact ⟨rfl, (List.cons_eq_cons.mp rest).2⟩

theorem Shaped.split {p : Bool} {r r' : List Char} : ∀ (message message' : List Element),
    Shaped p message → Shaped p message' → Closes r → Closes r' →
    printElements p message ++ r = printElements p message' ++ r' → message = message' ∧ r = r'
  | [], [], _, _, _, _, same => ⟨rfl, same⟩
  | [], element' :: message', _, shaped', closes, _, same => by
      obtain ⟨c, t, whole, ordinary, -⟩ := shaped'.1.head
      rw [printElements, printElements, whole, List.nil_append] at same
      subst same
      exact absurd (closes_cons.mp closes) ordinary
  | element :: message, [], shaped, _, _, closes', same => by
      obtain ⟨c, t, whole, ordinary, -⟩ := shaped.1.head
      rw [printElements, printElements, whole, List.nil_append] at same
      subst same
      exact absurd (closes_cons.mp closes') ordinary
  | element :: message, element' :: message', ⟨first, alone, rest⟩, ⟨first', alone', rest'⟩,
      closes, closes', same => by
      simp only [printElements, List.append_assoc] at same
      have form := first.announced (printElements p message ++ r)
      rw [same, first'.announced] at form
      obtain ⟨rfl, same'⟩ := Element.Shaped.split element element' first first'
        (fun literal => rest.interrupts (alone literal) closes)
        (fun literal => rest'.interrupts (alone' literal) closes') same form.symm
      obtain ⟨rfl, same''⟩ := Shaped.split message message' rest rest' closes closes' same'
      exact ⟨rfl, same''⟩

theorem ShapedOptions.split {p : Bool} {r r' : List Char} : ∀ (options options' : List Branch),
    ShapedOptions p options → ShapedOptions p options' →
    (∀ option ∈ options, SelectorWord option.selector.toList) →
    (∀ option ∈ options', SelectorWord option.selector.toList) →
    printOptions p options ++ '}' :: r = printOptions p options' ++ '}' :: r' →
    options = options' ∧ r = r'
  | [], [], _, _, _, _, same => ⟨rfl, (List.cons_eq_cons.mp same).2⟩
  | [], option' :: options', _, _, _, _, same => by
      rw [printOptions_cons] at same
      exact absurd (List.cons_eq_cons.mp same).1 (by decide)
  | option :: options, [], _, _, _, _, same => by
      rw [printOptions_cons] at same
      exact absurd (List.cons_eq_cons.mp same).1 (by decide)
  | .mk selector value :: options, .mk selector' value' :: options', shaped, shaped', words,
      words', same => by
      simp only [printOptions_cons, Branch.selector_mk, Branch.value_mk, List.append_assoc,
        List.cons_append] at same
      obtain ⟨name, behind⟩ := ink_split (words _ List.mem_cons_self).ink
        (words' _ List.mem_cons_self).ink (List.cons_eq_cons.mp same).2
      obtain rfl := String.toList_inj.mp name
      obtain ⟨inside, more⟩ := Branch.Shaped.split (.mk selector value) (.mk selector value')
        shaped.1 shaped'.1 (List.cons_eq_cons.mp behind).2
      obtain rfl : value = value' := inside
      obtain ⟨rfl, rest⟩ := ShapedOptions.split options options' shaped.2 shaped'.2
        (fun option here => words option (List.mem_cons_of_mem _ here))
        (fun option here => words' option (List.mem_cons_of_mem _ here)) more
      exact ⟨rfl, rest⟩

end

/-- The printer is injective on what the reader returns. -/
theorem print_injective {message message' : Message} (shaped : Shaped false message)
    (shaped' : Shaped false message') (same : print message = print message') :
    message = message' := by
  have closes : Closes [] := by simp [Closes]
  have texts : printElements false message ++ [] = printElements false message' ++ [] := by
    rw [String.ofList_injective same]
  exact (Shaped.split message message' shaped shaped' closes closes texts).1

/-! ### Canonical texts of texts -/

theorem parse_shaped {text : String} {message : Message} (read : parse text = .ok message) :
    Shaped false message :=
  (readAll_eq_ok_iff.mp (parse_eq_ok_iff.mp read)).shaped

theorem canonicalize_of_parse {text : String} {message : Message}
    (read : parse text = .ok message) : canonicalize text = .ok (print message) := by
  rw [canonicalize, read]
  rfl

theorem exists_parse_of_canonicalize {text canonical : String}
    (h : canonicalize text = .ok canonical) :
    ∃ message, parse text = .ok message ∧ canonical = print message := by
  rw [canonicalize] at h
  cases read : parse text with
  | error fault => exact absurd h (by simp [read, Except.map])
  | ok message =>
      rw [read] at h
      exact ⟨message, rfl, (Except.ok.inj h).symm⟩

/-- Every message that is read is also read back from its canonical text, and this text
is its own canonical form, as long as no argument of the message is masked. With a masked
argument, both fail. -/
theorem canonical_iff_unmasked {text : String} {message : Message}
    (read : parse text = .ok message) :
    (parse (print message) = .ok message ↔ Unmasked message) ∧
      ((canonicalize text >>= canonicalize) = canonicalize text ↔ Unmasked message) := by
  have shaped := parse_shaped read
  have back : parse (print message) = .ok message ↔ Unmasked message := by
    rw [parse_print_eq_ok_iff, readAll_eq_ok_iff]
    exact ⟨fun word => word.visible_le.2 (Nat.le_refl _), printElements_word message shaped⟩
  refine ⟨back, ?_⟩
  rw [canonicalize_of_parse read, ok_bind, ← back]
  constructor
  · intro again
    obtain ⟨message', reread, same⟩ := exists_parse_of_canonicalize again
    rw [print_injective shaped (parse_shaped reread) same] at reread ⊢
    exact reread
  · exact canonicalize_of_parse

theorem canonical_iff_unmasked_counted :
    parse "{n, plural, offset:1 offset:x {a}}" =
        .ok [.plural "n" .cardinal 1 [.mk "offset:x" [.literal "a"]]] ∧
      (parse (print [.plural "n" .cardinal 1 [.mk "offset:x" [.literal "a"]]]) =
          .ok [.plural "n" .cardinal 1 [.mk "offset:x" [.literal "a"]]] ↔
        Unmasked [.plural "n" .cardinal 1 [.mk "offset:x" [.literal "a"]]]) ∧
      ((canonicalize "{n, plural, offset:1 offset:x {a}}" >>= canonicalize) =
          canonicalize "{n, plural, offset:1 offset:x {a}}" ↔
        Unmasked [.plural "n" .cardinal 1 [.mk "offset:x" [.literal "a"]]]) := by
  have letters : "{n, plural, offset:1 offset:x {a}}".toList =
      ['{', 'n', ',', ' ', 'p', 'l', 'u', 'r', 'a', 'l', ',', ' ', 'o', 'f', 'f', 's', 'e', 't',
        ':', '1', ' ', 'o', 'f', 'f', 's', 'e', 't', ':', 'x', ' ', '{', 'a', '}', '}'] := by
    decide
  have read : parse "{n, plural, offset:1 offset:x {a}}" =
      .ok [.plural "n" .cardinal 1 [.mk "offset:x" [.literal "a"]]] := by
    rw [parse_eq_ok_iff, letters]
    rfl
  exact ⟨read, canonical_iff_unmasked read⟩

/-- An offset of zero is not written, so the selector behind it is read as the beginning
of an offset clause. -/
theorem canonical_of_masked_rejected :
    ∃ message, parse "{n, plural, offset:0 offset:x {a}}" = .ok message ∧
      (∀ message', parse (print message) ≠ .ok message') ∧
      (canonicalize "{n, plural, offset:0 offset:x {a}}" >>= canonicalize) ≠
        canonicalize "{n, plural, offset:0 offset:x {a}}" := by
  have letters : "{n, plural, offset:0 offset:x {a}}".toList =
      ['{', 'n', ',', ' ', 'p', 'l', 'u', 'r', 'a', 'l', ',', ' ', 'o', 'f', 'f', 's', 'e', 't',
        ':', '0', ' ', 'o', 'f', 'f', 's', 'e', 't', ':', 'x', ' ', '{', 'a', '}', '}'] := by
    decide
  have read : parse "{n, plural, offset:0 offset:x {a}}" =
      .ok [.plural "n" .cardinal 0 [.mk "offset:x" [.literal "a"]]] := by
    rw [parse_eq_ok_iff, letters]
    rfl
  have printed : printElements false [.plural "n" .cardinal 0 [.mk "offset:x" [.literal "a"]]] =
      ['{', 'n', ',', ' ', 'p', 'l', 'u', 'r', 'a', 'l', ',', ' ', 'o', 'f', 'f', 's', 'e', 't',
        ':', 'x', ' ', '{', 'a', '}', '}'] := rfl
  have rejected (message' : Message) :
      parse (print [.plural "n" .cardinal 0 [.mk "offset:x" [.literal "a"]]]) ≠ .ok message' := by
    rw [ne_eq, parse_print_eq_ok_iff, printed]
    intro accepted
    cases accepted
  refine ⟨_, read, rejected, ?_⟩
  rw [canonicalize_of_parse read, ok_bind]
  intro again
  obtain ⟨message', reread, -⟩ := exists_parse_of_canonicalize again
  exact rejected message' reread

end Message

end MessageCatalog
