import MessageCatalog.Proofs.Message.Canonical
import MessageCatalog.Proofs.Text.Trim

/-!
# Blanks at the ends of canonical texts

The text of a message is trimmed before it is read, and the canonical text is not trimmed
again. It has a blank at an end exactly if the message begins or ends with one. A message
that is read in a trimmed text can do so, but only by way of a numeric escape: the escape is
undone when the text is read, and blanks are not escaped when it is written.
-/

namespace MessageCatalog

namespace Message

open Text

/-- The message begins with a blank. -/
def LeadsBlank (message : Message) : Prop :=
  ∃ text rest, message = .literal text :: rest ∧ ∃ c ∈ text.toList.head?, isBlank c = true

/-- The message ends with a blank. -/
def TrailsBlank (message : Message) : Prop :=
  ∃ front text, message = front ++ [.literal text] ∧
    ∃ c ∈ text.toList.getLast?, isBlank c = true

/-- The message consists of blanks. -/
def IsBlankText (message : Message) : Prop :=
  ∃ text, message = [.literal text] ∧ ∀ c ∈ text.toList, isBlank c = true

/-- The text has a numeric escape somewhere. -/
def Escapes (w : List Char) : Prop :=
  ['\\', 'u'] <:+: w

section Edges

variable {inPlural : Bool} {c : Char} {s v w text : List Char} {element : Element}
  {message front : Message}

/-! ### Texts that are written -/

theorem needsEscape_of_isBlank (blank : isBlank c = true) : needsEscape inPlural c = false := by
  rw [← Bool.not_eq_true]
  intro special
  simp only [needsEscape, Bool.or_eq_true, Bool.and_eq_true, beq_iff_eq] at special
  rcases special with ((rfl | rfl) | rfl) | ⟨-, rfl⟩ <;> exact absurd blank (by decide)

theorem escapeText_cons_of_isBlank (blank : isBlank c = true) (s : List Char) :
    escapeText inPlural (c :: s) = c :: escapeText inPlural s := by
  rw [escapeText, needsEscape_of_isBlank blank]
  exact if_neg Bool.false_ne_true

theorem mem_escapeText (inPlural : Bool) (here : c ∈ s) : c ∈ escapeText inPlural s := by
  induction s with
  | nil => exact absurd here List.not_mem_nil
  | cons d s ih =>
      rw [escapeText]
      rcases List.mem_cons.mp here with rfl | later
      · split <;> simp
      · split <;> simp [ih later]

theorem escapeText_eq_self (blank : ∀ c ∈ s, isBlank c = true) : escapeText inPlural s = s := by
  induction s with
  | nil => rfl
  | cons c s ih =>
      rw [escapeText_cons_of_isBlank (blank c List.mem_cons_self),
        ih fun d later => blank d (List.mem_cons_of_mem c later)]

/-- A blank in front is written as it is, and nothing else is written as a blank. -/
theorem escapeText_leads : (∃ c ∈ (escapeText inPlural s).head?, isBlank c = true) ↔
    ∃ c ∈ s.head?, isBlank c = true := by
  cases s with
  | nil => exact Iff.rfl
  | cons c s =>
      cases blank : isBlank c with
      | true => rw [escapeText_cons_of_isBlank blank]; rfl
      | false =>
          rw [escapeText]
          split
          · simp [blank, show isBlank '\\' = false by decide]
          · simp [blank]

theorem escapeText_getLast? (s : List Char) :
    (escapeText inPlural s).getLast? = s.getLast? := by
  induction s with
  | nil => rfl
  | cons c s ih =>
      rw [escapeText]
      split
      · rw [List.getLast?_cons, List.getLast?_cons, List.getLast?_cons, ih]
        cases s.getLast? <;> rfl
      · rw [List.getLast?_cons, List.getLast?_cons, ih]

/-- Elements other than text are written between marks. -/
theorem printElement_marked (inPlural : Bool) (bare : element.isLiteral = false) :
    ∃ first inner last, printElement inPlural element = first :: inner ∧
      (printElement inPlural element).getLast? = some last ∧
      isBlank first = false ∧ isBlank last = false := by
  have braced {inner : List Char} (whole : printElement inPlural element = '{' :: inner ++ ['}']) :
      ∃ first inner last, printElement inPlural element = first :: inner ∧
        (printElement inPlural element).getLast? = some last ∧
        isBlank first = false ∧ isBlank last = false :=
    ⟨'{', inner ++ ['}'], '}', whole, by rw [whole, List.getLast?_concat], by decide, by decide⟩
  cases element with
  | literal => exact absurd bare (by simp [Element.isLiteral])
  | pound => exact ⟨'#', [], '#', rfl, rfl, by decide, by decide⟩
  | argument => exact braced rfl
  | formatted => exact braced printElement_formatted
  | plural => exact braced printElement_plural
  | select => exact braced printElement_select

theorem printElements_append (inPlural : Bool) (front message : List Element) :
    printElements inPlural (front ++ message) =
      printElements inPlural front ++ printElements inPlural message := by
  induction front with
  | nil => rfl
  | cons element front ih =>
      rw [List.cons_append, printElements, ih, printElements, List.append_assoc]

theorem Shaped.of_append (shaped : Shaped inPlural (front ++ message)) :
    Shaped inPlural message := by
  induction front with
  | nil => exact shaped
  | cons element front ih => exact ih shaped.2.2

theorem exists_literal (literal : element.isLiteral = true) :
    ∃ text, element = .literal text := by
  cases element with
  | literal text => exact ⟨text, rfl⟩
  | _ => exact absurd literal (by simp [Element.isLiteral])

theorem escapeText_ne_nil (inPlural : Bool) {text : String} (inhabited : text ≠ "") :
    escapeText inPlural text.toList ≠ [] := by
  intro empty
  obtain ⟨c, here⟩ := List.exists_mem_of_ne_nil _ (mt String.toList_eq_nil_iff.mp inhabited)
  exact absurd (mem_escapeText inPlural here) (by simp [empty])

/-! ### Messages that are written -/

theorem leadsBlank_iff (shaped : Shaped inPlural message) :
    (∃ c ∈ (printElements inPlural message).head?, isBlank c = true) ↔ LeadsBlank message := by
  cases message with
  | nil => simp [printElements, LeadsBlank]
  | cons element message =>
      rw [printElements]
      cases literal : element.isLiteral with
      | false =>
          obtain ⟨first, inner, -, whole, -, visible, -⟩ := printElement_marked inPlural literal
          rw [whole, List.cons_append, List.head?_cons]
          refine iff_of_false (by simp [visible]) ?_
          rintro ⟨text, rest, same, -⟩
          obtain ⟨rfl, -⟩ := List.cons.inj same
          exact absurd literal (by simp [Element.isLiteral])
      | true =>
          obtain ⟨text, rfl⟩ := exists_literal literal
          have inhabited := List.isSome_head?.mpr (escapeText_ne_nil inPlural shaped.1)
          rw [printElement, List.head?_append, Option.or_of_isSome inhabited, escapeText_leads]
          constructor
          · intro blank
            exact ⟨text, message, rfl, blank⟩
          · rintro ⟨text', rest, same, blank⟩
            obtain ⟨same, -⟩ := List.cons.inj same
            obtain rfl := Element.literal.inj same
            exact blank

theorem trailsBlank_iff (shaped : Shaped inPlural message) :
    (∃ c ∈ (printElements inPlural message).getLast?, isBlank c = true) ↔
      TrailsBlank message := by
  obtain rfl | ⟨front, element, rfl⟩ := List.eq_nil_or_concat message
  · simp [printElements, TrailsBlank]
  rw [List.concat_eq_append] at shaped ⊢
  rw [printElements_append, printElements, printElements, List.append_nil]
  cases literal : element.isLiteral with
  | false =>
      obtain ⟨first, inner, last, -, ends, -, visible⟩ := printElement_marked inPlural literal
      rw [List.getLast?_append, ends, Option.some_or]
      refine iff_of_false (by simp [visible]) ?_
      rintro ⟨front', text, same, -⟩
      obtain ⟨-, same⟩ := List.append_inj' same rfl
      obtain ⟨rfl, -⟩ := List.cons.inj same
      exact absurd literal (by simp [Element.isLiteral])
  | true =>
      obtain ⟨text, rfl⟩ := exists_literal literal
      have inhabited := List.getLast?_isSome.mpr
        (escapeText_ne_nil inPlural shaped.of_append.1)
      rw [printElement, List.getLast?_append, Option.or_of_isSome inhabited, escapeText_getLast?]
      constructor
      · intro blank
        exact ⟨front, text, rfl, blank⟩
      · rintro ⟨front', text', same, blank⟩
        obtain ⟨-, same⟩ := List.append_inj' same rfl
        obtain ⟨same, -⟩ := List.cons.inj same
        obtain rfl := Element.literal.inj same
        exact blank

/-- What is written for a message that is not empty is blank only if the message is. -/
theorem isBlankText_iff (shaped : Shaped inPlural message) (inhabited : message ≠ []) :
    (∀ c ∈ printElements inPlural message, isBlank c = true) ↔ IsBlankText message := by
  have visible (rest : Message) {element : Element} (bare : element.isLiteral = false) :
      ¬ ∀ c ∈ printElements inPlural (element :: rest), isBlank c = true := by
    obtain ⟨first, inner, -, whole, -, ink, -⟩ := printElement_marked inPlural bare
    intro blank
    rw [printElements, whole] at blank
    exact absurd (blank first (by simp)) (by simp [ink])
  cases message with
  | nil => exact absurd rfl inhabited
  | cons element message =>
      constructor
      · intro blank
        have literal : element.isLiteral = true := by
          rw [← Bool.not_eq_false]
          intro bare
          exact visible message bare blank
        have alone : message = [] := by
          cases message with
          | nil => rfl
          | cons next message =>
              have bare := shaped.2.1 literal next rfl
              refine absurd ?_ (visible message bare)
              intro c here
              exact blank c (List.mem_append_right _ here)
        obtain ⟨text, rfl⟩ := exists_literal literal
        subst alone
        refine ⟨text, rfl, ?_⟩
        intro c here
        exact blank c (List.mem_append_left _ (mem_escapeText inPlural here))
      · rintro ⟨text, same, blank⟩
        rw [same, printElements, printElement, escapeText_eq_self blank, printElements,
          List.append_nil]
        exact blank

/-! ### Texts that are read -/

theorem Escapes.append_left (escapes : Escapes w) (v : List Char) : Escapes (v ++ w) :=
  escapes.trans (List.suffix_append v w).isInfix

theorem Escapes.append_right (escapes : Escapes v) (w : List Char) : Escapes (v ++ w) :=
  escapes.trans (List.prefix_append v w).isInfix

/-- A blank is written as it is or by a numeric escape. -/
theorem Glyph.of_isBlank (glyph : Glyph inPlural w c) (blank : isBlank c = true) :
    w = [c] ∨ Escapes w := by
  cases glyph with
  | plain => exact .inl rfl
  | escaped special =>
      simp only [List.mem_cons, List.not_mem_nil, or_false] at special
      rcases special with rfl | rfl | rfl | rfl <;> exact absurd blank (by decide)
  | scalar => exact .inr (List.prefix_append ['\\', 'u'] _).isInfix

theorem TextWord.leads (word : TextWord inPlural v text) (first : c ∈ text.head?)
    (blank : isBlank c = true) : c ∈ v.head? ∨ Escapes v := by
  cases word with
  | nil => exact absurd first (by simp)
  | cons glyph rest =>
      obtain rfl := Option.some.inj first
      rcases glyph.of_isBlank blank with rfl | escapes
      · exact .inl rfl
      · exact .inr (escapes.append_right _)

theorem TextWord.trails (word : TextWord inPlural v text) (last : c ∈ text.getLast?)
    (blank : isBlank c = true) : c ∈ v.getLast? ∨ Escapes v := by
  induction word with
  | nil => exact absurd last (by simp)
  | @cons v w text d glyph rest ih =>
      cases text with
      | nil =>
          obtain rfl := Option.some.inj last
          cases rest
          rw [List.append_nil]
          rcases glyph.of_isBlank blank with rfl | escapes
          · exact .inl rfl
          · exact .inr escapes
      | cons next text =>
          rw [List.getLast?_cons_cons] at last
          rcases ih last with ends | escapes
          · refine .inl ?_
            rw [List.getLast?_append, Option.mem_def.mp ends]
            rfl
          · exact .inr (escapes.append_left v)

theorem MessageWord.leads (word : MessageWord inPlural w message) (leads : LeadsBlank message) :
    (∃ c ∈ w.head?, isBlank c = true) ∨ Escapes w := by
  obtain ⟨text, rest, rfl, c, first, blank⟩ := leads
  cases word with
  | text run inhabited rest bare =>
      rw [String.toList_ofList] at first
      rcases run.leads first blank with start | escapes
      · refine .inl ⟨c, ?_, blank⟩
        rw [List.head?_append, Option.mem_def.mp start]
        rfl
      · exact .inr (escapes.append_right _)
  | argument inside => exact absurd inside.isLiteral (by simp [Element.isLiteral])

/-- The rest of a message ends as the message does, if there is any. -/
theorem TrailsBlank.tail (trails : TrailsBlank (element :: message)) :
    (message = [] ∧ ∃ text, element = .literal text ∧
        ∃ c ∈ text.toList.getLast?, isBlank c = true) ∨ TrailsBlank message := by
  obtain ⟨front, text, same, ends⟩ := trails
  cases front with
  | nil =>
      obtain ⟨rfl, rfl⟩ := List.cons.inj same
      exact .inl ⟨rfl, text, rfl, ends⟩
  | cons first front => exact .inr ⟨front, text, (List.cons.inj same).2, ends⟩

/-- By induction on the message: only its last element decides how it ends. -/
theorem MessageWord.trails {p : Bool} {w : List Char} {message : Message} :
    MessageWord p w message → TrailsBlank message →
      (∃ c ∈ w.getLast?, isBlank c = true) ∨ Escapes w
  | .nil, ⟨front, _, same, _⟩ => absurd same (by simp)
  | @MessageWord.text _ v w _ _ run _ rest _, trails => by
      obtain ⟨rfl, text, same, c, last, blank⟩ | behind := trails.tail
      · cases rest
        obtain rfl := Element.literal.inj same
        rw [String.toList_ofList] at last
        rw [List.append_nil]
        exact (run.trails last blank).imp_left fun ends => ⟨c, ends, blank⟩
      · exact append v (rest.trails behind)
  | @MessageWord.pound w _ rest, trails => by
      obtain ⟨-, text, same, -⟩ | behind := trails.tail
      · exact absurd same (by simp)
      · exact append ['#'] (rest.trails behind)
  | @MessageWord.argument _ v w _ _ inside rest, trails => by
      obtain ⟨-, text, rfl, -⟩ | behind := trails.tail
      · exact absurd inside.isLiteral (by simp [Element.isLiteral])
      · rw [show '{' :: v ++ '}' :: w = ('{' :: v ++ ['}']) ++ w by simp]
        exact append _ (rest.trails behind)
where
  append (v : List Char) {w : List Char}
      (trails : (∃ c ∈ w.getLast?, isBlank c = true) ∨ Escapes w) :
      (∃ c ∈ (v ++ w).getLast?, isBlank c = true) ∨ Escapes (v ++ w) := by
    rcases trails with ⟨c, last, blank⟩ | escapes
    · refine .inl ⟨c, ?_, blank⟩
      rw [List.getLast?_append, Option.mem_def.mp last]
      rfl
    · exact .inr (escapes.append_left v)

end Edges

/-! ### Canonical texts -/

section Canonical

variable {text : String} {message : Message}

theorem word_of_parse (read : parse text = .ok message) :
    MessageWord false text.toList message :=
  readAll_eq_ok_iff.mp (parse_eq_ok_iff.mp read)

theorem ne_nil_of_parse (read : parse text = .ok message) (inhabited : text ≠ "") :
    message ≠ [] := by
  rintro rfl
  have word := word_of_parse read
  generalize same : text.toList = w at word
  cases word
  exact inhabited (String.toList_eq_nil_iff.mp same)

/-- The canonical text of a message is trimmed unless a blank is at an end of the message. -/
theorem trim_print_eq_self_iff (read : parse text = .ok message) :
    trim (print message) = print message ↔ ¬ LeadsBlank message ∧ ¬ TrailsBlank message := by
  have shaped := parse_shaped read
  rw [trim_eq_self_iff, ← leadsBlank_iff shaped, ← trailsBlank_iff shaped, print,
    String.toList_ofList]
  simp

theorem trim_print_eq_empty_iff (read : parse text = .ok message) (inhabited : text ≠ "") :
    trim (print message) = "" ↔ IsBlankText message := by
  rw [trim_eq_empty_iff, print, String.toList_ofList,
    isBlankText_iff (parse_shaped read) (ne_nil_of_parse read inhabited)]

theorem print_ne_empty (read : parse text = .ok message) (inhabited : text ≠ "") :
    print message ≠ "" := by
  have shaped := parse_shaped read
  cases message with
  | nil => exact absurd rfl (ne_nil_of_parse read inhabited)
  | cons element message =>
      obtain ⟨c, t, whole, -⟩ := shaped.1.head
      rw [print, ne_eq, String.ofList_eq_empty_iff, printElements, whole]
      exact List.cons_ne_nil _ _

/-- If a trimmed text has a canonical text that is not trimmed, then it contains a numeric
escape. -/
theorem escapes_of_untrimmed (read : parse text = .ok message) (trimmed : trim text = text)
    (untrimmed : trim (print message) ≠ print message) : Escapes text.toList := by
  have word := word_of_parse read
  obtain ⟨front, back⟩ := trim_eq_self_iff.mp trimmed
  by_cases leads : LeadsBlank message
  · apply (word.leads leads).resolve_left
    rintro ⟨c, first, blank⟩
    exact absurd blank (by simp [front c first])
  · have trails : TrailsBlank message := by
      apply Classical.byContradiction
      intro fine
      exact untrimmed ((trim_print_eq_self_iff read).mpr ⟨leads, fine⟩)
    apply (word.trails trails).resolve_left
    rintro ⟨c, last, blank⟩
    exact absurd blank (by simp [back c last])

end Canonical

end Message

end MessageCatalog
