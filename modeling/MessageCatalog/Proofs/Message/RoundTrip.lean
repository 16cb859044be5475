import MessageCatalog.Proofs.Message.WellFormed

/-!
# Reading what was written

A message is read back from its canonical text exactly if it is well formed.

In one direction, the canonical text is derived along the message. In the other, all
texts that denote the message are compared with the canonical one: leaving blanks aside,
none of them is shorter, and if an argument is masked, each of them is longer, since it
has to show the offset clause. So the canonical text of a message with a masked argument
denotes something else or nothing at all.
-/

namespace MessageCatalog

namespace Message

open Text

/-! ### The words that are written -/

theorem glyph_of_needsEscape {inPlural : Bool} {c : Char} (h : needsEscape inPlural c = true) :
    Glyph inPlural ['\\', c] c := by
  simp only [needsEscape, Bool.or_eq_true, Bool.and_eq_true, beq_iff_eq] at h
  rcases h with ((rfl | rfl) | rfl) | ⟨-, rfl⟩ <;> exact .escaped (by simp)

theorem glyph_of_not_needsEscape {inPlural : Bool} {c : Char}
    (h : ¬ needsEscape inPlural c = true) : Glyph inPlural [c] c := by
  simp only [needsEscape, Bool.or_eq_true, Bool.and_eq_true, beq_iff_eq, not_or, not_and] at h
  obtain ⟨⟨⟨backslash, opening⟩, closing⟩, sign⟩ := h
  exact .plain (by simp [backslash, opening, closing]) sign

theorem escapeText_word (inPlural : Bool) (text : List Char) :
    TextWord inPlural (escapeText inPlural text) text := by
  induction text with
  | nil => exact .nil
  | cons c text ih =>
      rw [escapeText]
      split
      · rename_i special
        exact .cons (glyph_of_needsEscape special) ih
      · rename_i ordinary
        exact .cons (glyph_of_not_needsEscape ordinary) ih

theorem digitsValue_repr (n : Nat) : digitsValue n.repr.toList = n := by
  rw [Nat.toList_repr]
  exact Nat.ofDigitChars_ten_toDigits

theorem run_isDigit_repr (n : Nat) : Run isDigit n.repr.toList := by
  refine ⟨by simp, ?_⟩
  intro c hc
  rw [Nat.toList_repr] at hc
  have digit := Nat.isDigit_of_mem_toDigits (by decide) (by decide) hc
  rw [Char.isDigit, Bool.and_eq_true, decide_eq_true_eq, decide_eq_true_eq] at digit
  exact isDigit_iff.mpr digit

theorem styleClause_word {style : Option String} (h : ∀ written ∈ style, IsStyle written) :
    StyleClause (styleClause style) style := by
  cases style with
  | none => exact .absent
  | some style =>
      obtain ⟨inhabited, trimmed, braceless⟩ := h style rfl
      have kept : trimChars (' ' :: style.toList) = style.toList := by
        rw [trimChars_cons (by decide), ← String.toList_ofList (l := trimChars style.toList)]
        exact congrArg String.toList trimmed
      have braceless' : ∀ c ∈ ' ' :: style.toList, c ≠ '{' ∧ c ≠ '}' := by
        intro c hc
        rcases List.mem_cons.mp hc with rfl | hc
        · decide
        · exact braceless c hc
      have visible : trimChars (' ' :: style.toList) ≠ [] := by
        rw [kept]
        exact fun empty => inhabited (String.toList_eq_nil_iff.mp empty)
      have clause := StyleClause.present blanks_nil braceless' visible
      rwa [kept, String.ofList_toList] at clause

/-- A prefix ends before the first character that it does not contain. -/
theorem prefix_of_not_mem {l s t : List Char} {c : Char} (h : l <+: s ++ c :: t)
    (missing : c ∉ l) : l <+: s := by
  induction s generalizing l with
  | nil =>
      cases l with
      | nil => exact List.nil_prefix
      | cons d l =>
          obtain ⟨rfl, -⟩ := List.cons_prefix_cons.mp h
          exact absurd List.mem_cons_self missing
  | cons d s ih =>
      cases l with
      | nil => exact List.nil_prefix
      | cons e l =>
          obtain ⟨rfl, rest⟩ := List.cons_prefix_cons.mp h
          exact List.cons_prefix_cons.mpr
            ⟨rfl, ih rest fun here => missing (List.mem_cons_of_mem e here)⟩

theorem offsetClause_of_nonneg {offset : Int} (nonneg : 0 ≤ offset) (h : offset ≠ 0) :
    offsetClause offset = ' ' :: (offsetWord ++ offset.toNat.repr.toList) := by
  obtain ⟨n, rfl⟩ := Int.eq_ofNat_of_zero_le nonneg
  rw [offsetClause, if_neg h]
  rfl

/-- The offset and the first selector are written so that they are told apart, unless the
argument is masked. -/
theorem offsetClause_word {offset : Int} {option : Branch} {options : List Branch}
    {t : List Char} (nonneg : 0 ≤ offset) (small : offset ≤ maxOffset)
    (visible : ¬ Masked offset (option :: options)) :
    ∃ v, offsetClause offset ++ ' ' :: (option.selector.toList ++ ' ' :: t) =
        ' ' :: (v ++ (option.selector.toList ++ ' ' :: t)) ∧
      OffsetClause v offset (option.selector.toList ++ ' ' :: t) := by
  by_cases h : offset = 0
  · subst h
    refine ⟨[], by simp [offsetClause], .absent ?_⟩
    intro word
    exact visible ⟨rfl, option, rfl, prefix_of_not_mem word (by decide)⟩
  · refine ⟨offsetWord ++ [] ++ offset.toNat.repr.toList ++ [' '], ?_, ?_⟩
    · rw [offsetClause_of_nonneg nonneg h]
      simp
    · have maximal : Stops isDigit ([' '] ++ (option.selector.toList ++ ' ' :: t)) :=
        stops_cons.mpr (by decide)
      have small' : digitsValue offset.toNat.repr.toList ≤ maxOffset := by
        rw [digitsValue_repr]
        omega
      have clause := OffsetClause.present blanks_nil (run_isDigit_repr offset.toNat) small'
        blanks_space maximal
      rwa [digitsValue_repr, Int.toNat_of_nonneg nonneg] at clause

theorem printOptions_cons (p : Bool) (option : Branch) (options : List Branch) :
    printOptions p (option :: options) = ' ' :: (option.selector.toList ++
      ' ' :: '{' :: (printElements p option.value ++ '}' :: printOptions p options)) := by
  cases option
  simp [printOptions, printBranch]

/-- A braced element is written as an argument of the grammar. -/
theorem argument_of_body {p : Bool} {name : String} {v w : List Char} {element : Element}
    (named : IsName name) (body : BodyWord p name v element) (whole : w = ' ' :: v) :
    ArgumentWord p (name.toList ++ ',' :: w) element := by
  have inside : BodyWord p (String.ofList name.toList) v element := by
    rwa [String.ofList_toList]
  have argument := ArgumentWord.typed blanks_nil named blanks_nil blanks_space inside blanks_nil
  subst whole
  simpa using argument

theorem printElement_formatted {p : Bool} {name : String} {kind : FormatKind}
    {style : Option String} :
    printElement p (.formatted name kind style) =
      '{' :: (name.toList ++ ',' :: ' ' :: (kind.word.toList ++ styleClause style)) ++ ['}'] := by
  simp [printElement]

theorem printElement_plural {p : Bool} {name : String} {kind : PluralKind} {offset : Int}
    {options : List Branch} :
    printElement p (.plural name kind offset options) =
      '{' :: (name.toList ++ ',' :: ' ' :: (kind.word.toList ++
        ',' :: (offsetClause offset ++ printOptions true options))) ++ ['}'] := by
  simp [printElement]

theorem printElement_select {p : Bool} {name : String} {options : List Branch} :
    printElement p (.select name options) =
      '{' :: (name.toList ++ ',' :: ' ' :: ("select".toList ++
        ',' :: printOptions p options)) ++ ['}'] := by
  simp [printElement]

mutual

theorem printElement_word {p : Bool} : ∀ (element : Element), element.Shaped p →
    element.Unmasked → element.isLiteral = false → element ≠ .pound →
    ∃ v, printElement p element = '{' :: v ++ ['}'] ∧ ArgumentWord p v element
  | .argument name, shaped, _, _, _ => by
      have argument : ArgumentWord p _ _ := .plain blanks_nil shaped blanks_nil
      exact ⟨name.toList, rfl, by simpa using argument⟩
  | .formatted name kind style, shaped, _, _, _ =>
      ⟨_, printElement_formatted,
        argument_of_body shaped.1 (.formatted (styleClause_word shaped.2)) rfl⟩
  | .plural name kind offset options, ⟨named, nonneg, small, choice, shaped⟩, ⟨visible, unmasked⟩,
      _, _ => by
      obtain ⟨w, whole, branches⟩ := printOptions_word options choice.1 choice.2.2 shaped
        unmasked
      refine ⟨_, printElement_plural, argument_of_body named ?_ rfl⟩
      cases options with
      | nil => exact absurd rfl choice.1
      | cons option options =>
          rw [printOptions_cons] at whole ⊢
          obtain rfl := (List.cons_eq_cons.mp whole).2
          obtain ⟨v, front, clause⟩ := offsetClause_word nonneg small visible
          rw [front]
          have body : BodyWord p name _ (.plural name kind offset _) :=
            .plural blanks_nil blanks_space clause branches choice.1 choice.2.1
          simpa using body
  | .select name options, ⟨named, choice, shaped⟩, unmasked, _, _ => by
      obtain ⟨w, whole, branches⟩ := printOptions_word options choice.1 choice.2.2 shaped
        unmasked
      refine ⟨_, printElement_select, argument_of_body named ?_ rfl⟩
      have body : BodyWord p name _ _ :=
        .select blanks_nil blanks_space branches choice.1 choice.2.1
      rw [whole]
      simpa using body

theorem printBranch_word {p : Bool} : ∀ (option : Branch), option.Shaped p →
    option.Unmasked → MessageWord p (printElements p option.value) option.value
  | .mk _ value, shaped, unmasked => printElements_word value shaped unmasked

theorem printElements_word {p : Bool} : ∀ (message : List Element), Shaped p message →
    Unmasked message → MessageWord p (printElements p message) message
  | [], _, _ => .nil
  | element :: message, ⟨shaped, alone, shapedRest⟩, ⟨unmasked, unmaskedRest⟩ => by
      have rest := printElements_word message shapedRest unmaskedRest
      rw [printElements]
      by_cases literal : element.isLiteral = true
      · cases element with
        | literal text =>
            have word := MessageWord.text (escapeText_word p text.toList)
              (fun empty => shaped (String.toList_eq_nil_iff.mp empty)) rest (alone rfl)
            rwa [String.ofList_toList] at word
        | _ => exact absurd literal (by simp [Element.isLiteral])
      · by_cases pound : element = .pound
        · subst pound
          obtain rfl : p = true := shaped
          exact .pound rest
        · obtain ⟨v, whole, inside⟩ :=
            printElement_word element shaped unmasked (Bool.eq_false_iff.mpr literal) pound
          have word := MessageWord.argument inside rest
          rw [whole]
          simpa using word

theorem printOptions_word {p : Bool} : ∀ (options : List Branch), options ≠ [] →
    (∀ option ∈ options, SelectorWord option.selector.toList) → ShapedOptions p options →
    UnmaskedOptions options → ∃ w, printOptions p options = ' ' :: w ∧ OptionsWord p w options
  | [], inhabited, _, _, _ => absurd rfl inhabited
  | [.mk selector value], _, words, shaped, unmasked => by
      have inside := printBranch_word _ shaped.1 unmasked.1
      have word := OptionsWord.cons (words _ List.mem_cons_self) blanks_space inside
        blanks_nil .nil
      rw [Branch.selector_mk, String.ofList_toList] at word
      exact ⟨_, printOptions_cons _ _ _, by simpa [printOptions] using word⟩
  | .mk selector value :: next :: options, _, words, shaped, unmasked => by
      have inside := printBranch_word _ shaped.1 unmasked.1
      obtain ⟨w, whole, rest⟩ := printOptions_word (next :: options) (List.cons_ne_nil _ _)
        (fun option here => words option (List.mem_cons_of_mem _ here)) shaped.2 unmasked.2
      have word := OptionsWord.cons (words _ List.mem_cons_self) blanks_space inside
        blanks_space rest
      rw [Branch.selector_mk, String.ofList_toList] at word
      exact ⟨_, printOptions_cons _ _ _, by simpa [whole] using word⟩

end

/-! ### Visible characters -/

/-- How many characters of the text are not blank. -/
def visible (w : List Char) : Nat :=
  w.countP fun c => !isBlank c

section Visible

variable {inPlural : Bool} {v w : List Char}

@[simp] theorem visible_nil : visible [] = 0 := rfl

@[simp] theorem visible_append (v w : List Char) : visible (v ++ w) = visible v + visible w :=
  List.countP_append

theorem visible_cons_of_blank {c : Char} (blank : isBlank c = true) :
    visible (c :: w) = visible w :=
  List.countP_cons_of_neg (by simp [blank])

theorem visible_cons {c : Char} (ink : isBlank c = false) :
    visible (c :: w) = visible w + 1 :=
  List.countP_cons_of_pos (by simp [ink])

theorem visible_le_length (w : List Char) : visible w ≤ w.length :=
  List.countP_le_length

theorem visible_digits (digits : ∀ c ∈ w, isDigit c = true) : visible w = w.length := by
  rw [visible, List.countP_eq_length]
  intro c hc
  simp [isBlank_of_isDigit (digits c hc)]

theorem visible_trimChars_le (w : List Char) : visible (trimChars w) ≤ visible w :=
  (trimChars_sublist w).countP_le

theorem Glyph.visible_le {c : Char} (glyph : Glyph inPlural w c) :
    visible (escapeText inPlural [c]) ≤ visible w := by
  have short (d : Char) : visible (escapeText inPlural [d]) ≤ 2 := by
    refine Nat.le_trans (visible_le_length _) ?_
    rw [escapeText]
    split <;> simp [escapeText]
  cases glyph with
  | plain ordinary sign =>
      have : needsEscape inPlural c = false := by
        simp only [List.mem_cons, List.not_mem_nil, or_false, not_or] at ordinary
        cases inPlural <;> simp_all [needsEscape]
      simp [escapeText, this]
  | escaped special =>
      have two : visible ['\\', c] = 2 := by
        have := special
        simp only [List.mem_cons, List.not_mem_nil, or_false] at this
        rcases this with rfl | rfl | rfl | rfl <;> rfl
      rw [two]
      exact short c
  | scalar =>
      refine Nat.le_trans (short _) ?_
      rw [visible_cons (by decide), visible_cons (by decide)]
      omega

theorem TextWord.visible_le {text : List Char} (word : TextWord inPlural w text) :
    visible (escapeText inPlural text) ≤ visible w := by
  induction word with
  | nil => exact Nat.le_refl _
  | @cons v w text c first _ ih =>
      have split : escapeText inPlural (c :: text) =
          escapeText inPlural [c] ++ escapeText inPlural text := by
        simp only [escapeText]
        split <;> rfl
      rw [split, visible_append, visible_append]
      exact Nat.add_le_add first.visible_le ih

theorem StyleClause.visible_le {style : Option String} (clause : StyleClause w style) :
    visible (styleClause style) ≤ visible w := by
  cases clause with
  | absent => exact Nat.le_refl _
  | @present blanks raw =>
      have trimmed := visible_trimChars_le raw
      simp only [styleClause, String.toList_ofList, visible_append]
      rw [show visible ", ".toList = 1 from rfl, visible_cons (by decide)]
      omega

theorem digitsValue_lt (digits : ∀ c ∈ w, isDigit c = true) :
    digitsValue w < Nat.pow 10 w.length := by
  suffices h : ∀ n, w.foldl (fun n c => 10 * n + (c.toNat - 48)) n <
      (n + 1) * Nat.pow 10 w.length by
    simpa [digitsValue] using h 0
  induction w with
  | nil => simp
  | cons c w ih =>
      intro n
      have digit := isDigit_iff.mp (digits c List.mem_cons_self)
      have rest := ih (fun d hd => digits d (List.mem_cons_of_mem c hd)) (10 * n + (c.toNat - 48))
      refine Nat.lt_of_lt_of_le rest ?_
      show _ ≤ (n + 1) * (Nat.pow 10 w.length * 10)
      rw [Nat.mul_comm (Nat.pow 10 w.length), ← Nat.mul_assoc]
      exact Nat.mul_le_mul_right _ (by omega)

/-- Canonical digits have no zeros in front. -/
theorem visible_repr_le (run : Run isDigit w) :
    visible (digitsValue w).repr.toList ≤ visible w := by
  rw [visible_digits run.2, visible_digits (run_isDigit_repr _).2]
  exact (Nat.length_repr_le_iff (List.length_pos_iff.mpr run.1)).mpr (digitsValue_lt run.2)

/-- A clause has more visible characters than an offset needs, if the branches behind it
cannot do without a clause and the offset is not written. -/
theorem OffsetClause.visible_le {offset : Int} (clause : OffsetClause v offset w) :
    visible (offsetClause offset) ≤ visible v ∧
      (offset = 0 → offsetWord <+: w → visible (offsetClause offset) < visible v) := by
  cases clause with
  | absent wordless => exact ⟨Nat.le_refl _, fun _ word => absurd word wordless⟩
  | @present before digits after _ _ run =>
      have seven : visible offsetWord = 7 := rfl
      have digitsLe := visible_repr_le run
      simp only [visible_append, seven]
      by_cases zero : (digitsValue digits : Int) = 0
      · rw [offsetClause, if_pos zero, visible_nil]
        exact ⟨Nat.zero_le _, fun _ _ => by omega⟩
      · rw [offsetClause_of_nonneg (Int.natCast_nonneg _) zero, Int.toNat_natCast]
        refine ⟨?_, fun empty => absurd empty zero⟩
        rw [visible_cons_of_blank (by decide), visible_append, seven]
        omega

/-- The first selector is in front of everything else in the text of branches. -/
theorem OptionsWord.selector_isPrefix {option : Branch} {options : List Branch}
    (branches : OptionsWord inPlural w (option :: options)) :
    option.selector.toList <+: w := by
  cases branches with
  | cons =>
      rw [Branch.selector_mk, String.toList_ofList]
      simp only [List.append_assoc]
      exact List.prefix_append _ _

theorem OffsetClause.not_masked {offset : Int} {options : List Branch}
    (clause : OffsetClause v offset w) (branches : OptionsWord true w options)
    (few : visible v ≤ visible (offsetClause offset)) : ¬ Masked offset options := by
  rintro ⟨rfl, option, first, word⟩
  cases options with
  | nil => exact absurd first (by simp)
  | cons next options =>
      obtain rfl := Option.some.inj first
      have more := clause.visible_le.2 rfl (word.trans branches.selector_isPrefix)
      omega

end Visible

mutual

theorem MessageWord.visible_le {p : Bool} {w : List Char} {message : Message} :
    MessageWord p w message → visible (printElements p message) ≤ visible w ∧
      (visible w ≤ visible (printElements p message) → Unmasked message)
  | .nil => ⟨Nat.le_refl _, fun _ => trivial⟩
  | .text run _ rest _ => by
      have first := run.visible_le
      obtain ⟨more, unmasked⟩ := rest.visible_le
      simp only [printElements, printElement, String.toList_ofList, visible_append]
      exact ⟨by omega, fun few => ⟨trivial, unmasked (by omega)⟩⟩
  | .pound rest => by
      obtain ⟨more, unmasked⟩ := rest.visible_le
      simp (disch := decide) only [printElements, printElement, visible_append, visible_cons,
        visible_nil]
      exact ⟨by omega, fun few => ⟨trivial, unmasked (by omega)⟩⟩
  | .argument inside rest => by
      obtain ⟨first, unmaskedFirst⟩ := inside.visible_le
      obtain ⟨more, unmasked⟩ := rest.visible_le
      simp (disch := decide) only [printElements, visible_append, visible_cons]
      exact ⟨by omega, fun few => ⟨unmaskedFirst (by omega), unmasked (by omega)⟩⟩

theorem ArgumentWord.visible_le {p : Bool} {w : List Char} {element : Element} :
    ArgumentWord p w element → visible (printElement p element) ≤ visible w + 2 ∧
      (visible w + 2 ≤ visible (printElement p element) → element.Unmasked)
  | .plain _ _ _ => by
      simp (disch := decide) only [printElement, String.toList_ofList, visible_append,
        visible_cons, visible_nil]
      exact ⟨by omega, fun _ => trivial⟩
  | .typed _ _ _ _ body _ => by
      obtain ⟨least, unmasked⟩ := body.visible_le
      rw [String.toList_ofList] at least unmasked
      simp (disch := decide) only [visible_append, visible_cons]
      exact ⟨by omega, fun few => unmasked (by omega)⟩

theorem BodyWord.visible_le {p : Bool} {name : String} {w : List Char} {element : Element} :
    BodyWord p name w element →
      visible (printElement p element) ≤ visible name.toList + visible w + 3 ∧
        (visible name.toList + visible w + 3 ≤ visible (printElement p element) →
          element.Unmasked)
  | .formatted clause => by
      have style := clause.visible_le
      rw [printElement_formatted]
      simp (disch := decide) only [visible_append, visible_cons_of_blank, visible_cons,
        visible_nil]
      exact ⟨by omega, fun _ => trivial⟩
  | .plural _ _ clause branches _ _ => by
      have offset := clause.visible_le.1
      obtain ⟨more, unmasked⟩ := branches.visible_le
      rw [printElement_plural]
      simp (disch := decide) only [visible_append, visible_cons_of_blank, visible_cons,
        visible_nil]
      refine ⟨by omega, fun few => ⟨clause.not_masked branches (by omega), unmasked (by omega)⟩⟩
  | .select _ _ branches _ _ => by
      obtain ⟨more, unmasked⟩ := branches.visible_le
      rw [printElement_select]
      simp (disch := decide) only [visible_append, visible_cons_of_blank, visible_cons,
        visible_nil]
      exact ⟨by omega, fun few => unmasked (by omega)⟩

theorem OptionsWord.visible_le {p : Bool} {w : List Char} {options : List Branch} :
    OptionsWord p w options → visible (printOptions p options) ≤ visible w ∧
      (visible w ≤ visible (printOptions p options) → UnmaskedOptions options)
  | .nil => ⟨Nat.le_refl _, fun _ => trivial⟩
  | .cons _ _ inside _ rest => by
      obtain ⟨first, unmaskedFirst⟩ := inside.visible_le
      obtain ⟨more, unmasked⟩ := rest.visible_le
      rw [printOptions_cons, Branch.selector_mk, Branch.value_mk, String.toList_ofList]
      simp (disch := decide) only [visible_append, visible_cons_of_blank, visible_cons]
      exact ⟨by omega, fun few => ⟨unmaskedFirst (by omega), unmasked (by omega)⟩⟩

end

/-! ### The domain of the printer -/

theorem parse_print_eq_ok_iff {message message' : Message} :
    parse (print message) = .ok message' ↔
      readAll (printElements false message) = .ok message' := by
  rw [parse_eq_ok_iff, print, String.toList_ofList]

/-- The messages that are read back from their canonical texts are the well-formed ones.
This holds for all trees, also for those that no text denotes. -/
theorem parse_print_eq_self_iff (message : Message) :
    parse (print message) = .ok message ↔ WellFormed message := by
  rw [parse_print_eq_ok_iff, readAll_eq_ok_iff]
  constructor
  · intro word
    exact ⟨word.shaped, word.visible_le.2 (Nat.le_refl _)⟩
  · rintro ⟨shaped, unmasked⟩
    exact printElements_word message shaped unmasked

end Message

end MessageCatalog
