import MessageCatalog.Message.Printer
import MessageCatalog.Proofs.Message.Recognition

/-!
# Well-formed messages

Not every tree is a message that some text denotes. `Shaped` says what the reader
promises of each result, by recursion over the tree: literals are inhabited and never
adjacent, names and selectors are words of their classes, a branching argument has
branches with distinct selectors, and a number sign stands only where it means the
number.

`Unmasked` is about writing. An offset of zero is not written, and if the first selector
then starts with the word of the offset clause, the text that results is read as if it
had one. Neither property implies the other; together they are what it takes for a tree
to be read back from its text.
-/

namespace MessageCatalog

namespace Message

open Text

/-- A name of an argument. -/
def IsName (name : String) : Prop :=
  Run isNameChar name.toList

/-- A style without blanks at its ends and without braces. -/
def IsStyle (style : String) : Prop :=
  style ≠ "" ∧ trim style = style ∧ ∀ c ∈ style.toList, c ≠ '{' ∧ c ≠ '}'

/-- What holds of the selectors of a branching argument. -/
def IsChoice (options : List Branch) : Prop :=
  options ≠ [] ∧ (options.map Branch.selector).Nodup ∧
    ∀ option ∈ options, SelectorWord option.selector.toList

mutual

/-- The element could have been read. Offsets are signed words of 64 bits, so all that is
asked of one is that it is not negative. -/
def Element.Shaped (inPlural : Bool) : Element → Prop
  | .literal text => text ≠ ""
  | .pound => inPlural = true
  | .argument name => IsName name
  | .formatted name _ style => IsName name ∧ ∀ written ∈ style, IsStyle written
  | .plural name _ offset options =>
    IsName name ∧ 0 ≤ offset ∧ offset ≤ maxOffset ∧ IsChoice options ∧
      ShapedOptions true options
  | .select name options => IsName name ∧ IsChoice options ∧ ShapedOptions inPlural options

/-- The message inside the branch could have been read. -/
def Branch.Shaped (inPlural : Bool) : Branch → Prop
  | .mk _ value => Message.Shaped inPlural value

/-- The elements could have been read in a row. -/
def Shaped (inPlural : Bool) : List Element → Prop
  | [] => True
  | element :: message =>
    element.Shaped inPlural ∧ (element.isLiteral = true → StartsBare message) ∧
      Message.Shaped inPlural message

/-- The messages inside the branches could have been read. -/
def ShapedOptions (inPlural : Bool) : List Branch → Prop
  | [] => True
  | option :: options => option.Shaped inPlural ∧ ShapedOptions inPlural options

end

/-- The text of a plural argument shows an offset clause that the argument does not have:
its offset is zero and its first selector starts with the word of the clause. -/
def Masked (offset : Int) (options : List Branch) : Prop :=
  offset = 0 ∧ ∃ first ∈ options.head?, offsetWord <+: first.selector.toList

mutual

/-- No plural argument in the element is masked. -/
def Element.Unmasked : Element → Prop
  | .literal _ => True
  | .pound => True
  | .argument _ => True
  | .formatted _ _ _ => True
  | .plural _ _ offset options => ¬ Masked offset options ∧ UnmaskedOptions options
  | .select _ options => UnmaskedOptions options

/-- No plural argument in the branch is masked. -/
def Branch.Unmasked : Branch → Prop
  | .mk _ value => Message.Unmasked value

/-- No plural argument in the message is masked. -/
def Unmasked : List Element → Prop
  | [] => True
  | element :: message => element.Unmasked ∧ Message.Unmasked message

/-- No plural argument in the branches is masked. -/
def UnmaskedOptions : List Branch → Prop
  | [] => True
  | option :: options => option.Unmasked ∧ UnmaskedOptions options

end

/-- A message that is read back from its text. -/
def WellFormed (message : Message) : Prop :=
  Shaped false message ∧ Unmasked message

/-! ### What is read is shaped -/

theorem isName_ofList {w : List Char} (run : Run isNameChar w) : IsName (String.ofList w) := by
  rwa [IsName, String.toList_ofList]

theorem StyleClause.isStyle {w : List Char} {style : Option String}
    (h : StyleClause w style) : ∀ written ∈ style, IsStyle written := by
  cases h with
  | absent => simp
  | @present _ raw _ braceless visible =>
      rintro _ ⟨⟩
      refine ⟨?_, ?_, ?_⟩
      · intro empty
        exact visible (String.ofList_eq_empty_iff.mp empty)
      · rw [trim, String.toList_ofList, trimChars_trimChars]
      · intro c hc
        rw [String.toList_ofList] at hc
        exact braceless c ((trimChars_sublist raw).subset hc)

theorem OffsetClause.range {v w : List Char} {offset : Int} (h : OffsetClause v offset w) :
    0 ≤ offset ∧ offset ≤ maxOffset := by
  cases h with
  | absent => decide
  | present _ _ small => omega

theorem OptionsWord.selectorWord {p : Bool} {w : List Char} {options : List Branch}
    (h : OptionsWord p w options) :
    ∀ option ∈ options, SelectorWord option.selector.toList := by
  induction options generalizing w with
  | nil => simp
  | cons option options ih =>
      cases h with
      | cons word _ _ _ rest =>
          intro option' here
          rcases List.mem_cons.mp here with rfl | here
          · rwa [Branch.selector_mk, String.toList_ofList]
          · exact ih rest option' here

mutual

theorem MessageWord.shaped {p : Bool} {w : List Char} {message : Message} :
    MessageWord p w message → Shaped p message
  | .nil => trivial
  | .text _ inhabited rest bare =>
      ⟨fun empty => inhabited (String.ofList_eq_empty_iff.mp empty), fun _ => bare, rest.shaped⟩
  | .pound rest => ⟨rfl, fun literal => absurd literal (by simp [Element.isLiteral]), rest.shaped⟩
  | .argument inside rest =>
      ⟨inside.shaped, fun literal => absurd literal (by simp [inside.isLiteral]), rest.shaped⟩

theorem ArgumentWord.shaped {p : Bool} {w : List Char} {element : Element} :
    ArgumentWord p w element → element.Shaped p
  | .plain _ run _ => isName_ofList run
  | .typed _ run _ _ body _ => body.shaped (isName_ofList run)

theorem BodyWord.shaped {p : Bool} {name : String} {w : List Char} {element : Element} :
    BodyWord p name w element → IsName name → element.Shaped p
  | .formatted clause, isName => ⟨isName, clause.isStyle⟩
  | .plural _ _ clause branches inhabited distinct, isName =>
      ⟨isName, clause.range.1, clause.range.2,
        ⟨inhabited, distinct, branches.selectorWord⟩, branches.shaped⟩
  | .select _ _ branches inhabited distinct, isName =>
      ⟨isName, ⟨inhabited, distinct, branches.selectorWord⟩, branches.shaped⟩

theorem OptionsWord.shaped {p : Bool} {w : List Char} {options : List Branch} :
    OptionsWord p w options → ShapedOptions p options
  | .nil => trivial
  | .cons _ _ inside _ rest => ⟨inside.shaped, rest.shaped⟩

end

end Message

end MessageCatalog
