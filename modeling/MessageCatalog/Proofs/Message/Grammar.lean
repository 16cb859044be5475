import MessageCatalog.Message.Reader

/-!
# The grammar of messages

The grammar derives words: a judgement says which message, argument or list of branches
a text denotes, and does not speak of what follows the text. Only two constructs look
further than their own characters. A run of digits in an offset clause goes on as long
as it can, and the clause is taken whenever the text starts with its word; the judgement
for the clause therefore mentions the branches behind it.

All other tokens are as long as possible without being told to: what may follow a name,
a type word or a run of blanks never belongs to the same class of characters. Text is a
single literal as far as it goes, because a literal is never followed by another one.
-/

namespace MessageCatalog

namespace Message

open Text

/-! ### Tokens -/

/-- The text does not start with a character of the class. -/
def Stops (p : Char → Bool) (s : List Char) : Prop :=
  ∀ c ∈ s.head?, p c = false

/-- Blanks, or nothing. -/
def Blanks (w : List Char) : Prop :=
  ∀ c ∈ w, isBlank c = true

/-- A non-empty run of characters of one class. -/
def Run (p : Char → Bool) (w : List Char) : Prop :=
  w ≠ [] ∧ ∀ c ∈ w, p c = true

/-- The words that denote one character of text. The number sign has to be escaped only
where it would stand for the number. -/
inductive Glyph (inPlural : Bool) : List Char → Char → Prop where
  | plain {c : Char} (ordinary : c ∉ ['{', '}', '\\'])
      (sign : inPlural = true → c ≠ '#') : Glyph inPlural [c] c
  | escaped {c : Char} (special : c ∈ ['{', '}', '\\', '#']) : Glyph inPlural ['\\', c] c
  | scalar {a b c d : Char} {i j k l n : Nat} (first : hexValue? a = some i)
      (second : hexValue? b = some j) (third : hexValue? c = some k)
      (fourth : hexValue? d = some l) (number : n = ((i * 16 + j) * 16 + k) * 16 + l)
      (whole : ¬ (0xD800 ≤ n ∧ n ≤ 0xDFFF)) :
      Glyph inPlural ['\\', 'u', a, b, c, d] (Char.ofNat n)

/-- The words that denote a run of text. -/
inductive TextWord (inPlural : Bool) : List Char → List Char → Prop where
  | nil : TextWord inPlural [] []
  | cons {v w text : List Char} {c : Char} (first : Glyph inPlural v c)
      (rest : TextWord inPlural w text) : TextWord inPlural (v ++ w) (c :: text)

/-- Selectors: exact numbers and keywords. -/
inductive SelectorWord : List Char → Prop where
  | exact {digits : List Char} (number : Run isDigit digits) : SelectorWord ('=' :: digits)
  | keyword {word : List Char} (name : Run isNameChar word) : SelectorWord word

/-- What may stand between a type word and the end of a formatted argument, and the style
that it denotes. -/
inductive StyleClause : List Char → Option String → Prop where
  | absent : StyleClause [] none
  | present {blanks raw : List Char} (blank : Blanks blanks)
      (braceless : ∀ c ∈ raw, c ≠ '{' ∧ c ≠ '}') (visible : trimChars raw ≠ []) :
      StyleClause (blanks ++ ',' :: raw) (some (String.ofList (trimChars raw)))

/-- The clause in front of the branches of a plural argument, and the offset that it
denotes. The last index is the text of the branches. Their text decides whether there is
a clause: a branch whose selector starts with the word of the clause is never the first
one after an absent clause. -/
inductive OffsetClause : List Char → Int → List Char → Prop where
  | absent {branches : List Char} (wordless : ¬ offsetWord <+: branches) :
      OffsetClause [] 0 branches
  | present {before digits after branches : List Char} (blank : Blanks before)
      (number : Run isDigit digits) (small : digitsValue digits ≤ maxOffset)
      (blank' : Blanks after) (maximal : Stops isDigit (after ++ branches)) :
      OffsetClause (offsetWord ++ before ++ digits ++ after) (digitsValue digits) branches

/-! ### Messages -/

/-- A literal in front would go on with this element. -/
def Element.isLiteral : Element → Bool
  | .literal _ => true
  | _ => false

/-- The message does not start with text. -/
def StartsBare (message : Message) : Prop :=
  ∀ element ∈ message.head?, element.isLiteral = false

mutual

/-- The words that denote a message, or the part of one after some element. -/
inductive MessageWord : Bool → List Char → Message → Prop where
  | nil {inPlural : Bool} : MessageWord inPlural [] []
  | text {inPlural : Bool} {v w text : List Char} {message : Message}
      (run : TextWord inPlural v text) (inhabited : text ≠ [])
      (rest : MessageWord inPlural w message) (bare : StartsBare message) :
      MessageWord inPlural (v ++ w) (.literal (String.ofList text) :: message)
  | pound {w : List Char} {message : Message} (rest : MessageWord true w message) :
      MessageWord true ('#' :: w) (.pound :: message)
  | argument {inPlural : Bool} {v w : List Char} {element : Element} {message : Message}
      (inside : ArgumentWord inPlural v element) (rest : MessageWord inPlural w message) :
      MessageWord inPlural ('{' :: v ++ '}' :: w) (element :: message)

/-- What may stand between the braces of an argument. -/
inductive ArgumentWord : Bool → List Char → Element → Prop where
  | plain {inPlural : Bool} {before name after : List Char} (blank : Blanks before)
      (run : Run isNameChar name) (blank' : Blanks after) :
      ArgumentWord inPlural (before ++ name ++ after) (.argument (String.ofList name))
  | typed {inPlural : Bool} {before name after front w back : List Char}
      {element : Element} (blank : Blanks before) (run : Run isNameChar name)
      (blank' : Blanks after) (blank'' : Blanks front)
      (body : BodyWord inPlural (String.ofList name) w element) (trailing : Blanks back) :
      ArgumentWord inPlural (before ++ name ++ after ++ ',' :: front ++ w ++ back) element

/-- A type word and what belongs to the type, for an argument of the given name. -/
inductive BodyWord : Bool → String → List Char → Element → Prop where
  | formatted {inPlural : Bool} {name : String} {kind : FormatKind} {w : List Char}
      {style : Option String} (clause : StyleClause w style) :
      BodyWord inPlural name (kind.word.toList ++ w) (.formatted name kind style)
  | plural {inPlural : Bool} {name : String} {kind : PluralKind}
      {before after v w : List Char} {offset : Int} {options : List Branch}
      (blank : Blanks before) (blank' : Blanks after) (clause : OffsetClause v offset w)
      (branches : OptionsWord true w options) (inhabited : options ≠ [])
      (distinct : (options.map Branch.selector).Nodup) :
      BodyWord inPlural name (kind.word.toList ++ before ++ ',' :: after ++ v ++ w)
        (.plural name kind offset options)
  | select {inPlural : Bool} {name : String} {before after w : List Char}
      {options : List Branch} (blank : Blanks before) (blank' : Blanks after)
      (branches : OptionsWord inPlural w options) (inhabited : options ≠ [])
      (distinct : (options.map Branch.selector).Nodup) :
      BodyWord inPlural name ("select".toList ++ before ++ ',' :: after ++ w)
        (.select name options)

/-- The words that denote branches. Blanks belong to the branch in front of them. -/
inductive OptionsWord : Bool → List Char → List Branch → Prop where
  | nil {inPlural : Bool} : OptionsWord inPlural [] []
  | cons {inPlural : Bool} {selector before v after w : List Char} {value : Message}
      {options : List Branch} (word : SelectorWord selector) (blank : Blanks before)
      (inside : MessageWord inPlural v value) (blank' : Blanks after)
      (rest : OptionsWord inPlural w options) :
      OptionsWord inPlural (selector ++ before ++ '{' :: v ++ '}' :: after ++ w)
        (.mk (String.ofList selector) value :: options)

end

end Message

end MessageCatalog
