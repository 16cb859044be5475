/-!
# Messages

A message is a sequence of elements. Besides text and arguments it may branch on a
plural category or on a keyword; each branch holds a message of its own.

A number sign stands for the number only inside a branch of a plural argument.
There it is the element `pound`; elsewhere it is ordinary text. The distinction is
made by the place of the element, so the type admits `pound` anywhere and the
reader and the printer carry the place as a flag.
-/

namespace MessageCatalog

namespace Message

inductive FormatKind where
  | number
  | date
  | time
  deriving DecidableEq, Repr

/-- Whether a plural argument counts things or ranks them. -/
inductive PluralKind where
  | cardinal
  | ordinal
  deriving DecidableEq, Repr

namespace FormatKind

/-- The type word of a formatted argument. -/
def word : FormatKind → String
  | .number => "number"
  | .date => "date"
  | .time => "time"

/-- The format named by a type word. -/
def ofWord? : String → Option FormatKind
  | "number" => some .number
  | "date" => some .date
  | "time" => some .time
  | _ => none

@[simp] theorem ofWord?_word (kind : FormatKind) : ofWord? kind.word = some kind := by
  cases kind <;> rfl

end FormatKind

namespace PluralKind

/-- The type word of a plural argument. -/
def word : PluralKind → String
  | .cardinal => "plural"
  | .ordinal => "selectordinal"

/-- The plural form named by a type word. -/
def ofWord? : String → Option PluralKind
  | "plural" => some .cardinal
  | "selectordinal" => some .ordinal
  | _ => none

@[simp] theorem ofWord?_word (kind : PluralKind) : ofWord? kind.word = some kind := by
  cases kind <;> rfl

end PluralKind

mutual

/-- One part of a message. The text of a literal is already unescaped. -/
inductive Element where
  | literal (text : String)
  | argument (name : String)
  | formatted (name : String) (kind : FormatKind) (style : Option String)
  | plural (name : String) (kind : PluralKind) (offset : Int) (options : List Branch)
  | select (name : String) (options : List Branch)
  | pound

/-- One alternative of a branching argument: a selector and the message it selects. The selector
of an exact number starts with an equals sign. -/
inductive Branch where
  | mk (selector : String) (value : List Element)

end

namespace Branch

def selector : Branch → String
  | mk selector _ => selector

def value : Branch → List Element
  | mk _ value => value

@[simp] theorem selector_mk (s : String) (v : List Element) : (mk s v).selector = s := rfl

@[simp] theorem value_mk (s : String) (v : List Element) : (mk s v).value = v := rfl

end Branch

end Message

/-- A message: its elements in reading order. -/
abbrev Message := List Message.Element

end MessageCatalog
