import MessageCatalog.Number.Decimal
import MessageCatalog.Text.Blank

/-!
# Constant values

These are the values that an expression can have before the program runs: text,
numbers, truth values, and the two values for nothing. Each has a text, a truth value
and, for arithmetic, a number.

Whole numbers below ten to the power of twenty-one are written by way of a signed word
of 64 bits, so beyond that word's range they are written as its nearest end. All other
finite numbers are written with the fewest digits that read back.
-/

namespace MessageCatalog

namespace Constant

/-- A value known before the program runs. -/
inductive Value where
  | text (s : String)
  | number (x : Binary64)
  | boolean (b : Bool)
  | null
  | undefined
  deriving DecidableEq, Repr

def minWord : Int := -0x8000000000000000

def maxWord : Int := 0x7FFFFFFFFFFFFFFF

def clampWord (n : Int) : Int :=
  if n < minWord then minWord else if maxWord < n then maxWord else n

/-- Whole numbers from this magnitude on are not written as words. It lies beyond the largest
word, and what is in between is written as that word. -/
def wordLimit : Nat := Nat.pow 10 21

/-- The text of a number. Whole numbers go through a word of 64 bits, also those that it does
not hold; the others get the fewest digits that read back, and never an exponent. -/
def writeNumber : Binary64 → String
  | .nan => "NaN"
  | .infinite negative => if negative then "-Infinity" else "Infinity"
  | .finite negative units =>
    match (Binary64.finite negative units).toInt? with
    | some n =>
      if n.natAbs < wordLimit then toString (clampWord n) else digits negative units
    | none => digits negative units
where
  /-- The shortest digits with their sign. -/
  digits (negative : Bool) (units : Nat) : String :=
    String.ofList ((if negative then ['-'] else []) ++ Decimal.writeUnits units)

namespace Value

/-- The text of a value, as it appears when the value is joined to text. -/
def toText : Value → String
  | text s => s
  | number x => writeNumber x
  | boolean b => if b then "true" else "false"
  | null => "null"
  | undefined => "undefined"

/-- Whether a value counts as true. Empty text, zeros, undefined numbers and the values
for nothing do not. -/
def isTruthy : Value → Bool
  | text s => !s.isEmpty
  | number x => !x.isZero && x != .nan
  | boolean b => b
  | null => false
  | undefined => false

/-- The number that a value stands for in arithmetic. Blank text is zero, and other text
is read as a decimal text once trimmed. -/
def toNumber : Value → Binary64
  | text s =>
    let s := Text.trim s
    if s.isEmpty then .zero else (Decimal.read? s).getD .nan
  | number x => x
  | boolean b => if b then .one else .zero
  | null => .zero
  | undefined => .nan

/-- The operator `+`: if either side is text the texts are joined, otherwise the numbers
are added. -/
def add (a b : Value) : Value :=
  match a, b with
  | text s, b => text (s ++ b.toText)
  | a, text s => text (a.toText ++ s)
  | a, b => number (a.toNumber.add b.toNumber)

@[simp] theorem toText_text (s : String) : (text s).toText = s := rfl

@[simp] theorem add_text_left (s : String) (b : Value) :
    add (text s) b = text (s ++ b.toText) := by
  cases b <;> rfl

@[simp] theorem add_text_right (a : Value) (s : String) :
    add a (text s) = text (a.toText ++ s) := by
  cases a <;> rfl

end Value

end Constant

end MessageCatalog
