import MessageCatalog.Binding.Constants
import MessageCatalog.Constant.Value

/-!
# Evaluation before the program runs

Literals, templates, the operator `+`, the signs and the negation have a constant value
if their parts do, and so has the name of a constant. Nothing else has one: an
expression whose value is not known is not guessed.

Evaluation of an expression is a plain recursion that is told what names stand for. What
a name stands for is the value of its initial expression, in which the names on the way
there stand for nothing; so a constant that depends on itself has no value. The number
of constants bounds how far names can lead.
-/

namespace MessageCatalog

namespace Constant

open Syntax Binding

def applyUnary : UnaryOperator → Value → Option Value
  | .not, a => some (.boolean !a.isTruthy)
  | .minus, a => some (.number a.toNumber.neg)
  | .plus, a => some (.number a.toNumber)
  | .other, _ => none

/-- The text of a template: its texts, with the substituted values in between. A text with a
malformed escape is missing, and the template has no value then. -/
def interleave : List (Option String) → List (Option Value) → Option String
  | [], _ => some ""
  | text :: texts, [] => do
    let text ← text
    let rest ← interleave texts []
    some (text ++ rest)
  | text :: texts, value :: values => do
    let text ← text
    let value ← value
    let rest ← interleave texts values
    some (text ++ value.toText ++ rest)

mutual

/-- The value of an expression, given what names stand for. Parentheses and type annotations
change nothing; whatever is not listed here has no value. -/
def evaluateWith (lookup : String → Option Value) : Node → Option Value
  | .mk (.string s) _ _ => some (.text s)
  | .mk (.number x) _ _ => some (.number x)
  | .mk (.boolean b) _ _ => some (.boolean b)
  | .mk .null _ _ => some .null
  | .mk (.template texts) _ substitutions =>
    (interleave texts (evaluateEach lookup substitutions)).map .text
  | .mk .parenthesized _ [e] => evaluateWith lookup e
  | .mk .typed _ [e] => evaluateWith lookup e
  | .mk .plus _ [a, b] => do
    let a ← evaluateWith lookup a
    let b ← evaluateWith lookup b
    some (a.add b)
  | .mk (.unary operator) _ [e] => do applyUnary operator (← evaluateWith lookup e)
  | .mk (.identifier name) _ _ => lookup name
  | _ => none

def evaluateEach (lookup : String → Option Value) : List Node → List (Option Value)
  | [] => []
  | e :: es => evaluateWith lookup e :: evaluateEach lookup es

end

def undefinedName : String := "undefined"

/-- What a name stands for, when the names in `resolving` are on the way. Each step adds a
constant to these that was not among them, so a counter above the number of constants is never
used up. -/
def resolve (constants : Constants) : Nat → List String → String → Option Value
  | 0, _, _ => none
  | n + 1, resolving, name =>
    match constants.get? name with
    | none => if name = undefinedName then some .undefined else none
    | some value =>
      if resolving.contains name then none
      else evaluateWith (resolve constants n (name :: resolving)) value

def evaluate (constants : Constants) (e : Node) : Option Value :=
  evaluateWith (resolve constants (constants.size + 1) []) e

end Constant

end MessageCatalog
