import MessageCatalog.Syntax.Grammar.Statements

/-!
# Units

A unit is the text of one file. Here the grammar is tied to itself: a nonterminal is
read by its function with the grammar of one level less. Levels are counted down from a
bound far above what the text can need, since every construct that contains another
takes at least one character, and only a fixed number of nonterminals lie in between.

Some texts are read here that a stricter reader rejects, such as a `try` statement that
handles nothing or an assignment to a literal. What is said of units elsewhere does not
depend on this, since it is said for every parser.
-/

namespace MessageCatalog

namespace Syntax

open Parse

/-- The grammar with a bound on how deep constructs contain each other. -/
def grammar : Nat → Grammar
  | 0, _ => do Parse.fail .expressionExpected (← Parse.place)
  | n + 1, nonterminal =>
    let g := grammar n
    match nonterminal with
    | .statement c => anyStatement g c
    | .expression c => fullExpression g c
    | .assignment c => assignmentExpression g c
    | .unary c => unaryExpression g c
    | .callee c => calleeExpression g c
    | .construction c => construction g c
    | .pattern c => bindingPattern g c
    | .function c start declared => functionDefinition g c start declared
    | .class c start declared => classDefinition g c start declared
    | .type => fullType g
    | .typeBeforeExtends => plainType g
    | .markup => markupElement g

def levelsPerCharacter : Nat := 16

/-- The statements of a unit, behind a first line for an interpreter. The levels of the grammar
are counted from the length of the text. -/
def unitStatements : Parse (List Node) := do
  let size := (← chars).size
  moveTo (afterInterpreterLine (← chars))
  let g := grammar (levelsPerCharacter * (size + 1))
  repeated do
    if (← peek).isFinish then return none
    return some (← g (.statement .unit))

/-- Read a unit: its statements, or the fault that it is rejected for. A fault that was only
noted rejects a unit too, once the rest of it has been read. -/
def parse (dialect : Dialect) (source : Text.Source) : Except Fault (List Node) := do
  let (statements, progress) ← unitStatements ⟨source.chars, dialect⟩ ⟨0, none⟩
  match progress.noted with
  | some fault => throw fault
  | none => return statements

end Syntax

end MessageCatalog
