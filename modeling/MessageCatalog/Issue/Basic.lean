import MessageCatalog.Unit.Basic

/-!
# Issues

Everything that a run has to tell about a unit is an issue: its failure, or a warning.
An issue has a severity, a rule that it comes from, a place, a message of one line, and
perhaps details and a hint.

Issues are ordered by place first, so that a report can be read along with the sources,
then by rule and message. The order is stable: what it does not tell apart stays in the
order of arrival.
-/

namespace MessageCatalog

inductive Severity where
  | error
  | warning
  deriving DecidableEq, Repr

def Severity.word : Severity → String
  | .error => "error"
  | .warning => "warning"

/-- What an issue is about. The order of the rules is that of reports, among issues at one
place. -/
inductive Rule where
  | staticEvaluation
  | messageSyntax
  | missingField
  | missingDescription
  | duplicateId
  | unsupportedComponent
  | parseError
  | ioError
  deriving DecidableEq, Repr

namespace Rule

def name : Rule → String
  | staticEvaluation => "static-evaluation"
  | messageSyntax => "message-syntax"
  | missingField => "missing-field"
  | missingDescription => "missing-description"
  | duplicateId => "duplicate-id"
  | unsupportedComponent => "unsupported-component"
  | parseError => "parse-error"
  | ioError => "io-error"

def rank (rule : Rule) : Nat :=
  rule.ctorIdx

def ofProblem : Extraction.Problem → Rule
  | .dynamicValue _ => staticEvaluation
  | .malformedMessage _ => messageSyntax
  | .malformedAttribute _ => messageSyntax
  | .missingField _ => missingField
  | .missingDescription => missingDescription
  | .conflict _ => duplicateId

end Rule

/-- Something to report about a unit. Only a warning comes from a unit that was processed; each
of the others is the one failure of its unit. -/
inductive Issue where
  /-- A descriptor is not acceptable. -/
  | rejected (failure : Extraction.Failure)
  /-- A message is declared in a way that is not extracted. -/
  | unsupported (warning : Extraction.Warning)
  /-- The text of the unit cannot be read. -/
  | malformed (file : String) (position : Text.Position) (text : String)
  /-- The unit or its catalog cannot be accessed. -/
  | inaccessible (file : String) (text : String)
  deriving DecidableEq, Repr

/-- Where an issue is: at a position shown in its line, at a bare position, or somewhere
in a file. -/
inductive Place where
  | shown (context : Text.Context)
  | position (file : String) (position : Text.Position)
  | anywhere (file : String)
  deriving DecidableEq, Repr

namespace Place

def fileName : Place → String
  | shown context => context.file
  | position file _ => file
  | anywhere file => file

/-- The line of a place, zero for a whole file, so that what is wrong with a file as a whole
comes before what is wrong inside it. -/
def line : Place → Nat
  | shown context => context.position.line
  | position _ p => p.line
  | anywhere _ => 0

def column : Place → Nat
  | shown context => context.position.column
  | position _ p => p.column
  | anywhere _ => 0

def sourceLine? : Place → Option String
  | shown context => some context.sourceLine
  | _ => none

end Place

namespace Issue

def ofFault : Unit.Fault → Issue
  | .malformed file position problem => malformed file position problem.message
  | .rejected failure => rejected failure

def severity : Issue → Severity
  | unsupported _ => .warning
  | _ => .error

def rule : Issue → Rule
  | rejected failure => .ofProblem failure.problem
  | unsupported _ => .unsupportedComponent
  | malformed _ _ _ => .parseError
  | inaccessible _ _ => .ioError

def place : Issue → Place
  | rejected failure => .shown failure.context
  | unsupported warning => .shown warning.context
  | malformed file position _ => .position file position
  | inaccessible file _ => .anywhere file

/-- The text up to the first line feed, and the text after it if there is one. The line feed
belongs to neither part. -/
def cutLine : List Char → List Char × Option (List Char)
  | [] => ([], none)
  | c :: s =>
    if c = '\n' then ([], some s)
    else
      let (line, rest) := cutLine s
      (c :: line, rest)

/-- The message of an issue. What is wrong with a descriptor takes one line, up to the first
line feed of its wording; the rest of that goes to the details. -/
def message : Issue → String
  | rejected failure => String.ofList (cutLine failure.problem.message.toList).1
  | unsupported warning => warning.message
  | malformed _ _ text => text
  | inaccessible _ text => text

def details? : Issue → Option String
  | rejected failure => (cutLine failure.problem.message.toList).2.map String.ofList
  | _ => none

def hintFor? : Extraction.Problem → Option String
  | .dynamicValue _ => some "use string literals, or `const` bindings of string literals"
  | .conflict _ => some "give one of the messages a different `id`"
  | _ => none

def hint? : Issue → Option String
  | rejected failure => hintFor? failure.problem
  | _ => none

/-- The rank of an issue: file, line, column, rule and message. Details and hint are not part of
it, so issues may differ and still have one rank. -/
def key (issue : Issue) : List (List Nat) :=
  [issue.place.fileName.toList.map Char.toNat, [issue.place.line], [issue.place.column],
    [issue.rule.rank], issue.message.toList.map Char.toNat]

def precedes (a b : Issue) : Bool :=
  (compare a.key b.key).isLE

def sort (issues : List Issue) : List Issue :=
  issues.mergeSort precedes

def errorCount (issues : List Issue) : Nat :=
  issues.countP (·.severity = .error)

end Issue

end MessageCatalog
