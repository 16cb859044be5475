import MessageCatalog.Constant.Evaluation
import MessageCatalog.Extraction.Walk
import MessageCatalog.Syntax.Unit
import MessageCatalog.Unit.Paths

/-!
# Units

A unit is one file of source text, and the step from its text to its catalog needs
nothing else: the text is read, the names it binds are collected, and a walk extracts
the messages. Units share no state. Any failure costs the unit its whole catalog.

How a text is read is left open where it can be: what is said of units holds for every
parser. The program reads them with the grammar of this library.
-/

namespace MessageCatalog

namespace Unit

open Binding Extraction Text
open Syntax (Node)

/-- Why a text has no catalog. There is always one reason only, since the first mistake ends the
extraction. -/
inductive Fault where
  /-- The text cannot be read. -/
  | malformed (file : String) (position : Position) (problem : Syntax.Problem)
  /-- A descriptor is not acceptable. -/
  | rejected (failure : Failure)
  deriving DecidableEq, Repr

def Fault.message : Fault → String
  | .malformed file position problem => atPosition file position problem.message
  | .rejected failure => failure.display

/-- What reads texts: in a dialect, a text has statements, or it is rejected for a problem at
one of its places. -/
abbrev Parser := Syntax.Dialect → Source → Except Syntax.Fault (List Node)

/-- Read the text of a unit. Its name decides the dialect. -/
def Parser.read (parser : Parser) (name : String) (source : Source) :
    Except Fault (List Node) :=
  match parser (dialect (.ofString name)) source with
  | .ok unit => .ok unit
  | .error fault => .error (.malformed name (source.position fault.place) fault.problem)

/-- How expressions of a unit are evaluated: with the constants that it declares itself, so that
nothing outside of its text matters. -/
def evaluator (unit : List Node) : Descriptor.Evaluator :=
  Constant.evaluate (Constants.ofUnit unit)

def setting (options : Options) (name : String) (source : Source) (unit : List Node) :
    Setting :=
  { options, source
    evaluator := evaluator unit
    resolver := .ofImports (importsOf unit)
    file := name }

/-- What is extracted from a unit. The messages stand in the order in which their keys were
declared first. -/
structure Extracted where
  name : String
  /-- The tree without the descriptions. -/
  tree : List Node
  messages : List Catalog.Entry
  warnings : List Warning

/-- Extract the messages of a unit from its text. A failure anywhere costs the unit all of its
messages, also those in front of it. -/
def Parser.extract (parser : Parser) (options : Options) (name text : String) :
    Except Fault Extracted := do
  let source := Source.ofString text
  let unit ← parser.read name source
  let (tree, walk) := (setting options name source unit).walk (.start options) unit
  match walk.failure with
  | some failure => throw (.rejected failure)
  | none => return ⟨name, tree, walk.progress.catalog.entries, walk.progress.warnings⟩

/-! ### With the grammar of this library -/

def read (name : String) (source : Source) : Except Fault (List Node) :=
  Parser.read Syntax.parse name source

def extract (options : Options) (name text : String) : Except Fault Extracted :=
  Parser.extract Syntax.parse options name text

end Unit

end MessageCatalog
