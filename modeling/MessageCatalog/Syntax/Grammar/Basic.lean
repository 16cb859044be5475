import MessageCatalog.Syntax.Node
import MessageCatalog.Syntax.Token

/-!
# Reading with a grammar

The grammar is written as one function per construct. Constructs contain each other, so
every such function takes the grammar itself as an argument: a function from
nonterminals to readers, one level less deep. The knot is tied in one place, by
recursion on the depth that is left, and no construct has a recursion of its own.

A reader knows the source and the dialect, moves through the source, and may note a
fault on its way. Where two constructs start alike, the first is attempted: if it fails,
everything is put back to where it was, noted faults included.
-/

namespace MessageCatalog

namespace Syntax

/-- What a unit may contain besides plain script: type annotations, markup, or both. -/
structure Dialect where
  types : Bool
  markup : Bool
  deriving DecidableEq, Repr

structure Setting where
  chars : Chars
  dialect : Dialect

/-- How far a reader has come, and the first fault noted on the way. -/
structure Progress where
  place : Nat
  noted : Option Fault

abbrev Parse := ReaderT Setting (StateT Progress (Except Fault))

/-- What surrounds an expression or a statement, as far as its reading depends on it. -/
structure Context where
  /-- The operator `in` may occur. -/
  inOperator : Bool
  /-- Inside a generator, where `yield` is an operator. -/
  generator : Bool
  /-- Inside a function, which may return. -/
  returns : Bool
  /-- The first branch of a condition, which a colon has to follow. -/
  colonFollows : Bool
  /-- Inside a declaration without code, where constants need no value. -/
  ambient : Bool

def Context.unit : Context := ⟨true, false, false, false, false⟩

/-- The constructs that the functions of the grammar ask each other for. -/
inductive Nonterminal where
  | statement (context : Context)
  | expression (context : Context)
  | assignment (context : Context)
  | unary (context : Context)
  | callee (context : Context)
  | construction (context : Context)
  | pattern (context : Context)
  | function (context : Context) (start : Nat) (declared : Bool)
  | class (context : Context) (start : Nat) (declared : Bool)
  | type
  | typeBeforeExtends
  | markup

/-- A grammar gives each nonterminal its reader. -/
abbrev Grammar := Nonterminal → Parse Node

namespace Parse

def fail {α : Type} (problem : Problem) (place : Nat) : Parse α :=
  throw ⟨problem, place⟩

/-- Note a problem and go on. Only the first is kept, and it rejects the unit in the end unless
something that cannot be read does so first. -/
def note (problem : Problem) (place : Nat) : Parse Unit :=
  modify fun p => { p with noted := p.noted.orElse fun _ => some ⟨problem, place⟩ }

def chars : Parse Chars := return (← read).chars

def hasTypes : Parse Bool := return (← read).dialect.types

def hasMarkup : Parse Bool := return (← read).dialect.markup

def place : Parse Nat := return (← get).place

def moveTo (place : Nat) : Parse Unit :=
  modify fun p => { p with place }

def lift {α : Type} : Except Fault α → Parse α
  | .ok a => pure a
  | .error fault => throw fault

def peek : Parse Token := do
  lift (nextToken (← chars) (← place))

def take (token : Token) : Parse Unit := do
  moveTo token.stop
  match token.problem with
  | some fault => note fault.problem fault.place
  | none => pure ()

def next : Parse Token := do
  let token ← peek
  take token
  return token

/-- Try a reader; if it fails, put everything back, faults included that it had noted before it
failed. -/
def attempt {α : Type} (p : Parse α) : Parse (Option α) := fun setting progress =>
  match p setting progress with
  | .ok (a, progress) => .ok (some a, progress)
  | .error _ => .ok (none, progress)

/-- Try a reader that may also decline; then put everything back as well. -/
def attempt? {α : Type} (p : Parse (Option α)) : Parse (Option α) := do
  let before ← get
  match ← attempt p with
  | some (some a) => return some a
  | _ =>
    set before
    return none

/-- Run a reader for what it says about the text ahead, without moving. -/
def ahead {α : Type} (p : Parse α) : Parse (Option α) := do
  let before ← get
  let result ← attempt p
  set before
  return result

/-- Repeat a step until it declines. A step that does not decline takes a character, so the size
of the source bounds the repetitions. -/
def repeated {α : Type} (step : Parse (Option α)) : Parse (List α) := do
  let rec loop : Nat → List α → Parse (List α)
    | 0, found => pure found.reverse
    | n + 1, found => do
      match ← step with
      | some a => loop n (a :: found)
      | none => pure found.reverse
  loop ((← chars).size + 1) []

/-- Extend a result step by step until a step declines. -/
def extended {α : Type} (step : α → Parse (Option α)) (a : α) : Parse α := do
  let rec loop : Nat → α → Parse α
    | 0, a => pure a
    | n + 1, a => do
      match ← step a with
      | some b => loop n b
      | none => pure a
  loop ((← chars).size + 1) a

def node (start : Nat) (form : Form) (children : List Node) : Parse Node :=
  return .mk form ⟨start, ← place⟩ children

end Parse

namespace Token

def isMark (token : Token) (mark : String) : Bool :=
  token.kind == .mark mark

def isOneOf (token : Token) (marks : List String) : Bool :=
  match token.kind with
  | .mark mark => marks.contains mark
  | _ => false

def isWord (token : Token) (word : String) : Bool :=
  token.kind == .name word false

/-- The word of a token that is written without escapes. -/
def word? (token : Token) : Option String :=
  match token.kind with
  | .name word false => some word
  | _ => none

def isFinish (token : Token) : Bool :=
  token.kind == .finish

end Token

def reservedWords : List String :=
  ["break", "case", "catch", "class", "const", "continue", "debugger", "default", "delete",
    "do", "else", "enum", "export", "extends", "false", "finally", "for", "function", "if",
    "import", "in", "instanceof", "new", "null", "return", "super", "switch", "this", "throw",
    "true", "try", "typeof", "var", "void", "while", "with"]

def Token.plainName? (token : Token) : Option String :=
  match token.kind with
  | .name text _ => if reservedWords.contains text then none else some text
  | _ => none

namespace Parse

def describe (token : Token) : Parse String :=
  return token.describe (← chars)

def atMark (mark : String) : Parse Bool := return (← peek).isMark mark

def atWord (word : String) : Parse Bool := return (← peek).isWord word

def eatMark (mark : String) : Parse Bool := do
  let token ← peek
  if token.isMark mark then
    take token
    return true
  return false

def eatWord (word : String) : Parse Bool := do
  let token ← peek
  if token.isWord word then
    take token
    return true
  return false

def expectMark (mark : String) : Parse Unit := do
  let token ← peek
  if token.isMark mark then take token
  else fail (.expected mark (← describe token)) token.start

def expectWord (word : String) : Parse Unit := do
  let token ← peek
  if token.isWord word then take token
  else fail (.expected word (← describe token)) token.start

def expectAngle : Parse Unit := expectMark ">"

def plainName : Parse String := do
  let token ← peek
  match token.plainName? with
  | some name =>
    take token
    return name
  | none => fail .nameExpected token.start

def anyName : Parse String := do
  let token ← peek
  match token.kind with
  | .name text _ =>
    take token
    return text
  | _ => fail .nameExpected token.start

/-- Whether a statement may end before the next token: at a semicolon, before a closing brace,
at the end, and at any line end. -/
def atStatementEnd : Parse Bool := do
  let token ← peek
  return token.isMark ";" || token.isMark "\x7d" || token.isFinish || token.newline

def eatStatementEnd : Parse Bool := do
  if ← eatMark ";" then return true
  atStatementEnd

def expectStatementEnd : Parse Unit := do
  unless ← eatStatementEnd do
    let token ← peek
    fail (.expected ";" (← describe token)) token.start

/-- Read items up to a closing mark, which is taken. Commas separate the items, and the
last may have one. -/
def listUntil {α : Type} (closing : String) (item : Parse α) : Parse (List α) := do
  let items ← repeated do
    if ← atMark closing then return none
    let a ← item
    unless ← atMark closing do expectMark ","
    return some a
  expectMark closing
  return items

/-- The same for items between angle brackets, after the opening one. -/
def listUntilAngle {α : Type} (item : Parse α) : Parse (List α) :=
  listUntil ">" item

/-- Read a template after its opening quote: the texts, and what was read for each
substitution. -/
def templateParts {α : Type} (start : Nat) (substitution : Parse α) :
    Parse (List (Option String) × List α) := do
  let piece : Parse (Option String × Bool) := do
    let (text, stop, more) ← lift (readTemplatePiece (← chars) start (← place))
    moveTo stop
    return (text, more)
  let (text, more) ← piece
  let step (state : List (Option String) × List α × Bool) := do
    let (texts, found, more) := state
    if !more then return none
    let a ← substitution
    expectBrace
    let (text, more) ← piece
    return some (text :: texts, a :: found, more)
  let (texts, found, _) ← extended step ([text], [], more)
  return (texts.reverse, found.reverse)
where
  /-- The brace that ends a substitution. -/
  expectBrace : Parse Unit := expectMark "\x7d"

end Parse

end Syntax

end MessageCatalog
