import MessageCatalog.Syntax.Grammar.Patterns

/-!
# Functions and classes

A function's node holds its parameters and then its body. A body in braces is a scope.
Signatures without a body are functions too; they bind their parameters and nothing
else. The members of a class come before the expression that it extends, because that
is the order in which they are visited.
-/

namespace MessageCatalog

namespace Syntax

namespace Parse

variable (g : Grammar)

def statementsUntilBrace (c : Context) : Parse (List Node) := do
  let statements ← repeated do
    let token ← peek
    if token.isMark "\x7d" || token.isFinish then return none
    return some (← g (.statement c))
  expectMark "\x7d"
  return statements

def block (c : Context) : Parse Node := do
  let start := (← peek).start
  expectMark "\x7b"
  let statements ← statementsUntilBrace g c
  node start .scope statements

def bodyContext (c : Context) (generator : Bool) : Context :=
  { c with inOperator := true, generator, returns := true, colonFollows := false }

/-- The body of a function, if it has one. Only with types may it be left out. -/
def functionBody (c : Context) (generator : Bool) : Parse (List Node) := do
  if (← atMark "\x7b") || !(← hasTypes) then
    return [← block g (bodyContext c generator)]
  expectStatementEnd
  return []

/-- A function from its type parameters on. `front` comes before its parameters. -/
def functionRest (c : Context) (start : Nat) (name : Option String) (generator : Bool)
    (front : List Node) : Parse Node := do
  typeParameters g
  let parameters ← parameters g (bodyContext c generator)
  if (← hasTypes) && (← eatMark ":") then resultType g
  let body ← functionBody g c generator
  node start (.function name) (front ++ parameters ++ body)

/-- A function from its keyword on. A declared function has to have a name. -/
def functionDefinition (c : Context) (start : Nat) (declared : Bool) : Parse Node := do
  expectWord "function"
  let generator ← eatMark "*"
  let token ← peek
  let name ← match token.plainName? with
    | some name =>
      take token
      pure (some name)
    | none => if declared then fail .nameExpected token.start else pure none
  functionRest g c start name generator []

def memberWords : List String :=
  ["declare", "public", "private", "protected", "abstract", "override", "readonly", "static",
    "async", "accessor", "get", "set"]

/-- Take one word in front of a class member; it has to be followed by the member. -/
def memberWord? : Parse (Option String) := do
  let token ← peek
  match token.word? with
  | some word =>
    if !memberWords.contains word then return none
    let follows ← ahead do
      take token
      let token ← peek
      return startsKey token || token.isMark "*" || (word == "static" && token.isMark "\x7b")
    if follows == some true then
      take token
      return some word
    return none
  | none => return none

def indexSignature? : Parse (Option Node) := do
  if !(← hasTypes) then return none
  let start := (← peek).start
  attempt? do
    if !(← eatMark "[") then return none
    let _ ← anyName
    if !(← eatMark ":") then return none
    skipType g
    expectMark "]"
    annotation g
    expectStatementEnd
    return some (← node start .group [])

def isConstructorKey (key : Node) : Bool :=
  key.form matches .key (.named "constructor") || key.form matches .key (.quoted "constructor")

def memberRest (c : Context) (start : Nat) (words : List String) : Parse Node := do
  let inner := { c with inOperator := true, returns := false, generator := false }
  let generator ← eatMark "*"
  let key ← propertyKey g inner
  if ← hasTypes then
    let _ ← eatMark "?"
    let _ ← eatMark "!"
  let token ← peek
  if token.isOneOf ["(", "<"] then
    if isConstructorKey key && !words.contains "static" then
      functionRest g inner start none generator [key]
    else
      let function ← functionRest g inner token.start none generator []
      node start .method [key, function]
  else
    annotation g
    let value ← if ← eatMark "=" then pure [← g (.assignment inner)] else pure []
    expectStatementEnd
    node start .group (key :: value)

/-- A member of a class, or nothing where a semicolon stands. -/
def classMember (c : Context) : Parse (Option Node) := do
  if ← eatMark ";" then return none
  let start := (← peek).start
  let words ← repeated memberWord?
  if words.contains "static" && (← atMark "\x7b") then
    return some (← block g { c with inOperator := true, returns := false })
  match ← indexSignature? g with
  | some signature => return some signature
  | none => return some (← memberRest g c start words)

/-- A class from its keyword on. A declared class has to have a name. -/
def classDefinition (c : Context) (start : Nat) (declared : Bool) : Parse Node := do
  expectWord "class"
  let token ← peek
  let name ← match token.plainName? with
    | some name =>
      if token.isWord "implements" then pure none
      else
        take token
        pure (some name)
    | none => if declared then fail .nameExpected token.start else pure none
  typeParameters g
  let extended ←
    if ← eatWord "extends" then
      let e ← g (.callee c)
      if (← hasTypes) && (← atMark "<") then typeArguments g
      pure [e]
    else pure []
  if (← hasTypes) && (← eatWord "implements") then
    let _ ← repeated do
      if ← atMark "\x7b" then return none
      skipType g
      let _ ← eatMark ","
      return some ()
  expectMark "\x7b"
  let members ← repeated do
    let token ← peek
    if token.isMark "\x7d" || token.isFinish then return none
    return some (← classMember g c)
  expectMark "\x7d"
  node start (.class name) (members.filterMap id ++ extended)

end Parse

end Syntax

end MessageCatalog
