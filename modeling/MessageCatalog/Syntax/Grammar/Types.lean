import MessageCatalog.Syntax.Grammar.Basic

/-!
# Type annotations

Types have no meaning for messages, so reading a type yields an empty group. What
matters is where a type ends, because an expression or a body may follow it.
-/

namespace MessageCatalog

namespace Syntax

namespace Parse

variable (g : Grammar)

/-- A type, whose contents are of no interest. -/
def skipType : Parse Unit := do
  let _ ← g .type

def annotation : Parse Unit := do
  if ← hasTypes then
    if ← eatMark ":" then skipType g

def typeArguments : Parse Unit := do
  expectMark "<"
  let _ ← listUntilAngle (skipType g)

/-- One type parameter: modifiers, its name, a bound and a default. -/
def typeParameter : Parse Unit := do
  let _ ← repeated do
    let token ← peek
    if ["const", "in", "out"].any token.isWord then
      let follows ← ahead do
        take token
        return (← peek).word?.isSome
      if follows == some true then
        take token
        return some ()
    return none
  let _ ← anyName
  if ← eatWord "extends" then skipType g
  if ← eatMark "=" then skipType g

def typeParameters : Parse Unit := do
  if (← hasTypes) && (← atMark "<") then
    expectMark "<"
    let _ ← listUntilAngle (typeParameter g)

def typeOfParameters : Parse Unit := do
  expectMark "("
  let _ ← listUntil ")" do
    let _ ← eatMark "..."
    let token ← peek
    if token.isWord "this" then take token
    else
      let _ ← g (.pattern .unit)
    let _ ← eatMark "?"
    annotation g

def resultType : Parse Unit := do
  let predicate ← attempt? do
    let asserting ← attempt? do
      if !(← eatWord "asserts") then return none
      let token ← peek
      return if token.word?.isSome && !token.newline && !token.isWord "is" then some () else none
    let _ ← anyName
    let token ← peek
    if token.isWord "is" && !token.newline then
      take token
      skipType g
      return some ()
    return asserting
  if predicate.isNone then skipType g

def functionType : Parse Unit := do
  typeParameters g
  typeOfParameters g
  expectMark "=>"
  resultType g

def typeReference : Parse Unit := do
  let _ ← anyName
  let _ ← repeated do
    if ← eatMark "." then
      let _ ← anyName
      return some ()
    return none
  let token ← peek
  if token.isMark "<" && !token.newline then typeArguments g

def importType : Parse Unit := do
  expectWord "import"
  expectMark "("
  skipType g
  if ← eatMark "," then
    let _ ← g (.assignment .unit)
  expectMark ")"
  if ← eatMark "." then typeReference g
  else
    let token ← peek
    if token.isMark "<" && !token.newline then typeArguments g

/-- The bracketed key of a member: an index signature, a mapped key or an expression. -/
def bracketedKey : Parse Unit := do
  expectMark "["
  let index ← attempt? do
    let _ ← anyName
    if !(← eatMark ":") then return none
    skipType g
    expectMark "]"
    return some ()
  if index.isSome then return
  let mapped ← attempt? do
    let _ ← anyName
    if !(← eatWord "in") then return none
    skipType g
    if ← eatWord "as" then skipType g
    expectMark "]"
    return some ()
  if mapped.isSome then return
  let _ ← g (.assignment .unit)
  expectMark "]"

def startsKey (token : Token) : Bool :=
  match token.kind with
  | .name .. | .string .. | .number .. | .bigint .. | .privateName .. => true
  | .mark mark => mark == "["
  | _ => false

/-- Take a word that modifies a member, provided that a key follows. -/
def eatModifier (words : List String) : Parse Bool := do
  let token ← peek
  if words.any token.isWord then
    let follows ← ahead do
      take token
      let token ← peek
      return startsKey token || token.isMark "*"
    if follows == some true then
      take token
      return true
  return false

def signature? : Parse Unit := do
  if (← atMark "(") || (← atMark "<") then
    typeParameters g
    typeOfParameters g
    if ← eatMark ":" then resultType g
  else annotation g

def typeMember : Parse Unit := do
  let _ ← eatMark "+"
  let _ ← eatMark "-"
  let _ ← repeated do
    if ← eatModifier ["readonly", "get", "set", "new"] then return some ()
    return none
  let token ← peek
  if token.isMark "[" then bracketedKey g
  else if token.isWord "new" then
    let constructs ← ahead do
      take token
      return (← peek).isOneOf ["(", "<"]
    take token
    if constructs == some true then return (← signature? g)
  else if startsKey token then take token
  else if !token.isOneOf ["(", "<"] then
    fail (.expected "\x7d" (← describe token)) token.start
  let _ ← eatMark "+"
  let _ ← eatMark "-"
  let _ ← eatMark "?"
  signature? g

def objectType : Parse Unit := do
  expectMark "\x7b"
  let _ ← repeated do
    if ← atMark "\x7d" then return none
    typeMember g
    unless ← eatMark "," do expectStatementEnd
    return some ()
  expectMark "\x7d"

/-- A part of a tuple type, which may be labelled, optional or spread. -/
def tupleMember : Parse Unit := do
  let _ ← eatMark "..."
  let _ ← attempt? do
    let _ ← anyName
    let _ ← eatMark "?"
    if ← eatMark ":" then return some ()
    return none
  skipType g
  let _ ← eatMark "?"

def primaryType : Parse Unit := do
  let token ← peek
  match token.kind with
  | .string .. | .number .. | .bigint .. => take token
  | .template =>
    take token
    let _ ← templateParts token.start (skipType g)
  | .name .. =>
    if token.isWord "import" then importType g
    else if token.isWord "typeof" then
      take token
      if ← atWord "import" then importType g else typeReference g
    else typeReference g
  | .mark mark =>
    if mark == "\x7b" then objectType g
    else if mark == "[" then
      take token
      let _ ← listUntil "]" (tupleMember g)
    else if mark == "(" then
      take token
      skipType g
      expectMark ")"
    else if mark == "-" then
      take token
      let _ ← next
    else fail .typeExpected token.start
  | _ => fail .typeExpected token.start

def operatorType : Parse Unit := do
  let _ ← repeated do
    let token ← peek
    if ["keyof", "unique", "readonly"].any token.isWord then
      let follows ← ahead do
        take token
        let token ← peek
        return startsKey token || token.isOneOf ["\x7b", "("] || token.kind == .template
      if follows == some true then
        take token
        return some ()
    return none
  if ← eatWord "infer" then
    let _ ← anyName
    let _ ← attempt? do
      if !(← eatWord "extends") then return none
      let _ ← g .typeBeforeExtends
      if ← atMark "?" then return none
      return some ()
  else primaryType g
  let _ ← repeated do
    let token ← peek
    if token.isMark "[" && !token.newline then
      take token
      unless ← eatMark "]" do
        skipType g
        expectMark "]"
      return some ()
    return none

def unionType : Parse Unit := do
  let separator : Parse Bool := do
    if ← eatMark "|" then return true
    eatMark "&"
  let _ ← separator
  operatorType g
  let _ ← repeated do
    if ← separator then
      operatorType g
      return some ()
    return none

def plainType : Parse Node := do
  let start ← place
  let token ← peek
  if token.isWord "new" then
    take token
    functionType g
  else if token.isWord "abstract" then
    let constructs ← attempt? do
      take token
      if !(← eatWord "new") then return none
      functionType g
      return some ()
    if constructs.isNone then unionType g
  else if token.isMark "<" then functionType g
  else if token.isMark "(" then
    let function ← attempt? do
      typeOfParameters g
      return if ← eatMark "=>" then some () else none
    match function with
    | some () => resultType g
    | none => unionType g
  else unionType g
  node start .group []

def fullType : Parse Node := do
  let start ← place
  let _ ← g .typeBeforeExtends
  let token ← peek
  if token.isWord "extends" && !token.newline then
    take token
    let _ ← g .typeBeforeExtends
    expectMark "?"
    skipType g
    expectMark ":"
    skipType g
  node start .group []

end Parse

end Syntax

end MessageCatalog
