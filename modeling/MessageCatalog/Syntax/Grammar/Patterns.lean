import MessageCatalog.Syntax.Grammar.Types

/-!
# Patterns, keys and parameters

A pattern binds names. An expression that is assigned to is read as an expression first,
because only the operator after it tells; `Node.toPattern` then turns literals into the
patterns they look like, and leaves every other target as it is.
-/

namespace MessageCatalog

namespace Syntax

mutual

/-- The pattern that an assigned expression looks like. -/
def Node.toPattern : Node → Node
  | .mk (.identifier name) span _ => .mk (.binding name) span []
  | .mk .array span elements => .mk .arrayPattern span (Node.toPatterns elements)
  | .mk .object span properties => .mk .objectPattern span (Node.toPatterns properties)
  | .mk .spread span [e] => .mk .restPattern span [Node.toPattern e]
  | .mk .assignment span [target, value] => .mk .defaultPattern span [target, value]
  | .mk .property span [key, value] => .mk .propertyPattern span [key, Node.toPattern value]
  | .mk (.shorthand name) span _ => .mk (.shorthandPattern name) span []
  | node => node

def Node.toPatterns : List Node → List Node
  | [] => []
  | node :: nodes => Node.toPattern node :: Node.toPatterns nodes

end

namespace Parse

variable (g : Grammar)

def propertyKey (c : Context) : Parse Node := do
  let token ← peek
  let key (key : Key) : Parse Node := do
    take token
    node token.start (.key key) []
  match token.kind with
  | .name text _ => key (.named text)
  | .string text _ => key (.quoted text)
  | .number value => key (.numeric value)
  | .bigint digits => key (.bigint digits)
  | .privateName _ =>
    take token
    node token.start .group []
  | .mark "[" =>
    take token
    let e ← g (.assignment { c with inOperator := true })
    expectMark "]"
    node token.start .computedKey [e]
  | _ =>
    fail (.unexpected (← describe token)
      "identifier, string literal, numeric literal or [ for the computed key") token.start

/-- A pattern, and its default value if there is one. -/
def withDefault (c : Context) (start : Nat) (pattern : Node) : Parse Node := do
  if ← eatMark "=" then
    let value ← g (.assignment { c with inOperator := true })
    node start .defaultPattern [pattern, value]
  else return pattern

/-- A pattern inside another, with its default value. -/
def innerPattern (c : Context) : Parse Node := do
  let start := (← peek).start
  let pattern ← g (.pattern c)
  withDefault g c start pattern

def restOf (c : Context) (start : Nat) : Parse Node := do
  let pattern ← g (.pattern c)
  node start .restPattern [pattern]

def arrayPattern (c : Context) (start : Nat) : Parse Node := do
  let elements ← listUntil "]" do
    let token ← peek
    if token.isMark "," then return none
    if token.isMark "..." then
      take token
      return some (← restOf g c token.start)
    return some (← innerPattern g c)
  node start .arrayPattern (elements.filterMap id)

def patternProperty (c : Context) : Parse Node := do
  let token ← peek
  if token.isMark "..." then
    take token
    return (← restOf g c token.start)
  let key ← propertyKey g c
  if ← eatMark ":" then
    let pattern ← innerPattern g c
    node token.start .propertyPattern [key, pattern]
  else match token.plainName? with
    | some name =>
      if ← eatMark "=" then
        let value ← g (.assignment { c with inOperator := true })
        node token.start (.shorthandPattern name) [value]
      else node token.start (.shorthandPattern name) []
    | none => expectMark ":" *> node token.start .group []

def bindingPattern (c : Context) : Parse Node := do
  let token ← peek
  match token.kind with
  | .name .. =>
    let name ← plainName
    node token.start (.binding name) []
  | .mark "[" =>
    take token
    arrayPattern g c token.start
  | .mark "\x7b" =>
    take token
    let properties ← listUntil "\x7d" (patternProperty g c)
    node token.start .objectPattern properties
  | .finish => fail .unexpectedEnd token.start
  | _ =>
    fail (.unexpected (← describe token) "yield, an identifier, [ or \x7b") token.start

def fieldWords : List String := ["public", "private", "protected", "readonly", "override"]

def eatFieldWords : Parse Unit := do
  let _ ← repeated do
    let token ← peek
    if (← hasTypes) && fieldWords.any token.isWord then
      let follows ← ahead do
        take token
        let token ← peek
        return token.word?.isSome || token.isOneOf ["\x7b", "["]
      if follows == some true then
        take token
        return some ()
    return none

def parameter (c : Context) : Parse Node := do
  eatFieldWords
  let token ← peek
  let pattern ←
    if token.isMark "..." then
      take token
      restOf g c token.start
    else if token.isWord "this" && (← hasTypes) then
      take token
      node token.start (.binding "this") []
    else g (.pattern c)
  if ← hasTypes then
    let _ ← eatMark "?"
  annotation g
  let pattern ← withDefault g c token.start pattern
  node token.start .parameter [pattern]

def parameters (c : Context) : Parse (List Node) := do
  expectMark "("
  listUntil ")" (parameter g c)

end Parse

end Syntax

end MessageCatalog
