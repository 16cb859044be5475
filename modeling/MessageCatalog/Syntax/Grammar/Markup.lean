import MessageCatalog.Syntax.Grammar.Basic
import MessageCatalog.Syntax.Grammar.Types

/-!
# Markup

An element is a group of its opening tag and its children. The opening tag is a node of
its own, because it carries the attributes and is what a message is declared by. Text
between tags has no node. Tag and attribute names may hold hyphens, and attribute
strings are raw except for character entities, so both are read from the characters and
not from tokens.
-/

namespace MessageCatalog

namespace Syntax

open Text

namespace Parse

variable (g : Grammar)

def skip : Parse Nat := do
  let (next, _) ← lift (skipTrivia (← chars) ((← chars).size + 1) false (← place))
  moveTo next
  return next

def markupName : Parse String := do
  let start ← skip
  match (← chars)[start]? with
  | some c =>
    if isIdentifierStart c then
      let stop := scan (← chars) (fun c => isIdentifierPart c || c == '-') start
      moveTo stop
      return sliceText (← chars) start stop
    else fail .nameExpected start
  | none => fail .nameExpected start

/-- The name of a tag: one name, a name in a space, or a path. -/
def tagName : Parse Tag := do
  let first ← markupName
  if ← eatMark ":" then
    return .namespaced first (← markupName)
  extended (fun tag => do
    if ← eatMark "." then return some (.member tag (← markupName))
    return none) (.plain first)

def decodeEntities : Nat → List Char → List Char
  | 0, _ => []
  | _ + 1, [] => []
  | n + 1, c :: s =>
    if c == '&' then
      match readEntity? s with
      | some (d, length) => d :: decodeEntities n (s.drop length)
      | none => c :: decodeEntities n s
    else c :: decodeEntities n s

def attributeString (quote : Char) (start : Nat) : Parse Node := do
  let stop := scan (← chars) (· != quote) (start + 1)
  if stop < (← chars).size then
    let raw := slice (← chars) (start + 1) stop
    moveTo (stop + 1)
    node start (.string (String.ofList (decodeEntities raw.length raw))) []
  else fail .unterminatedString start

/-- What stands in braces between tags or as an attribute value, after the brace. -/
def containerRest (start : Nat) : Parse Node := do
  if ← eatMark "\x7d" then node start .container []
  else
    let spread ← eatMark "..."
    let e ← g (.expression .unit)
    expectMark "\x7d"
    node start (if spread then .spread else .container) [e]

def attributeValue : Parse Node := do
  let start ← skip
  match (← chars)[start]? with
  | some c =>
    if c == '"' || c == '\'' then attributeString c start
    else if c == '{' then
      moveTo (start + 1)
      let value ← containerRest g start
      if value.children.isEmpty then note .emptyAttributeValue start
      return value
    else if c == '<' then g .markup
    else fail .attributeValueExpected start
  | none => fail .attributeValueExpected start

/-- An attribute, if one follows. -/
def attribute? : Parse (Option Node) := do
  let start ← skip
  match (← chars)[start]? with
  | some c =>
    if c == '{' then
      moveTo (start + 1)
      expectMark "..."
      let e ← g (.assignment .unit)
      expectMark "\x7d"
      return some (← node start .spread [e])
    else if isIdentifierStart c then
      let first ← markupName
      let name ← if ← eatMark ":" then pure (first ++ ":" ++ (← markupName)) else pure first
      let value ← if ← eatMark "=" then pure [← attributeValue g] else pure []
      return some (← node start (.attribute name) value)
    else return none
  | none => return none

/-- A child of an element, if one comes before the closing tag. -/
def child? : Parse (Option (Option Node)) := do
  let start ← place
  match (← chars)[start]? with
  | none => fail (.expected "</" "<eof>") start
  | some c =>
    if c == '{' then
      moveTo (start + 1)
      return some (some (← containerRest g start))
    else if c == '<' then
      moveTo (start + 1)
      let next ← skip
      moveTo start
      if (← chars)[next]? == some '/' then return none
      return some (some (← g .markup))
    else
      if c == '>' || c == '\x7d' then note (.strayMarkup c) start
      moveTo (scan (← chars) (fun c => c != '{' && c != '<' && c != '>' && c != '\x7d')
        (start + 1))
      return some none

def closingStart : Parse Unit := do
  let start ← place
  moveTo (start + 1)
  let next ← skip
  moveTo (next + 1)

/-- The children of an element, without the texts. -/
def markupChildren : Parse (List Node) := do
  let children ← repeated (child? g)
  return children.filterMap id

def closeTag : Parse Unit := do
  let next ← skip
  if (← chars)[next]? == some '>' then moveTo (next + 1)
  else
    let token ← peek
    fail (.expected ">" (← describe token)) token.start

def closingTag (tag : Tag) : Parse Unit := do
  closingStart
  let start ← skip
  match ← attempt tagName with
  | some name =>
    if name != tag then fail (.closingTagExpected tag.text) start
    closeTag
  | none => fail (.closingTagExpected tag.text) start

def fragmentRest (start : Nat) : Parse Node := do
  let children ← markupChildren g
  closingStart
  let next ← skip
  if (← chars)[next]? != some '>' then fail .closingFragmentExpected next
  moveTo (next + 1)
  node start .group children

def markupElement : Parse Node := do
  let start ← skip
  moveTo (start + 1)
  let next ← skip
  if (← chars)[next]? == some '>' then
    moveTo (next + 1)
    return (← fragmentRest g start)
  let tag ← tagName
  if (← hasTypes) && (← atMark "<") then typeArguments g
  let attributes ← repeated (attribute? g)
  let next ← skip
  if (← chars)[next]? == some '/' then
    moveTo (next + 1)
    closeTag
    let opening ← node start (.element tag) attributes
    node start .group [opening]
  else
    closeTag
    let opening ← node start (.element tag) attributes
    let children ← markupChildren g
    closingTag tag
    node start .group (opening :: children)

end Parse

end Syntax

end MessageCatalog
