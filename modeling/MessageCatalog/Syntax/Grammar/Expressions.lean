import MessageCatalog.Syntax.Grammar.Definitions
import MessageCatalog.Syntax.Grammar.Markup

/-!
# Expressions

Operators are read by precedence: an operand, then every operator that binds tighter
than the one before it. An operator without a left operand is noted and read on, as if
an operand stood there.

Two constructs need a second look. A parenthesis may open the parameters of an arrow
function, which only the arrow after them tells. An opening angle bracket after an
operand may open type arguments, which only what follows the closing one tells.
-/

namespace MessageCatalog

namespace Syntax

namespace Parse

variable (g : Grammar)

/-! ### Literals -/

def inner (c : Context) : Context :=
  { c with inOperator := true, colonFollows := false }

/-- An element of an array or an argument of a call, which may be spread. -/
def spreadable (c : Context) : Parse Node := do
  let token ← peek
  if token.isMark "..." then
    take token
    let e ← g (.assignment (inner c))
    node token.start .spread [e]
  else g (.assignment (inner c))

def arguments (c : Context) : Parse (List Node) := do
  expectMark "("
  listUntil ")" (spreadable g c)

def templateRest (c : Context) (start : Nat) (tagged : Bool) : Parse Node := do
  let (texts, substitutions) ← templateParts start (g (.expression (inner c)))
  if !tagged && texts.contains none then note (.badEscape "4 hex characters") start
  node start (.template texts) substitutions

def arrayRest (c : Context) (start : Nat) : Parse Node := do
  let elements ← listUntil "]" do
    if ← atMark "," then return none
    return some (← spreadable g c)
  node start .array (elements.filterMap id)

/-- The words in front of a property: of accessors and of asynchronous methods. -/
def propertyWord? : Parse (Option String) := do
  let token ← peek
  match token.word? with
  | some word =>
    if !(["get", "set", "async"].contains word) then return none
    let follows ← ahead do
      take token
      let token ← peek
      return startsKey token || (word == "async" && token.isMark "*")
    if follows == some true then
      take token
      return some word
    return none
  | none => return none

def getterRest (c : Context) (start : Nat) : Parse Node := do
  let key ← propertyKey g c
  expectMark "("
  expectMark ")"
  if (← hasTypes) && (← eatMark ":") then resultType g
  let body ← block g (bodyContext c false)
  node start .getter [key, body]

def setterRest (c : Context) (start : Nat) : Parse Node := do
  let key ← propertyKey g c
  let parameters ← parameters g (bodyContext c false)
  if (← hasTypes) && (← eatMark ":") then resultType g
  let body ← block g (bodyContext c false)
  node start .setter (key :: parameters ++ [body])

/-- A property of an object. A name may stand for itself, and then even have a default
value, in case the object turns out to be a pattern. -/
def objectProperty (c : Context) : Parse Node := do
  let token ← peek
  let start := token.start
  if token.isMark "..." then return (← spreadable g c)
  match ← propertyWord? with
  | some "get" => return (← getterRest g c start)
  | some "set" => return (← setterRest g c start)
  | _ => pure ()
  let generator ← eatMark "*"
  let nameToken ← peek
  let key ← propertyKey g c
  let following ← peek
  if following.isOneOf ["(", "<"] then
    let function ← functionRest g c following.start none generator []
    node start .method [key, function]
  else if following.isMark ":" then
    take following
    let value ← g (.assignment (inner c))
    node start .property [key, value]
  else match nameToken.plainName? with
    | some name =>
      if ← eatMark "=" then
        let value ← g (.assignment (inner c))
        node start (.shorthandPattern name) [value]
      else node start (.shorthand name) []
    | none => expectMark ":" *> node start .group []

def objectRest (c : Context) (start : Nat) : Parse Node := do
  let properties ← listUntil "\x7d" (objectProperty g (inner c))
  node start .object properties

def parenthesizedRest (c : Context) (start : Nat) : Parse Node := do
  if ← atMark ")" then fail .emptyParentheses start
  let e ← g (.expression (inner c))
  unless ← eatMark ")" do
    let token ← peek
    fail (.expected "," (← describe token)) token.start
  node start .parenthesized [e]

def patternLiteral (start : Nat) : Parse Node := do
  let stop ← lift (patternEnd (← chars) start ((← chars).size + 1) false (start + 1))
  moveTo stop
  node start .group []

/-! ### Operands -/

def wordExpression (c : Context) (token : Token) (word : String) : Parse Node := do
  let start := token.start
  let leaf (form : Form) : Parse Node := do
    take token
    node start form []
  match word with
  | "this" => leaf .group
  | "null" => leaf .null
  | "true" => leaf (.boolean true)
  | "false" => leaf (.boolean false)
  | "super" => leaf .superKeyword
  | "function" => g (.function c start false)
  | "class" => g (.class c start false)
  | "new" => g (.construction c)
  | "import" =>
    take token
    if ← eatMark "." then
      let _ ← anyName
      node start .group []
    else node start .importKeyword []
  | "async" =>
    let defines ← ahead do
      take token
      let token ← peek
      return token.isWord "function" && !token.newline
    if defines == some true then
      take token
      g (.function c start false)
    else leaf (.identifier word)
  | _ =>
    if reservedWords.contains word then fail .expressionExpected start
    else leaf (.identifier word)

def primary (c : Context) : Parse Node := do
  let token ← peek
  let start := token.start
  match token.kind with
  | .number value =>
    take token
    node start (.number value) []
  | .bigint _ =>
    take token
    node start .group []
  | .string value _ =>
    take token
    node start (.string value) []
  | .template =>
    take token
    templateRest g c start false
  | .privateName _ =>
    take token
    node start .group []
  | .name text escaped =>
    if escaped then
      take token
      node start (.identifier text) []
    else wordExpression g c token text
  | .finish => fail .expressionExpected start
  | .mark mark =>
    match mark with
    | "(" =>
      take token
      parenthesizedRest g c start
    | "[" =>
      take token
      arrayRest g c start
    | "\x7b" =>
      take token
      objectRest g c start
    | "/" => patternLiteral start
    | "/=" => patternLiteral start
    | "<" => if ← hasMarkup then g .markup else fail .expressionExpected start
    | _ => fail .expressionExpected start

/-- Whether a node is a link of an optional chain, so that what follows belongs to the
chain too. -/
def continuesChain : Node → Bool
  | .mk .chain _ _ => true
  | .mk .typed _ [.mk .chain _ _] => true
  | _ => false

/-- Whether type arguments can end before a token: no operand may start with it. -/
def endsTypeArguments (token : Token) : Bool :=
  match token.kind with
  | .finish => true
  | .mark mark =>
    !(["(", "[", "\x7b", "+", "-", "!", "~", "++", "--", "/", "/=", "<", "@"].contains mark)
  | .name word false => ["in", "instanceof", "as", "satisfies", "of"].contains word
  | _ => false

/-- A call, which is a link if its callee belongs to an optional chain. -/
def callNode (c : Context) (start : Nat) (callee : Node) : Parse Node := do
  let given ← arguments g c
  node start (if continuesChain callee then .chain else .call) (callee :: given)

def optionalLink (c : Context) (start : Nat) (e : Node) : Parse Node := do
  if (← hasTypes) && (← atMark "<") then typeArguments g
  let token ← peek
  if token.isMark "(" then
    let given ← arguments g c
    node start .chain (e :: given)
  else if token.isMark "[" then
    take token
    let index ← g (.expression (inner c))
    expectMark "]"
    node start .chain [e, index]
  else
    match token.kind with
    | .privateName _ => take token
    | _ =>
      let _ ← anyName
    node start .chain [e]

/-- Type arguments after an operand, with the call or template they belong to. -/
def typedSubscript? (c : Context) (start : Nat) (calls : Bool) (e : Node) :
    Parse (Option Node) :=
  attempt? do
    typeArguments g
    let token ← peek
    if token.isMark "(" then
      if calls then return some (← callNode g c start e)
      return some (← node start .group [e])
    match token.kind with
    | .template =>
      take token
      let template ← templateRest g c token.start true
      return some (← node start .group [e, template])
    | _ =>
      if endsTypeArguments token || token.newline then return some (← node start .group [e])
      return none

/-- What may follow an operand: a member, a call, a template or a type operator. -/
def subscript? (c : Context) (start : Nat) (calls : Bool) (e : Node) :
    Parse (Option Node) := do
  let token ← peek
  match token.kind with
  | .template =>
    take token
    let template ← templateRest g c token.start true
    return some (← node start .group [e, template])
  | .mark mark =>
    match mark with
    | "." =>
      take token
      let name ← peek
      match name.kind with
      | .privateName _ => take name
      | _ =>
        let _ ← anyName
      return some (← node start (if continuesChain e then .chain else .group) [e])
    | "?." =>
      if !calls then return none
      take token
      return some (← optionalLink g c start e)
    | "[" =>
      take token
      let index ← g (.expression (inner c))
      expectMark "]"
      return some (← node start (if continuesChain e then .chain else .group) [e, index])
    | "!" =>
      if !(← hasTypes) || token.newline then return none
      take token
      return some (← node start .typed [e])
    | "(" =>
      if calls then return some (← callNode g c start e)
      return none
    | "<" =>
      if ← hasTypes then typedSubscript? g c start calls e else return none
    | _ => return none
  | _ => return none

def calleeExpression (c : Context) : Parse Node := do
  let start := (← peek).start
  let e ← primary g c
  extended (subscript? g c start true) e

def construction (c : Context) : Parse Node := do
  let start := (← peek).start
  expectWord "new"
  if ← eatMark "." then
    let _ ← anyName
    return (← node start .group [])
  let token ← peek
  let base ← if token.isWord "new" then g (.construction c) else primary g c
  let callee ← extended (subscript? g c token.start false) base
  let given ← if ← atMark "(" then arguments g c else pure []
  node start .group (callee :: given)

/-! ### Operators -/

def unaryExpression (c : Context) : Parse Node := do
  let token ← peek
  let start := token.start
  let applied (form : Form) : Parse Node := do
    take token
    let e ← g (.unary c)
    node start form [e]
  match token.kind with
  | .mark "!" => applied (.unary .not)
  | .mark "-" => applied (.unary .minus)
  | .mark "+" => applied (.unary .plus)
  | .mark "~" => applied (.unary .other)
  | .mark "++" => applied .group
  | .mark "--" => applied .group
  | .name "typeof" false => applied (.unary .other)
  | .name "void" false => applied (.unary .other)
  | .name "delete" false => applied (.unary .other)
  | .name "await" false => applied .group
  | _ =>
    if token.isMark "<" && (← hasTypes) && !(← hasMarkup) then
      take token
      unless ← eatWord "const" do skipType g
      expectAngle
      let e ← g (.unary c)
      node start .typed [e]
    else
      let e ← g (.callee c)
      let token ← peek
      if token.isOneOf ["++", "--"] && !token.newline then
        take token
        node start .group [e]
      else return e

/-- An operator between two operands: how tight it binds, and what it makes. -/
structure Infixed where
  precedence : Nat
  stop : Nat
  form : Form
  /-- The right operand is a type. -/
  annotates : Bool

/-- How tight the operators that are written with marks bind. -/
def precedence? (mark : String) : Option Nat :=
  match mark with
  | "??" => some 1
  | "||" => some 2
  | "&&" => some 3
  | "|" => some 4
  | "^" => some 5
  | "&" => some 6
  | "==" | "!=" | "===" | "!==" => some 7
  | "<" | ">" | "<=" | ">=" => some 8
  | "<<" | ">>" | ">>>" => some 9
  | "+" | "-" => some 10
  | "*" | "/" | "%" => some 11
  | "**" => some 12
  | _ => none

def infixed? (c : Context) : Parse (Option Infixed) := do
  let token ← peek
  match token.kind with
  | .name "in" false =>
    return if c.inOperator then some ⟨8, token.stop, .group, false⟩ else none
  | .name "instanceof" false => return some ⟨8, token.stop, .group, false⟩
  | .name word false =>
    if ["as", "satisfies"].contains word && !token.newline && (← hasTypes) then
      return some ⟨8, token.stop, .typed, true⟩
    else return none
  | .mark _ =>
    let mark := operatorAt (← chars) token.start
    return (precedence? mark).map fun precedence =>
      ⟨precedence, token.start + mark.length, if mark == "+" then .plus else .group, false⟩
  | _ => return none

/-- Extend a left operand by all operators that bind tighter than `min`. Powers group to
the right, everything else to the left. -/
def operations (c : Context) (start : Nat) : Nat → Nat → Node → Parse Node
  | 0, _, left => pure left
  | n + 1, min, left => do
    match ← infixed? c with
    | none => pure left
    | some operator =>
      if operator.precedence ≤ min then pure left
      else
        moveTo operator.stop
        if operator.annotates then
          unless ← eatWord "const" do skipType g
          operations c start n min (← node start .typed [left])
        else
          let rightStart := (← peek).start
          let right ← g (.unary c)
          let tightest := if operator.precedence = 12 then 11 else operator.precedence
          let right ← operations c rightStart n tightest right
          operations c start n min (← node start operator.form [left, right])

/-- The first operand. If there is none but an operator stands in its place, that is
noted. -/
def firstOperand (c : Context) : Parse Node := fun setting progress =>
  match g (.unary c) setting progress with
  | .ok result => .ok result
  | .error fault =>
    match infixed? c setting { progress with place := fault.place } with
    | .ok (some operator, later) =>
      if operator.annotates then .error fault
      else
        let span : Span := ⟨fault.place, fault.place⟩
        (note .expressionExpected fault.place *> pure (.mk .group span [])) setting later
    | _ => .error fault

def binaryExpression (c : Context) : Parse Node := do
  let start := (← peek).start
  let left ← firstOperand g c
  operations g c start ((← chars).size + 1) 0 left

def conditionalExpression (c : Context) : Parse Node := do
  let start := (← peek).start
  let test ← binaryExpression g c
  if ← eatMark "?" then
    let yes ← g (.assignment { c with inOperator := true, colonFollows := true })
    expectMark ":"
    let no ← g (.assignment c)
    node start .group [test, yes, no]
  else return test

/-! ### Functions with an arrow -/

def arrowBody (c : Context) : Parse Node := do
  if ← atMark "\x7b" then block g (bodyContext c false)
  else g (.assignment { c with generator := false })

/-- The arrow itself, which has to be on the line of what it follows. -/
def eatArrow : Parse Bool := do
  let token ← peek
  if token.isMark "=>" && !token.newline then
    take token
    return true
  return false

/-- The parameters of an arrow function and its result type; and whether it has one. -/
def arrowHead? (c : Context) : Parse (Option (List Node × Bool)) :=
  attempt? do
    typeParameters g
    let parameters ← parameters g (bodyContext c false)
    let typed ← if ← hasTypes then eatMark ":" else pure false
    if typed then resultType g
    return if ← eatArrow then some (parameters, typed) else none

/-- An arrow function whose parameters are in parentheses, if there is one. Where a
colon has to follow anyway, a result type is one only if a second colon follows. -/
def arrowFunction? (c : Context) (start : Nat) : Parse (Option Node) := do
  let before ← get
  match ← arrowHead? g c with
  | none => return none
  | some (parameters, typed) =>
    if typed && c.colonFollows then
      let whole ← attempt? do
        let body ← arrowBody g c
        if ← atMark ":" then
          return some (← node start (.function none) (parameters ++ [body]))
        return none
      if whole.isNone then set before
      return whole
    let body ← arrowBody g c
    return some (← node start (.function none) (parameters ++ [body]))

def bareArrow? (c : Context) (start : Nat) : Parse (Option Node) := do
  let head ← attempt? do
    let token ← peek
    match token.plainName? with
    | none => return none
    | some name =>
      take token
      let pattern ← node token.start (.binding name) []
      let parameter ← node token.start .parameter [pattern]
      return if ← eatArrow then some parameter else none
  match head with
  | none => return none
  | some parameter =>
    let body ← arrowBody g c
    return some (← node start (.function none) [parameter, body])

/-- Whether an angle bracket may open the type parameters of an arrow function. With
markup it has to be told from a tag by a comma or a bound. -/
def opensTypeParameters : Parse Bool := do
  if !(← hasTypes) then return false
  if !(← hasMarkup) then return true
  let tells ← ahead do
    expectMark "<"
    let _ ← eatWord "const"
    let _ ← anyName
    let token ← peek
    return token.isMark "," || token.isWord "extends" || token.isMark "="
  return tells == some true

def arrow? (c : Context) : Parse (Option Node) := do
  let token ← peek
  let start := token.start
  match token.kind with
  | .mark "(" => arrowFunction? g c start
  | .mark "<" => if ← opensTypeParameters then arrowFunction? g c start else return none
  | .name text escaped =>
    if text == "async" && !escaped then
      let before ← get
      take token
      let following ← peek
      if following.newline then
        set before
        return (← bareArrow? g c start)
      let found ←
        if following.isOneOf ["(", "<"] then arrowFunction? g c start
        else bareArrow? g c start
      if found.isSome then return found
      set before
    bareArrow? g c start
  | _ => return none

/-! ### Assignments and sequences -/

def assigningMarks : List String :=
  ["+=", "-=", "*=", "/=", "%=", "&=", "|=", "^=", "**=", "<<=", ">>=", ">>>=", "&&=", "||=",
    "??="]

def yieldExpression (c : Context) : Parse Node := do
  let token ← next
  let _ ← eatMark "*"
  let following ← peek
  let ends := following.newline || following.isFinish ||
    following.isOneOf [")", "]", "\x7d", ",", ";", ":"] ||
    following.isWord "in" || following.isWord "of"
  if ends then node token.start .group []
  else
    let e ← g (.assignment c)
    node token.start .group [e]

/-- The target of an assignment: literals are patterns. -/
def target : Node → Node
  | .mk .array span elements => (Node.mk .array span elements).toPattern
  | .mk .object span properties => (Node.mk .object span properties).toPattern
  | e => e

def assignmentExpression (c : Context) : Parse Node := do
  let token ← peek
  if c.generator && token.isWord "yield" then return (← yieldExpression g c)
  match ← arrow? g c with
  | some arrow => return arrow
  | none => pure ()
  let left ← conditionalExpression g c
  let following ← peek
  match following.kind with
  | .mark "=" =>
    take following
    let value ← g (.assignment c)
    node token.start .assignment [target left, value]
  | .mark _ =>
    let mark := operatorAt (← chars) following.start
    if assigningMarks.contains mark then
      moveTo (following.start + mark.length)
      let value ← g (.assignment c)
      node token.start .group [left, value]
    else return left
  | _ => return left

def fullExpression (c : Context) : Parse Node := do
  let start := (← peek).start
  let first ← g (.assignment c)
  let more ← repeated do
    if ← eatMark "," then return some (← g (.assignment c))
    return none
  if more.isEmpty then return first
  node start .group (first :: more)

end Parse

end Syntax

end MessageCatalog
