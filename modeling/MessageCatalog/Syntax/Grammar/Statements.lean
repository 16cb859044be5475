import MessageCatalog.Syntax.Grammar.Expressions

/-!
# Statements and declarations

A statement is a group of its parts unless it declares variables or opens a scope.
Loops that may declare a variable are scopes; the cases of a choice and the bodies of
namespaces are not. Declarations of types alone contain nothing.
-/

namespace MessageCatalog

namespace Syntax

namespace Parse

variable (g : Grammar)

/-- What holds of the token after a word. -/
def follows (word : Token) (holds : Token → Bool) : Parse Bool := do
  let result ← ahead do
    take word
    return holds (← peek)
  return result == some true

def isNameOnLine (token : Token) : Bool :=
  token.word?.isSome && !token.newline

/-! ### Variables -/

/-- One declared variable or pattern, with its initial value. A constant needs one, and
so does a pattern. -/
def declarator (c : Context) (kind : DeclarationKind) (inLoop : Bool) : Parse Node := do
  let start := (← peek).start
  let pattern ← g (.pattern c)
  if ← hasTypes then
    let _ ← eatMark "!"
  annotation g
  if ← eatMark "=" then
    let value ← g (.assignment c)
    node start .declarator [pattern, value]
  else
    if !inLoop && !c.ambient then
      if kind = .const then note .uninitializedConstant start
      else if !(pattern.form matches .binding _) then fail .uninitializedPattern start
    node start .declarator [pattern]

def declaratorList (c : Context) (kind : DeclarationKind) (inLoop : Bool) :
    Parse (List Node) := do
  let first ← declarator g c kind inLoop
  let more ← repeated do
    if ← eatMark "," then return some (← declarator g c kind inLoop)
    return none
  return first :: more

/-- Take the end of a declaration. If it does not end here, that is noted, and the text
up to the next possible end is skipped. -/
def endDeclaration (c : Context) : Parse Unit := do
  unless ← eatStatementEnd do
    note .semicolonExpected (← peek).start
    let _ ← attempt (g (.expression c))
    let _ ← repeated do
      if ← eatStatementEnd then return none
      attempt next

def variableStatement (c : Context) (word : Token) (kind : DeclarationKind) : Parse Node := do
  take word
  let declarators ← declaratorList g c kind false
  let declaration ← node word.start (.variables kind) declarators
  endDeclaration g c
  return declaration

/-- A declaration of resources, if one starts here: the word `using`, perhaps after
`await`, with a name on the same line. -/
def resourceStatement? (c : Context) (token : Token) : Parse (Option Node) := do
  if !(← hasTypes) then return none
  let namesVariable (token : Token) : Bool := token.plainName?.isSome && !token.newline
  let word ← ahead do
    if token.isWord "await" then take token
    let word ← peek
    take word
    return if word.isWord "using" && namesVariable (← peek) then some word else none
  match word with
  | some (some word) =>
    take word
    let declarators ← declaratorList g c .const false
    expectStatementEnd
    return some (← node token.start .resources declarators)
  | _ => return none

def declarationKind? (token : Token) : Parse (Option DeclarationKind) := do
  match token.word? with
  | some "var" => return some .var
  | some "const" => return some .const
  | some "let" =>
    let declares ← follows token fun token =>
      token.plainName?.isSome || token.isOneOf ["[", "\x7b"]
    return if declares then some .let else none
  | _ => return none

/-! ### Loops and choices -/

def condition (c : Context) : Parse Node := do
  expectMark "("
  let e ← g (.expression c)
  expectMark ")"
  return e

def memberLoop? (c : Context) (start : Nat) (left : Node) : Parse (Option Node) := do
  let token ← peek
  if token.isWord "of" || token.isWord "in" then
    take token
    let right ← if token.isWord "of" then g (.assignment c) else g (.expression c)
    expectMark ")"
    let body ← g (.statement c)
    return some (← node start .scope [target left, right, body])
  return none

def countedLoop (c : Context) (start : Nat) (first : List Node) : Parse Node := do
  expectMark ";"
  let test ← if ← atMark ";" then pure [] else pure [← g (.expression c)]
  expectMark ";"
  let update ← if ← atMark ")" then pure [] else pure [← g (.expression c)]
  expectMark ")"
  let body ← g (.statement c)
  node start .scope (first ++ test ++ update ++ [body])

def forStatement (c : Context) (word : Token) : Parse Node := do
  take word
  let _ ← eatWord "await"
  expectMark "("
  let outside := { c with inOperator := false }
  let token ← peek
  if token.isMark ";" then return (← countedLoop g c word.start [])
  let first ← match ← declarationKind? token with
    | some kind =>
      take token
      let declarators ← declaratorList g outside kind true
      node token.start (.variables kind) declarators
    | none => g (.expression outside)
  match ← memberLoop? g c word.start first with
  | some loop => return loop
  | none => countedLoop g c word.start [first]

def switchCase (c : Context) : Parse Node := do
  let token ← peek
  let test ←
    if ← eatWord "case" then pure [← g (.expression c)]
    else
      expectWord "default"
      pure []
  expectMark ":"
  let statements ← repeated do
    let token ← peek
    if token.isMark "\x7d" || token.isFinish || token.isWord "case" || token.isWord "default"
    then return none
    return some (← g (.statement c))
  node token.start .group (test ++ statements)

def switchStatement (c : Context) (word : Token) : Parse Node := do
  take word
  let subject ← condition g c
  expectMark "\x7b"
  let cases ← repeated do
    let token ← peek
    if token.isMark "\x7d" || token.isFinish then return none
    return some (← switchCase g c)
  expectMark "\x7d"
  node word.start .group (subject :: cases)

def handler? (c : Context) : Parse (List Node) := do
  let word ← peek
  if !word.isWord "catch" then return []
  take word
  let caught ←
    if ← eatMark "(" then
      let pattern ← g (.pattern c)
      annotation g
      expectMark ")"
      pure [pattern]
    else pure []
  let body ← block g c
  return [← node word.start .handler (caught ++ [body])]

def tryStatement (c : Context) (word : Token) : Parse Node := do
  take word
  let body ← block g c
  let handler ← handler? g c
  let final ← if ← eatWord "finally" then pure [← block g c] else pure []
  node word.start .group (body :: handler ++ final)

def ifStatement (c : Context) (word : Token) : Parse Node := do
  take word
  let test ← condition g c
  let yes ← g (.statement c)
  let no ← if ← eatWord "else" then pure [← g (.statement c)] else pure []
  node word.start .group (test :: yes :: no)

/-- A loop that tests after its body. The test is visited first. -/
def doStatement (c : Context) (word : Token) : Parse Node := do
  take word
  let body ← g (.statement c)
  expectWord "while"
  let test ← condition g c
  let _ ← eatMark ";"
  node word.start .group [test, body]

/-- A statement that is a word, a condition and a statement. -/
def guardedStatement (c : Context) (word : Token) : Parse Node := do
  take word
  let test ← condition g c
  let body ← g (.statement c)
  node word.start .group [test, body]

def returnStatement (c : Context) (word : Token) : Parse Node := do
  take word
  unless c.returns do note .misplacedReturn word.start
  let value ← if ← atStatementEnd then pure [] else pure [← g (.expression c)]
  expectStatementEnd
  node word.start .group value

def throwStatement (c : Context) (word : Token) : Parse Node := do
  take word
  let value ← g (.expression c)
  expectStatementEnd
  node word.start .group [value]

/-- A jump, perhaps to a label. -/
def jumpStatement (word : Token) : Parse Node := do
  take word
  unless ← atStatementEnd do
    let _ ← plainName
  expectStatementEnd
  node word.start .group []

def expressionStatement (c : Context) : Parse Node := do
  let start := (← peek).start
  let e ← g (.expression c)
  if ← eatStatementEnd then return (← node start .group [e])
  let token ← peek
  match ← infixed? c with
  | some _ =>
    note .semicolonExpected token.start
    let e ← operations g c start ((← chars).size + 1) 0 e
    node start .group [e]
  | none => fail .statementEndExpected token.start

/-! ### Declarations of types -/

def typeAlias (word : Token) : Parse Node := do
  take word
  let _ ← anyName
  typeParameters g
  expectMark "="
  skipType g
  expectStatementEnd
  node word.start .group []

def interfaceDeclaration (word : Token) : Parse Node := do
  take word
  let _ ← anyName
  typeParameters g
  if ← eatWord "extends" then
    let _ ← repeated do
      if ← atMark "\x7b" then return none
      typeReference g
      let _ ← eatMark ","
      return some ()
  objectType g
  node word.start .group []

/-- An enumeration after its word. The values of its members are visited. -/
def enumDeclaration (c : Context) (word : Token) : Parse Node := do
  take word
  let name ← plainName
  expectMark "\x7b"
  let members ← listUntil "\x7d" do
    let key ← propertyKey g c
    let value ← if ← eatMark "=" then pure [← g (.assignment (inner c))] else pure []
    return key :: value
  node word.start (.enumeration name) members.flatten

def dottedRest : Parse Unit := do
  let _ ← repeated do
    if ← eatMark "." then return some (← anyName)
    return none

/-- A namespace or module after its word. Its body is no scope. -/
def namespaceDeclaration (c : Context) (word : Token) : Parse Node := do
  take word
  let token ← peek
  let name ← match token.kind with
    | .string .. => take token *> pure none
    | .mark _ => pure none
    | _ =>
      let name ← anyName
      dottedRest
      pure (some name)
  if ← eatMark "\x7b" then
    let statements ← statementsUntilBrace g c
    node word.start (.space name) statements
  else
    expectStatementEnd
    node word.start (.space name) []

/-- A declaration that exists only with types, if one starts here. -/
def typedDeclaration? (c : Context) (token : Token) : Parse (Option Node) := do
  if !(← hasTypes) then return none
  match token.word? with
  | some "type" =>
    if ← follows token isNameOnLine then return some (← typeAlias g token) else return none
  | some "interface" =>
    if ← follows token isNameOnLine then return some (← interfaceDeclaration g token)
    else return none
  | some "enum" => return some (← enumDeclaration g c token)
  | some "const" =>
    if ← follows token (·.isWord "enum") then
      take token
      return some (← enumDeclaration g c (← peek))
    else return none
  | some "abstract" =>
    if ← follows token fun next => next.isWord "class" && !next.newline then
      take token
      return some (← g (.class c token.start true))
    else return none
  | some "declare" =>
    if ← follows token isNameOnLine then
      take token
      return some (← g (.statement { c with ambient := true }))
    else return none
  | some "global" =>
    if c.ambient && (← follows token (·.isMark "\x7b")) then
      return some (← namespaceDeclaration g c token)
    else return none
  | some word =>
    if ["namespace", "module"].contains word then
      let names ← follows token fun next =>
        !next.newline && (next.word?.isSome || (next.kind matches .string ..))
      if names then return some (← namespaceDeclaration g c token) else return none
    else return none
  | none => return none

/-! ### Imports and exports -/

def exportedName : Parse String := do
  let token ← peek
  match token.kind with
  | .string text _ =>
    take token
    return text
  | _ => anyName

/-- The module that something is taken from: its name, and whether that is well formed. -/
def moduleName : Parse (String × Bool) := do
  let token ← peek
  match token.kind with
  | .string text wellFormed =>
    take token
    return (text, wellFormed)
  | _ => fail (.unexpected (← describe token) "a string literal") token.start

def importAttributes (c : Context) : Parse (List Node) := do
  let token ← peek
  if token.isWord "with" || (token.isWord "assert" && !token.newline) then
    take token
    let start := (← peek).start
    expectMark "\x7b"
    return [← objectRest g c start]
  return []

/-- Take the word `type` if it marks what follows as a type. -/
def eatTypeWord (marks : Token → Bool) : Parse Unit := do
  let token ← peek
  if (← hasTypes) && token.isWord "type" then
    if ← follows token marks then take token

/-- Take the word `type` in front of a specifier. A specifier is a name, or two names with
`as` in between, so the word is a mark if an odd number of names follow it; otherwise it
is a name itself. -/
def eatSpecifierType : Parse Unit := do
  let token ← peek
  if (← hasTypes) && token.isWord "type" then
    let names ← ahead do
      take token
      repeated do
        let token ← peek
        match token.kind with
        | .string .. | .name .. =>
          take token
          return some ()
        | _ => return none
    if names.any (·.length % 2 == 1) then take token

def importSpecifier : Parse (String × String) := do
  eatSpecifierType
  let imported ← exportedName
  let localName ← if ← eatWord "as" then plainName else pure imported
  return (localName, imported)

def namespaceImport : Parse (List (String × String)) := do
  expectMark "*"
  expectWord "as"
  return [(← plainName, "*")]

def namedImports : Parse (List (String × String)) := do
  if ← atMark "*" then namespaceImport
  else
    expectMark "\x7b"
    listUntil "\x7d" importSpecifier

/-- The alias of a module or of one of its members, after the equals sign. It contains
nothing, not even a call. -/
def moduleAlias (start : Nat) (name : String) : Parse Node := do
  let token ← peek
  if token.isWord "require" && (← follows token (·.isMark "(")) then
    take token
    expectMark "("
    let _ ← moduleName
    expectMark ")"
  else
    let _ ← anyName
    dottedRest
  expectStatementEnd
  node start (.alias name) []

def importDeclaration (c : Context) (word : Token) : Parse Node := do
  take word
  let token ← peek
  let finish (names : List (String × String)) : Parse Node := do
    let (source, wellFormed) ← moduleName
    let attributes ← importAttributes g c
    expectStatementEnd
    let imports := names.map fun (localName, imported) => Import.mk localName imported source
    node word.start (.imports (if wellFormed then imports else [])) attributes
  match token.kind with
  | .string .. => finish []
  | _ =>
    eatTypeWord fun next =>
      next.isOneOf ["\x7b", "*"] || (next.word?.isSome && !next.isWord "from")
    if (← peek).isOneOf ["\x7b", "*"] then
      let names ← namedImports
      expectWord "from"
      finish names
    else
      let name ← plainName
      if (← hasTypes) && (← eatMark "=") then return (← moduleAlias word.start name)
      let more ← if ← eatMark "," then namedImports else pure []
      expectWord "from"
      finish ((name, "default") :: more)

def defaultExport (c : Context) (start : Nat) : Parse Node := do
  let token ← peek
  let plain : Parse Node := do
    let e ← g (.assignment c)
    expectStatementEnd
    node start .group [e]
  match token.word? with
  | some "function" => g (.function c token.start false)
  | some "class" => g (.class c token.start false)
  | some "async" =>
    if ← follows token fun next => next.isWord "function" && !next.newline then
      take token
      g (.function c token.start false)
    else plain
  | some "abstract" =>
    if (← hasTypes) && (← follows token (·.isWord "class")) then
      take token
      g (.class c token.start false)
    else plain
  | some "interface" =>
    if (← hasTypes) && (← follows token isNameOnLine) then interfaceDeclaration g token
    else plain
  | _ => plain

def reexportSource (c : Context) (start : Nat) : Parse Node := do
  let attributes ←
    if ← eatWord "from" then
      let _ ← moduleName
      importAttributes g c
    else pure []
  expectStatementEnd
  node start .group attributes

def declaringWords : List String :=
  ["var", "let", "const", "function", "class", "async", "enum", "interface", "type", "declare",
    "abstract", "namespace", "module", "import"]

def exportDeclaration (c : Context) (word : Token) : Parse Node := do
  take word
  let start := word.start
  eatTypeWord (·.isOneOf ["\x7b", "*"])
  let token ← peek
  match token.kind with
  | .mark "*" =>
    take token
    if ← eatWord "as" then
      let _ ← exportedName
    reexportSource g c start
  | .mark "\x7b" =>
    take token
    let _ ← listUntil "\x7d" do
      eatSpecifierType
      let _ ← exportedName
      if ← eatWord "as" then
        let _ ← exportedName
    reexportSource g c start
  | .mark "=" =>
    take token
    let e ← g (.expression c)
    expectStatementEnd
    node start .group [e]
  | .name "default" false =>
    take token
    defaultExport g c start
  | .name "as" false =>
    take token
    expectWord "namespace"
    let _ ← anyName
    expectStatementEnd
    node start .group []
  | .name name false =>
    if declaringWords.contains name then
      let declaration ← g (.statement c)
      node start .exported [declaration]
    else fail .expressionExpected token.start
  | _ => fail .expressionExpected token.start

/-! ### All statements -/

/-- A statement that starts with a word of its own, if one starts here. -/
def wordStatement? (c : Context) (token : Token) : Parse (Option Node) := do
  match token.word? with
  | none => return none
  | some word =>
    match word with
    | "function" => return some (← g (.function c token.start true))
    | "class" => return some (← g (.class c token.start true))
    | "async" =>
      if ← follows token fun next => next.isWord "function" && !next.newline then
        take token
        return some (← g (.function c token.start true))
      else return none
    | "if" => return some (← ifStatement g c token)
    | "for" => return some (← forStatement g c token)
    | "while" => return some (← guardedStatement g c token)
    | "with" => return some (← guardedStatement g c token)
    | "do" => return some (← doStatement g c token)
    | "return" => return some (← returnStatement g c token)
    | "throw" => return some (← throwStatement g c token)
    | "break" => return some (← jumpStatement token)
    | "continue" => return some (← jumpStatement token)
    | "try" => return some (← tryStatement g c token)
    | "switch" => return some (← switchStatement g c token)
    | "debugger" =>
      take token
      expectStatementEnd
      return some (← node token.start .group [])
    | "import" =>
      if ← follows token (·.isOneOf ["(", "."]) then return none
      return some (← importDeclaration g c token)
    | "export" => return some (← exportDeclaration g c token)
    | _ => return none

/-- A statement with a label in front, if one starts here. -/
def labelled? (c : Context) (token : Token) : Parse (Option Node) := do
  if token.plainName?.isSome then
    if ← follows token (·.isMark ":") then
      take token
      expectMark ":"
      let body ← g (.statement c)
      return some (← node token.start .group [body])
  return none

def anyStatement (c : Context) : Parse Node := do
  let token ← peek
  if token.isMark "\x7b" then return (← block g c)
  if token.isMark ";" then
    take token
    return (← node token.start .group [])
  if let some node ← typedDeclaration? g c token then return node
  if let some kind ← declarationKind? token then return (← variableStatement g c token kind)
  if let some node ← resourceStatement? g c token then return node
  if let some node ← wordStatement? g c token then return node
  if let some node ← labelled? g c token then return node
  expressionStatement g c

end Parse

end Syntax

end MessageCatalog
