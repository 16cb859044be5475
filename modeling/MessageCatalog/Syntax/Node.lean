import MessageCatalog.Number.Binary64

/-!
# Syntax trees

A unit of source text becomes a tree of nodes. Every node has a form, the extent of
text it covers, and its children in the order in which they are visited. The forms
separate what the analyses tell apart: constant expressions, descriptors and the
elements and calls that carry them, and everything that binds a name or opens a scope.
All other syntax is `group`: its children are visited and it means nothing by itself.

One labelled tree instead of a type for each category keeps every traversal a single
recursion over children. The comment on each form says which children it has.
-/

namespace MessageCatalog

namespace Syntax

/-- The extent of a node: the places before its first and after its last character. -/
structure Span where
  start : Nat
  stop : Nat
  deriving DecidableEq, Repr

/-- Operators with one operand. Only three of them have a constant meaning. -/
inductive UnaryOperator where
  | not
  | minus
  | plus
  | other
  deriving DecidableEq, Repr

inductive DeclarationKind where
  | var
  | let
  | const
  deriving DecidableEq, Repr

/-- A property key that is written out. Computed keys are nodes of their own. -/
inductive Key where
  | named (name : String)
  | quoted (text : String)
  | numeric (value : Binary64)
  | bigint (digits : String)
  deriving DecidableEq, Repr

inductive Tag where
  | plain (name : String)
  | member (object : Tag) (property : String)
  | namespaced (space name : String)
  deriving DecidableEq, Repr

/-- The tag as it is written, without blanks. -/
def Tag.text : Tag → String
  | .plain name => name
  | .member object property => object.text ++ "." ++ property
  | .namespaced space name => space ++ ":" ++ name

/-- One name that an import declaration introduces. `imported` is the name on the
exporting side, `default` or `*` for the two special imports. -/
structure Import where
  localName : String
  imported : String
  source : String
  deriving DecidableEq, Repr

inductive Form where
  /-- A string literal, or the text of a markup attribute. -/
  | string (value : String)
  | number (value : Binary64)
  | boolean (value : Bool)
  | null
  /-- A template. Its children are the substitutions; a piece of text with a malformed
  escape has no value. -/
  | template (texts : List (Option String))
  | identifier (name : String)
  /-- An expression in parentheses: the expression. -/
  | parenthesized
  /-- An expression with a type annotation around it: the expression. -/
  | typed
  /-- The operator `+`: its two operands. -/
  | plus
  /-- The operand. -/
  | unary (operator : UnaryOperator)
  /-- The target and the assigned expression. -/
  | assignment
  /-- The elements, without the gaps. -/
  | array
  /-- The properties. -/
  | object
  /-- A key and a value. -/
  | property
  /-- A property whose value is the variable of the same name. -/
  | shorthand (name : String)
  /-- A key and a body. -/
  | getter
  /-- A key, a parameter and a body. -/
  | setter
  /-- A key and a function. -/
  | method
  /-- A written key. -/
  | key (key : Key)
  /-- A key in brackets: the expression. -/
  | computedKey
  /-- The expression that is spread. -/
  | spread
  /-- A call: the callee, then the arguments. -/
  | call
  /-- A link of an optional chain: a member or a call. -/
  | chain
  | superKeyword
  | importKeyword
  /-- An opening tag: the attributes. -/
  | element (tag : Tag)
  /-- An attribute: its value, if it has one. -/
  | attribute (name : String)
  /-- An expression in braces inside markup: the expression, if there is one. -/
  | container
  /-- The declarators. -/
  | variables (kind : DeclarationKind)
  /-- A pattern, then the initializer, if there is one. -/
  | declarator
  /-- A pattern that is one name. -/
  | binding (name : String)
  /-- The property patterns. -/
  | objectPattern
  /-- A key and a pattern. -/
  | propertyPattern
  /-- A property pattern that binds its own key: the default value, if there is one. -/
  | shorthandPattern (name : String)
  /-- The element patterns, without the gaps. -/
  | arrayPattern
  /-- A pattern and its default value. -/
  | defaultPattern
  /-- The pattern that takes the rest. -/
  | restPattern
  /-- A parameter: its pattern. -/
  | parameter
  /-- A function of any kind: keys and parameters, then the body. -/
  | function (name : Option String)
  /-- A class: its members, then what it extends. -/
  | class (name : Option String)
  /-- A statement with a scope of its own. -/
  | scope
  /-- A handler of exceptions: the parameter, if there is one, then the body. -/
  | handler
  /-- An import declaration: its attributes, if there are any. -/
  | imports (names : List Import)
  /-- An import that names a module or a member of a namespace. -/
  | alias (name : String)
  /-- A declaration of resources: the declarators. -/
  | resources
  /-- An enumeration: the keys and the values of its members. -/
  | enumeration (name : String)
  /-- A namespace or a module: its statements. The name may be a string or missing. -/
  | space (name : Option String)
  /-- An exported declaration: the declaration. -/
  | exported
  /-- Any other syntax: its parts. -/
  | group

/-- A syntax tree: what a node is, where it is in the text, and its parts. The parts are in
visiting order, which mostly is the order of the text. -/
inductive Node where
  | mk (form : Form) (span : Span) (children : List Node)

namespace Node

def form : Node → Form
  | mk form _ _ => form

def span : Node → Span
  | mk _ span _ => span

def children : Node → List Node
  | mk _ _ children => children

@[simp] theorem form_mk (f : Form) (s : Span) (cs : List Node) : (mk f s cs).form = f := rfl

@[simp] theorem span_mk (f : Form) (s : Span) (cs : List Node) : (mk f s cs).span = s := rfl

@[simp] theorem children_mk (f : Form) (s : Span) (cs : List Node) :
    (mk f s cs).children = cs := rfl

end Node

end Syntax

end MessageCatalog
