import MessageCatalog.Constant.Value
import MessageCatalog.Descriptor.Field
import MessageCatalog.Extraction.Fault
import MessageCatalog.Syntax.Node

/-!
# Drafts of descriptors

A draft ties the fields of a descriptor to the parts of the tree that hold their values.
Each field occurs once: setting it again replaces its value and keeps its rank, so that
the last value of a repeated key counts and the order of first occurrence remains.

Drafts are made from the attributes of an element, from an object, and from the
arguments of a shorthand call. What is spread into these is not looked into.
-/

namespace MessageCatalog

namespace Descriptor

open Syntax

abbrev Evaluator := Node → Option Constant.Value

/-- The part of the tree that holds a value. -/
inductive Holder where
  /-- An attribute: its value, if it has one, and where its name starts. -/
  | attribute (value : Option Node) (place : Nat)
  | expression (e : Node)

def Holder.place : Holder → Nat
  | .attribute _ place => place
  | .expression e => e.span.start

/-- The fields that have been set, in the order of their first setting. -/
abbrev Draft := List (Field × Holder)

namespace Draft

/-- Set one field. The field keeps the rank of its first setting, so the order of a draft tells
which field came first and not whose value was given last. -/
def insert : Draft → Field → Holder → Draft
  | [], field, holder => [(field, holder)]
  | (f, h) :: draft, field, holder =>
    if f = field then (f, holder) :: draft else (f, h) :: insert draft field holder

def has (draft : Draft) (field : Field) : Bool :=
  draft.any (·.1 = field)

def insertKey (draft : Draft) (convention : Convention) (key : String) (holder : Holder) :
    Draft :=
  (convention.fields key).foldl (fun draft field => draft.insert field holder) draft

def ofAttributes (convention : Convention) (attributes : List Node) : Draft :=
  attributes.foldl (fun draft node =>
    match node with
    | .mk (.attribute name) span children =>
      draft.insertKey convention name (.attribute children.head? span.start)
    | _ => draft) []

end Draft

/-- The text of a property key. A key in brackets has to have a constant value, and is rejected
at its own place otherwise; a numeric key is written like a number that is joined to text. -/
def keyText (evaluator : Evaluator) : Node → Except Extraction.Located String
  | .mk (.key (.named name)) _ _ => .ok name
  | .mk (.key (.quoted text)) _ _ => .ok text
  | .mk (.key (.numeric value)) _ _ => .ok (Constant.writeNumber value)
  | .mk (.key (.bigint digits)) _ _ => .ok digits
  | .mk .computedKey span [e] =>
    match evaluator e with
    | some value => .ok value.toText
    | none => .error ⟨.dynamicValue "key", span.start⟩
  | _ => .ok ""

namespace Draft

def addProperties (evaluator : Evaluator) (convention : Convention) :
    Draft → List Node → Except Extraction.Located Draft
  | draft, [] => .ok draft
  | draft, .mk .property _ [key, value] :: properties => do
    let name ← keyText evaluator key
    addProperties evaluator convention (draft.insertKey convention name (.expression value))
      properties
  | draft, .mk (.shorthand name) span _ :: properties =>
    addProperties evaluator convention
      (draft.insertKey convention name (.expression (.mk (.identifier name) span [])))
      properties
  | draft, _ :: properties => addProperties evaluator convention draft properties

/-- The draft that the properties of an object make. Methods, accessors and spread objects are
passed over; only the keys of properties can make it fail. -/
def ofProperties (evaluator : Evaluator) (convention : Convention) (properties : List Node) :
    Except Extraction.Located Draft :=
  addProperties evaluator convention [] properties

def argument? (arguments : List Node) (position : Nat) : Option Node :=
  arguments[position]?.bind fun
    | .mk .spread _ _ => none
    | e => some e

/-- The draft of a shorthand call: the first argument is the message, the third the comment.
Positions are counted as written, even behind an argument that is spread. -/
def ofArguments (arguments : List Node) : Draft :=
  let message : Draft := match argument? arguments 0 with
    | some e => [(.id, .expression e), (.defaultMessage, .expression e)]
    | none => []
  match argument? arguments 2 with
  | some e => message.insert .comment (.expression e)
  | none => message

end Draft

end Descriptor

end MessageCatalog
