import MessageCatalog.Syntax.Node

/-!
# Outlines

The outline of a tree lists its opening tags with their attributes and its objects with
their keys, parents first. It shows what an extraction has left of the descriptors.
-/

namespace MessageCatalog

namespace Syntax

/-- An entry of an outline. -/
inductive Heading where
  | element (tag : String) (attributes : List String)
  | object (keys : List String)
  deriving DecidableEq, Repr

def spreadLabel : String := "..."

def attributeLabel : Node → String
  | .mk (.attribute name) _ _ => name
  | _ => spreadLabel

def keyLabel : Node → String
  | .mk (.key (.named name)) _ _ => name
  | .mk (.key (.quoted text)) _ _ => "\"" ++ text ++ "\""
  | .mk (.key (.numeric _)) _ _ => "(number)"
  | .mk (.key (.bigint _)) _ _ => "(bigint)"
  | _ => "[]"

def propertyLabel : Node → String
  | .mk .property _ (key :: _) => keyLabel key
  | .mk (.shorthand name) _ _ => name
  | .mk .getter _ (key :: _) => "get " ++ keyLabel key
  | .mk .setter _ (key :: _) => "set " ++ keyLabel key
  | .mk .method _ (key :: _) => keyLabel key ++ "()"
  | .mk .assignment _ (.mk (.identifier name) _ _ :: _) => name
  | _ => spreadLabel

/-- The entry that a node has in an outline. -/
def heading? : Node → Option Heading
  | .mk (.element tag) _ attributes => some (.element tag.text (attributes.map attributeLabel))
  | .mk .object _ properties => some (.object (properties.map propertyLabel))
  | _ => none

mutual

/-- The outline of a tree. -/
def Node.outline : Node → List Heading
  | .mk form span children =>
    (heading? (.mk form span children)).toList ++ Node.outlineOf children

def Node.outlineOf : List Node → List Heading
  | [] => []
  | node :: nodes => Node.outline node ++ Node.outlineOf nodes

end

end Syntax

end MessageCatalog
