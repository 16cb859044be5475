import MessageCatalog.Syntax.Node

/-!
# The names that a pattern binds

A pattern binds the names at its leaves. Keys and default values bind nothing, and a
target that is an ordinary expression does not either.
-/

namespace MessageCatalog

namespace Syntax

mutual

/-- The names that a pattern binds, in reading order. -/
def Node.boundNames : Node → List String
  | .mk (.binding name) _ _ => [name]
  | .mk .objectPattern _ properties => Node.boundNamesOf properties
  | .mk .arrayPattern _ elements => Node.boundNamesOf elements
  | .mk .propertyPattern _ [_, pattern] => Node.boundNames pattern
  | .mk (.shorthandPattern name) _ _ => [name]
  | .mk .defaultPattern _ [pattern, _] => Node.boundNames pattern
  | .mk .restPattern _ [pattern] => Node.boundNames pattern
  | .mk .parameter _ [pattern] => Node.boundNames pattern
  | _ => []

/-- The names that several patterns bind. -/
def Node.boundNamesOf : List Node → List String
  | [] => []
  | node :: nodes => Node.boundNames node ++ Node.boundNamesOf nodes

end

namespace Node

@[simp] theorem boundNames_binding (name : String) (span : Span) (children : List Node) :
    (mk (.binding name) span children).boundNames = [name] := by
  rw [boundNames]

@[simp] theorem boundNamesOf_nil : boundNamesOf [] = [] := by
  rw [boundNamesOf]

@[simp] theorem boundNamesOf_cons (node : Node) (nodes : List Node) :
    boundNamesOf (node :: nodes) = node.boundNames ++ boundNamesOf nodes := by
  rw [boundNamesOf]

end Node

end Syntax

end MessageCatalog
