import MessageCatalog.Syntax.Node

/-!
# Traversals that edit

A traversal visits every node of a tree, a node before its parts, and may replace the
node it visits. It goes on with the parts of the replacement, so that what a visit
removes is not visited. A bound on the height of trees makes the traversal total;
replacements that are no higher than what they replace stay below it.
-/

namespace MessageCatalog

namespace Syntax

namespace Node

mutual

def height : Node → Nat
  | .mk _ _ children => heightOf children + 1

def heightOf : List Node → Nat
  | [] => 0
  | node :: nodes => max (height node) (heightOf nodes)

end

/-- Visit a tree down to a certain depth, in any monad, so that a visit may fail and may leave
traces of what has been seen so far. -/
def traverse {m : Type → Type} [Monad m] (visit : Node → m Node) : Nat → Node → m Node
  | 0, node => pure node
  | depth + 1, node => do
    let .mk form span children ← visit node
    return .mk form span (← children.mapM (traverse visit depth))

def traverseAll {m : Type → Type} [Monad m] (visit : Node → m Node) (trees : List Node) :
    m (List Node) :=
  trees.mapM (traverse visit (heightOf trees))

@[simp] theorem heightOf_nil : heightOf [] = 0 := by
  rw [heightOf]

@[simp] theorem heightOf_cons (node : Node) (nodes : List Node) :
    heightOf (node :: nodes) = max node.height (heightOf nodes) := by
  rw [heightOf]

@[simp] theorem height_mk (form : Form) (span : Span) (children : List Node) :
    (mk form span children).height = heightOf children + 1 := by
  rw [height]

end Node

end Syntax

end MessageCatalog
