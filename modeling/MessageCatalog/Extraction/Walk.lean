import MessageCatalog.Extraction.Basic
import MessageCatalog.Syntax.Traversal

/-!
# Walking a unit

A walk visits the nodes of a unit in reading order and carries the progress along. The
first failure ends it: what is left of the tree stays as it is.
-/

namespace MessageCatalog

namespace Extraction

open Syntax

/-- What a walk carries along from node to node. Once there is a failure, it does not change any
more. -/
structure Walk where
  progress : Progress
  failure : Option Failure

namespace Walk

def start (progress : Progress) : Walk := ⟨progress, none⟩

def visit (s : Setting) (node : Node) : StateM Walk Node := fun walk =>
  match walk.failure with
  | some _ => (node, walk)
  | none =>
    let outcome := s.visit walk.progress node
    (outcome.node, ⟨outcome.progress, outcome.failure⟩)

end Walk

/-- Walk through a unit: the tree as it is afterwards, the progress, and the failure if there
was one. A node is visited before what is inside of it, so that nothing is visited that was
removed with a description. -/
def Setting.walk (s : Setting) (progress : Progress) (unit : List Node) :
    List Node × Walk :=
  (Node.traverseAll (Walk.visit s) unit).run (.start progress)

end Extraction

end MessageCatalog
