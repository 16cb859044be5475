import MessageCatalog.Extraction.Walk

/-!
# Traces of walks

A trace records what each visit of a walk did: which node it was, what the catalog
gained or changed, and whether the visit failed. A traced walk can be told to go on
after failures, which shows that a failed visit leaves the progress intact.
-/

namespace MessageCatalog

namespace Extraction

open Syntax Text

/-- The record of one visit: which node it was, what the catalog and the warnings were after it,
and whether it failed. -/
structure Step where
  kind : NodeKind
  /-- The tag of an element, or the name of a callee. -/
  name : String
  position : Position
  /-- The size of the catalog after the visit. -/
  size : Nat
  /-- The entries that were not in the catalog before. -/
  changed : List Catalog.Entry
  /-- The number of warnings after the visit. -/
  warnings : Nat
  failure : Option Failure

def calleeName : Node → String
  | .mk (.identifier name) _ _ => name
  | .mk .superKeyword _ _ => "super"
  | .mk .importKeyword _ _ => "import"
  | _ => "(expr)"

/-- What a node is called in a trace, if its visit is recorded. Visits of other nodes have no
effect that could be seen. -/
def recorded? : Node → Option (NodeKind × String)
  | .mk (.element tag) _ _ => some (.element, tag.text)
  | .mk .call _ (callee :: _) => some (.call, calleeName callee)
  | _ => none

/-- A walk that is being recorded, with the last step first. A walk that has stopped changes
nothing any more. -/
structure Trace where
  progress : Progress
  steps : List Step
  stopped : Bool

namespace Trace

def start (progress : Progress) : Trace := ⟨progress, [], false⟩

def step (s : Setting) (before : Progress) (kind : NodeKind) (name : String) (span : Span)
    (outcome : Outcome) : Step :=
  { kind, name
    position := s.source.position span.start
    size := outcome.progress.catalog.size
    changed := outcome.progress.catalog.entries.filter fun e =>
      !before.catalog.entries.contains e
    warnings := outcome.progress.warnings.length
    failure := outcome.failure }

/-- Visit a node and record it, unless the trace has stopped. A failure stops it, except where
the trace is told to go on. -/
def visit (s : Setting) (goesOn : Bool) (node : Node) : StateM Trace Node := fun trace =>
  match trace.stopped, recorded? node with
  | false, some (kind, name) =>
    let outcome := s.visit trace.progress node
    let step := step s trace.progress kind name node.span outcome
    (outcome.node,
      ⟨outcome.progress, step :: trace.steps, outcome.failure.isSome && !goesOn⟩)
  | _, _ => (node, trace)

end Trace

def Setting.traced (s : Setting) (goesOn : Bool) (progress : Progress) (unit : List Node) :
    List Node × Progress × List Step :=
  let (unit, trace) := (Node.traverseAll (Trace.visit s goesOn) unit).run (.start progress)
  (unit, trace.progress, trace.steps.reverse)

/-- Walk through a unit several times, each time through the tree that the last walk has left
and with its progress. -/
def Setting.tracedTimes (s : Setting) (goesOn : Bool) :
    Nat → Progress → List Node → List Node × Progress × List (List Step)
  | 0, progress, unit => (unit, progress, [])
  | times + 1, progress, unit =>
    let (unit, progress, steps) := s.traced goesOn progress unit
    let (unit, progress, rest) := s.tracedTimes goesOn times progress unit
    (unit, progress, steps :: rest)

end Extraction

end MessageCatalog
