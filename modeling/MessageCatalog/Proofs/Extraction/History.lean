import MessageCatalog.Proofs.Catalog.Growth
import MessageCatalog.Proofs.Extraction.Visit

/-!
# Histories of extractions

Visits can come in any order, of any nodes, also of nodes that were visited before, and
some of them fail. Whatever happens, a visit does not undo anything: it tries some
insertions on the catalog, remembers a node or does not, and appends a warning or does
not. What holds of the catalog is then what holds after every history of insertions.

A visit that can declare one message only is also atomic: if it fails, nothing has
changed. This is not so for a call that defines several descriptors, because those before
the failing one are kept.
-/

namespace MessageCatalog

namespace Extraction

open Catalog Descriptor Syntax

/-- The progress after several visits. Visits that fail are followed by the next one. -/
def Setting.after (s : Setting) (p : Progress) (events : List Node) : Progress :=
  events.foldl (fun p node => (s.visit p node).progress) p

/-- The catalog had some more insertions tried on it, and all nodes and warnings are
still there. -/
structure Progress.Continues (p p' : Progress) : Prop where
  catalog : ∃ history, p'.catalog = p.catalog.attemptAll history
  processed : p.processed <:+ p'.processed
  warnings : p.warnings <+: p'.warnings

/-- What the catalog says is still said, and all nodes and warnings are still there. -/
structure Progress.Grows (p p' : Progress) : Prop where
  sayings : p.catalog.sayings <+: p'.catalog.sayings
  processed : p.processed ⊆ p'.processed
  warnings : p.warnings <+: p'.warnings

/-- Whether a node declares at most one message, which is so for elements and for shorthand
calls. -/
def Setting.isSingle (s : Setting) : Node → Bool
  | .mk (.element _) _ _ => true
  | .mk .call _ (callee :: _) => s.calleeRole? callee == some .shorthand
  | _ => false

section Continuation

variable {s : Setting} {p q p' : Progress} {span : Span} {node : Node} {properties : List Node}

theorem Progress.Continues.refl (p : Progress) : p.Continues p :=
  ⟨⟨[], rfl⟩, List.suffix_refl _, List.prefix_refl _⟩

theorem Progress.Continues.trans (first : p.Continues q) (second : q.Continues p') :
    p.Continues p' := by
  obtain ⟨history, reached⟩ := first.catalog
  obtain ⟨later, reached'⟩ := second.catalog
  refine ⟨⟨history ++ later, ?_⟩, first.processed.trans second.processed,
    first.warnings.trans second.warnings⟩
  rw [reached', reached, attemptAll, attemptAll, attemptAll, List.foldl_append]

theorem Progress.Continues.mark (continues : p.Continues q) (id : NodeId) :
    p.Continues (q.mark id) :=
  ⟨continues.catalog, continues.processed.trans (List.suffix_cons id q.processed),
    continues.warnings⟩

theorem Progress.Continues.grows (continues : p.Continues p') : p.Grows p' := by
  obtain ⟨history, reached⟩ := continues.catalog
  refine ⟨?_, continues.processed.subset, continues.warnings⟩
  rw [reached]
  exact sayings_prefix_attemptAll p.catalog history

theorem continues_of_store {content : Content} {place : Nat}
    (stored : s.store p content place = .ok p') : p.Continues p' := by
  obtain ⟨catalog, e, inserted, rfl⟩ := exists_of_store stored
  refine ⟨⟨[⟨content, s.location place⟩], ?_⟩, List.suffix_refl _, List.prefix_refl _⟩
  exact (attempt_of_insert (i := ⟨content, s.location place⟩) inserted).symm

/-! ### What a visit continues -/

theorem visitMessage_continues (convention : Convention) (tag : Tag) (attributes : List Node) :
    p.Continues (s.visitMessage p convention tag span attributes).progress := by
  rw [Setting.visitMessage]
  split
  · exact .refl p
  · split
    · exact .refl p
    · split
      · rename_i stored
        exact (continues_of_store stored).mark _
      · exact .refl p

theorem visitElement_continues (tag : Tag) (attributes : List Node) :
    p.Continues (s.visitElement p tag span attributes).progress := by
  rw [Setting.visitElement]
  split
  · exact .refl p
  · split
    · exact .refl p
    · exact ⟨⟨[], rfl⟩, List.suffix_refl _, List.prefix_append _ _⟩
    · exact visitMessage_continues _ tag attributes

theorem visitDescriptor_continues :
    p.Continues (s.visitDescriptor p span properties).progress := by
  rw [Setting.visitDescriptor]
  split
  · exact .refl p
  · split
    · exact .refl p
    · split
      · exact .refl p
      · split
        · rename_i stored
          exact continues_of_store stored
        · exact .refl p

theorem visitDescriptors_continues : p.Continues (s.visitDescriptors p properties).2.1 := by
  induction properties generalizing p with
  | nil => exact .refl p
  | cons node properties ih =>
      cases value : propertyObject? node with
      | none =>
          rw [visitDescriptors_cons_other value]
          exact ih
      | some object =>
          obtain ⟨outer, key, rfl⟩ := propertyObject?_eq_some value
          have first : p.Continues (s.visitDescriptor p object.1 object.2).progress :=
            visitDescriptor_continues
          rw [Setting.visitDescriptors]
          split
          · rename_i same
            rwa [same] at first
          · rename_i same
            rw [same] at first
            exact first.trans ih

theorem visitShorthand_continues (callee : Node) (arguments : List Node) :
    p.Continues (s.visitShorthand p span callee arguments).progress := by
  rw [Setting.visitShorthand]
  split
  · exact .refl p
  · split
    · rename_i stored
      exact (continues_of_store stored).mark _
    · exact .refl p

theorem visitDefinition_continues (several : Bool) (callee : Node) (inner : Span)
    (rest : List Node) :
    p.Continues (s.visitDefinition p several span callee inner properties rest).progress := by
  have inside : p.Continues (if several then
      (⟨.mk .object inner (s.visitDescriptors p properties).1,
        (s.visitDescriptors p properties).2.1,
        (s.visitDescriptors p properties).2.2⟩ : Outcome)
      else s.visitDescriptor p inner properties).progress := by
    split
    · exact visitDescriptors_continues
    · exact visitDescriptor_continues
  rw [Setting.visitDefinition]
  dsimp only
  split
  · exact inside
  · exact inside.mark _

theorem visitCall_continues (callee : Node) (arguments : List Node) :
    p.Continues (s.visitCall p span callee arguments).progress := by
  rw [Setting.visitCall.eq_def]
  split
  · exact .refl p
  · split
    · exact visitShorthand_continues callee _
    · exact visitDefinition_continues true callee _ _
    · exact visitDefinition_continues false callee _ _
    · exact .refl p

/-- A visit continues what was there, whether it fails or not. -/
theorem visit_continues (s : Setting) (p : Progress) (node : Node) :
    p.Continues (s.visit p node).progress := by
  rw [Setting.visit.eq_def]
  split
  · exact visitElement_continues _ _
  · exact visitCall_continues _ _
  · exact .refl p

theorem after_continues (s : Setting) (p : Progress) (events : List Node) :
    p.Continues (s.after p events) := by
  induction events generalizing p with
  | nil => exact .refl p
  | cons event events ih => exact (visit_continues s p event).trans (ih _)

end Continuation

/-! ### Visits that fail -/

section Atomicity

variable {s : Setting} {p : Progress} {span : Span} {node : Node}

theorem visitMessage_atomic (convention : Convention) (tag : Tag) (attributes : List Node) :
    (s.visitMessage p convention tag span attributes).failure = none ∨
      (s.visitMessage p convention tag span attributes).progress = p := by
  rw [Setting.visitMessage]
  split
  · exact .inl rfl
  · split
    · exact .inr rfl
    · split
      · exact .inl rfl
      · exact .inr rfl

theorem visitElement_atomic (tag : Tag) (attributes : List Node) :
    (s.visitElement p tag span attributes).failure = none ∨
      (s.visitElement p tag span attributes).progress = p := by
  rw [Setting.visitElement]
  split
  · exact .inl rfl
  · split
    · exact .inl rfl
    · exact .inl rfl
    · exact visitMessage_atomic _ tag attributes

theorem visitShorthand_atomic (callee : Node) (arguments : List Node) :
    (s.visitShorthand p span callee arguments).failure = none ∨
      (s.visitShorthand p span callee arguments).progress = p := by
  rw [Setting.visitShorthand]
  split
  · exact .inr rfl
  · split
    · exact .inl rfl
    · exact .inr rfl

/-- A node that can declare one message only is visited with success or without any
effect on the progress. -/
theorem visit_atomic (single : s.isSingle node = true) :
    (s.visit p node).failure = none ∨ (s.visit p node).progress = p := by
  rw [Setting.isSingle.eq_def] at single
  split at single
  · exact visitElement_atomic _ _
  · rename_i callee arguments
    rw [Setting.visit, Setting.visitCall.eq_def, beq_iff_eq.mp single]
    split
    · exact .inl rfl
    · exact visitShorthand_atomic callee arguments
  · exact absurd single (by simp)

end Atomicity

/-- After any visits in any order, the catalog is coherent, and the next visit keeps what
the catalog says, the processed nodes and the warnings, and only adds to them. If it fails
and is one of an element or of a shorthand call, then nothing has changed. -/
theorem history_grows (s : Setting) (events : List Node) (event : Node) :
    Coherent s.options.enforceDescriptions (s.after (.start s.options) events).catalog ∧
      (s.after (.start s.options) events).Grows
        (s.visit (s.after (.start s.options) events) event).progress ∧
      (s.isSingle event = true →
        (s.visit (s.after (.start s.options) events) event).failure ≠ none →
        (s.visit (s.after (.start s.options) events) event).progress =
          s.after (.start s.options) events) := by
  refine ⟨?_, (visit_continues s _ event).grows, fun single failed => ?_⟩
  · obtain ⟨history, reached⟩ := (after_continues s (.start s.options) events).catalog
    rw [reached]
    exact (Coherent.empty s.options.enforceDescriptions).attemptAll history
  · exact (visit_atomic single).resolve_left failed

end Extraction

end MessageCatalog
