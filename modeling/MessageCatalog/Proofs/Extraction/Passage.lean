import MessageCatalog.Proofs.Extraction.Completeness

/-!
# Walks as derivations

A walk that succeeds visits a tree, passes through the parts of what the visit made of it,
and passes through the trees behind it. `Passes` says this with one rule, without a bound
on the depth and without a state that can fail. It is equivalent to the walk, in both
directions: so that two walks can be compared by induction on the first.

`Leaves` is what can be said of the trees alone: a walk changes nothing outside of opening
tags and calls.
-/

namespace MessageCatalog

namespace Extraction

open Binding Catalog Descriptor Syntax

/-! ### Visits that succeed -/

section Visits

variable {s : Setting} {p : Progress} {span : Span} {node : Node}

/-- An opening tag has no message of its own, or its message is stored. -/
theorem visitMessage_cases {convention : Convention} {tag : Tag} {attributes : List Node}
    (success : (s.visitMessage p convention tag span attributes).failure = none) :
    ((Draft.ofAttributes convention attributes).has .defaultMessage = false ∧
        s.visitMessage p convention tag span attributes =
          ⟨.mk (.element tag) span attributes, p, none⟩) ∨
      ∃ content p', (Draft.ofAttributes convention attributes).has .defaultMessage = true ∧
        (Draft.ofAttributes convention attributes).resolve s.evaluator = .ok content ∧
        s.store p content span.start = .ok p' ∧
        s.visitMessage p convention tag span attributes =
          ⟨.mk (.element tag) span (attributes.filter keepsAttribute),
            p'.mark ⟨.element, span⟩, none⟩ := by
  rw [Setting.visitMessage] at success ⊢
  cases message : (Draft.ofAttributes convention attributes).has .defaultMessage with
  | false => exact .inl ⟨rfl, rfl⟩
  | true =>
      simp only [message, Bool.not_true, Bool.false_eq_true, if_false] at success ⊢
      cases resolved : (Draft.ofAttributes convention attributes).resolve s.evaluator with
      | error => simp [resolved] at success
      | ok content =>
          simp only [resolved] at success ⊢
          cases stored : s.store p content span.start with
          | error => simp [stored] at success
          | ok p' => exact .inr ⟨content, p', trivial, rfl, stored, rfl⟩

/-- A descriptor object has no message, or its message is stored. -/
theorem visitDescriptor_cases {properties : List Node}
    (success : (s.visitDescriptor p span properties).failure = none) :
    ∃ draft, Draft.ofProperties s.evaluator .standard properties = .ok draft ∧
      ((draft.has .defaultMessage = false ∧ s.visitDescriptor p span properties =
          ⟨.mk .object span properties, p, none⟩) ∨
        ∃ content p', draft.has .defaultMessage = true ∧
          draft.resolve s.evaluator = .ok content ∧
          s.store p content span.start = .ok p' ∧
          s.visitDescriptor p span properties =
            ⟨.mk .object span (properties.filter (keepsProperty s.evaluator)), p', none⟩) := by
  rw [Setting.visitDescriptor] at success ⊢
  cases drafted : Draft.ofProperties s.evaluator .standard properties with
  | error => simp [drafted] at success
  | ok draft =>
      simp only [drafted] at success ⊢
      refine ⟨draft, rfl, ?_⟩
      cases message : draft.has .defaultMessage with
      | false => exact .inl ⟨rfl, rfl⟩
      | true =>
          simp only [message, Bool.not_true, Bool.false_eq_true, if_false] at success ⊢
          cases resolved : draft.resolve s.evaluator with
          | error => simp [resolved] at success
          | ok content =>
              simp only [resolved] at success ⊢
              cases stored : s.store p content span.start with
              | error => simp [stored] at success
              | ok p' => exact .inr ⟨content, p', trivial, rfl, stored, rfl⟩

/-- The message of a shorthand call is stored. -/
theorem exists_of_visitShorthand {callee : Node} {arguments : List Node}
    (success : (s.visitShorthand p span callee arguments).failure = none) :
    ∃ content p', (Draft.ofArguments arguments).resolve s.evaluator = .ok content ∧
      s.store p content span.start = .ok p' ∧
      s.visitShorthand p span callee arguments =
        ⟨.mk .call span (callee :: arguments), p'.mark ⟨.call, span⟩, none⟩ := by
  rw [Setting.visitShorthand] at success ⊢
  cases resolved : (Draft.ofArguments arguments).resolve s.evaluator with
  | error => simp [resolved] at success
  | ok content =>
      simp only [resolved] at success ⊢
      cases stored : s.store p content span.start with
      | error => simp [stored] at success
      | ok p' => exact ⟨content, p', rfl, stored, rfl⟩

/-- A call that defines messages takes the descriptions out of its object, and is
remembered. -/
theorem exists_of_visitDefinition {several : Bool} {callee : Node} {inner : Span}
    {properties rest : List Node}
    (success : (s.visitDefinition p several span callee inner properties rest).failure = none) :
    ∃ catalog, s.visitDefinition p several span callee inner properties rest =
      ⟨.mk .call span (callee :: .mk .object inner (if several then
          properties.map s.strippedProperty else s.keptProperties inner properties) :: rest),
        Progress.mark { p with catalog } ⟨.call, span⟩, none⟩ := by
  rw [Setting.visitDefinition] at success ⊢
  dsimp only at success ⊢
  split at success
  · exact absurd success (by simp)
  · rename_i ended
    cases several with
    | true =>
        have ended : (s.visitDescriptors p properties).2.2 = none := ended
        obtain ⟨catalog, whole, -⟩ := visitDescriptors_success ended
        exact ⟨catalog, by simp only [if_true, whole]⟩
    | false =>
        obtain ⟨catalog, whole, -⟩ := visitDescriptor_success ended
        exact ⟨catalog, by simp only [Bool.false_eq_true, if_false, whole]⟩

theorem visit_skipped (site : isSite node = true) (known : siteId node ∈ p.processed) :
    s.visit p node = ⟨node, p, none⟩ := by
  rw [Setting.visit.eq_def]
  split
  · rw [Setting.visitElement, if_pos (by simpa [siteId] using known)]
  · rw [Setting.visitCall.eq_def, if_pos (by simpa [siteId] using known)]
  · rfl

/-- A visit that succeeds skips a known site, or does to the node what the node says. -/
theorem visit_cases (success : (s.visit p node).failure = none) :
    (isSite node = true ∧ siteId node ∈ p.processed ∧ s.visit p node = ⟨node, p, none⟩) ∨
      ((isSite node = true → siteId node ∉ p.processed) ∧
        s.Processes p node (s.visit p node)) := by
  by_cases known : isSite node = true ∧ siteId node ∈ p.processed
  · exact .inl ⟨known.1, known.2, visit_skipped known.1 known.2⟩
  · exact .inr ⟨fun site here => known ⟨site, here⟩,
      visit_success (fun site here => known ⟨site, here⟩) success⟩

theorem visit_of_isSite_eq_false (other : isSite node = false) :
    s.visit p node = ⟨node, p, none⟩ := by
  rw [Setting.visit.eq_def]
  split
  · exact absurd other (by simp [isSite])
  · exact absurd other (by simp [isSite])
  · rfl

theorem stripped_shape (s : Setting) (node : Node) :
    (s.stripped node).form = node.form ∧ (s.stripped node).span = node.span := by
  rw [Setting.stripped.eq_def]
  split
  · split <;> exact ⟨rfl, rfl⟩
  · split <;> exact ⟨rfl, rfl⟩
  · exact ⟨rfl, rfl⟩

/-- A visit changes nothing of a node but its parts. -/
theorem visit_shape (success : (s.visit p node).failure = none) :
    (s.visit p node).node.form = node.form ∧ (s.visit p node).node.span = node.span := by
  obtain ⟨-, -, same⟩ | ⟨-, processes⟩ := visit_cases success
  · rw [same]
    exact ⟨rfl, rfl⟩
  · rw [processes.stripped]
    exact stripped_shape s node

theorem heightOf_visit_le (success : (s.visit p node).failure = none) :
    Node.heightOf (s.visit p node).node.children ≤ Node.heightOf node.children := by
  obtain ⟨-, -, same⟩ | ⟨-, processes⟩ := visit_cases success
  · exact Nat.le_of_eq (by rw [same])
  · rw [processes.stripped]
    exact heightOf_stripped_le s node

end Visits

/-! ### Derivations -/

/-- A walk passes through trees without a failure and leaves trees. -/
inductive Setting.Passes (s : Setting) :
    Progress → List Node → List Node → Progress → Prop
  | nil (p : Progress) : Passes s p [] [] p
  | cons {p q p' : Progress} {node : Node} {children nodes nodes' : List Node}
      (success : (s.visit p node).failure = none)
      (inside : Passes s (s.visit p node).progress (s.visit p node).node.children children q)
      (behind : Passes s q nodes nodes' p') :
      Passes s p (node :: nodes) (.mk node.form node.span children :: nodes') p'

/-- A walk passes a node that is left as it is. -/
theorem Setting.Passes.cons_unchanged {s : Setting} {p q r p' : Progress} {node : Node}
    {nodes : List Node} (visited : s.visit p node = ⟨node, q, none⟩)
    (inside : s.Passes q node.children node.children r) (behind : s.Passes r nodes nodes p') :
    s.Passes p (node :: nodes) (node :: nodes) p' := by
  have passes : s.Passes p (node :: nodes)
      (.mk node.form node.span node.children :: nodes) p' :=
    .cons (by rw [visited]) (by rwa [visited]) behind
  cases node
  exact passes

/-- A program ends without a failure and has a result. -/
def Yields {α : Type} (program : StateM Walk α) (p : Progress) (a : α) (p' : Progress) :
    Prop :=
  program.run (.start p) = (a, .start p')

section Derivation

variable {α β : Type} {s : Setting} {p p' : Progress} {node node' : Node}
  {nodes nodes' : List Node} {depth : Nat}

theorem yields_pure_iff {a b : α} : Yields (pure a) p b p' ↔ a = b ∧ p = p' := by
  rw [Yields]
  constructor
  · intro yields
    obtain ⟨same, ended⟩ := Prod.mk.inj yields
    exact ⟨same, (Walk.mk.inj ended).1⟩
  · rintro ⟨rfl, rfl⟩
    rfl

theorem yields_bind_iff {program : StateM Walk α} {next : α → StateM Walk β} {b : β}
    (later : ∀ a, KeepsFailure (next a)) :
    Yields (program >>= next) p b p' ↔
      ∃ a q, Yields program p a q ∧ Yields (next a) q b p' := by
  constructor
  · intro yields
    obtain ⟨q, first, second⟩ := Completes.bind (congrArg Prod.snd yields) later
    have middle : Yields program p (program.run (.start p)).1 q := Prod.ext rfl first
    refine ⟨_, q, middle, ?_⟩
    rw [Yields, ← yields, StateT.run_bind, middle]
    rfl
  · rintro ⟨a, q, first, second⟩
    rw [Yields, StateT.run_bind, first]
    exact second

theorem yields_visit_iff :
    Yields (Walk.visit s node) p node' p' ↔ (s.visit p node).failure = none ∧
      (s.visit p node).node = node' ∧ (s.visit p node).progress = p' := by
  constructor
  · intro yields
    obtain ⟨success, progress, result⟩ := completes_visit (congrArg Prod.snd yields)
    exact ⟨success, result.symm.trans (congrArg Prod.fst yields), progress⟩
  · rintro ⟨success, rfl, rfl⟩
    exact Prod.ext rfl (congrArg (Walk.mk _) success)

theorem yields_traverse_iff :
    Yields (Node.traverse (Walk.visit s) (depth + 1) node) p node' p' ↔
      (s.visit p node).failure = none ∧ ∃ children,
        Yields ((s.visit p node).node.children.mapM (Node.traverse (Walk.visit s) depth))
          (s.visit p node).progress children p' ∧
        .mk (s.visit p node).node.form (s.visit p node).node.span children = node' := by
  have keeps (visited : Node) (children : List Node) :
      KeepsFailure (Pure.pure (Node.mk visited.form visited.span children)) := .pure _
  rw [traverse_succ, yields_bind_iff fun visited =>
    (KeepsFailure.mapM (keepsFailure_traverse s depth) visited.children).bind (keeps visited)]
  simp only [yields_bind_iff (keeps _), yields_visit_iff, yields_pure_iff]
  constructor
  · rintro ⟨_, _, ⟨success, rfl, rfl⟩, children, q, inside, same, rfl⟩
    exact ⟨success, children, inside, same⟩
  · rintro ⟨success, children, inside, same⟩
    exact ⟨_, _, ⟨success, rfl, rfl⟩, children, p', inside, same, rfl⟩

theorem yields_mapM_cons_iff :
    Yields ((node :: nodes).mapM (Node.traverse (Walk.visit s) depth)) p nodes' p' ↔
      ∃ first q rest, Yields (Node.traverse (Walk.visit s) depth node) p first q ∧
        Yields (nodes.mapM (Node.traverse (Walk.visit s) depth)) q rest p' ∧
        first :: rest = nodes' := by
  have keeps (first : Node) (rest : List Node) :
      KeepsFailure (Pure.pure (first :: rest)) := .pure _
  rw [List.mapM_cons, yields_bind_iff fun first =>
    (KeepsFailure.mapM (keepsFailure_traverse s depth) nodes).bind (keeps first)]
  simp only [yields_bind_iff (keeps _), yields_pure_iff]
  constructor
  · rintro ⟨first, q, visited, rest, r, behind, same, rfl⟩
    exact ⟨first, q, rest, visited, behind, same⟩
  · rintro ⟨first, q, rest, visited, behind, same⟩
    exact ⟨first, q, visited, rest, p', behind, same, rfl⟩

theorem yields_mapM_nil_iff :
    Yields ([].mapM (Node.traverse (Walk.visit s) depth)) p nodes' p' ↔
      s.Passes p [] nodes' p' := by
  rw [List.mapM_nil, yields_pure_iff]
  constructor
  · rintro ⟨rfl, rfl⟩
    exact .nil p
  · rintro ⟨⟩
    exact ⟨rfl, rfl⟩

/-- A traversal that is deep enough is the same as a derivation. -/
theorem yields_iff_passes (deep : Node.heightOf nodes ≤ depth) :
    Yields (nodes.mapM (Node.traverse (Walk.visit s) depth)) p nodes' p' ↔
      s.Passes p nodes nodes' p' := by
  induction depth generalizing nodes p nodes' p' with
  | zero =>
      cases nodes with
      | nil => exact yields_mapM_nil_iff
      | cons node nodes =>
          cases node
          simp at deep
  | succ depth ih =>
      induction nodes generalizing p nodes' p' with
      | nil => exact yields_mapM_nil_iff
      | cons node nodes ih' =>
          rw [Node.heightOf_cons, Nat.max_le] at deep
          have inside : Node.heightOf node.children ≤ depth := by
            cases node
            simpa using deep.1
          have visited (success : (s.visit p node).failure = none) :=
            Nat.le_trans (heightOf_visit_le success) inside
          simp only [yields_mapM_cons_iff, yields_traverse_iff, ih' deep.2]
          constructor
          · rintro ⟨first, q, rest, ⟨success, children, parts, rfl⟩, behind, rfl⟩
            obtain ⟨form, span⟩ := visit_shape success
            rw [form, span]
            exact .cons success ((ih (visited success)).mp parts) behind
          · intro passes
            cases passes with
            | cons success parts behind =>
                obtain ⟨form, span⟩ := visit_shape success
                refine ⟨_, _, _, ⟨success, _, (ih (visited success)).mpr parts, ?_⟩, behind, rfl⟩
                rw [form, span]

/-- A walk that succeeds is a derivation. -/
theorem passes_of_walk (success : (s.walk p nodes).2.failure = none) :
    s.Passes p nodes (s.walk p nodes).1 (s.walk p nodes).2.progress :=
  (yields_iff_passes (Nat.le_refl _)).mp (Prod.ext rfl (congrArg (Walk.mk _) success))

/-- A derivation tells what the walk does. -/
theorem Setting.Passes.walk_eq (passes : s.Passes p nodes nodes' p') :
    s.walk p nodes = (nodes', .start p') :=
  (yields_iff_passes (Nat.le_refl _)).mpr passes

end Derivation

/-! ### What a walk leaves -/

/-- The second trees are the first ones, except inside of opening tags and calls. -/
inductive Leaves : List Node → List Node → Prop
  | nil : Leaves [] []
  | cons {node : Node} {children nodes nodes' : List Node}
      (inside : isSite node = false → Leaves node.children children)
      (behind : Leaves nodes nodes') :
      Leaves (node :: nodes) (.mk node.form node.span children :: nodes')

theorem Setting.Passes.leaves {s : Setting} {p p' : Progress} {nodes nodes' : List Node}
    (passes : s.Passes p nodes nodes' p') : Leaves nodes nodes' := by
  induction passes with
  | nil p => exact .nil
  | cons success inside behind ih ih' =>
      refine .cons (fun other => ?_) ih'
      rwa [visit_of_isSite_eq_false other] at ih

end Extraction

end MessageCatalog
