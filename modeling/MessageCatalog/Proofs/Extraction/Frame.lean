import MessageCatalog.Proofs.Extraction.Passage

/-!
# What a walk takes away

A walk takes nothing out of a unit but descriptions: attributes of elements that declare a
message, and properties of descriptor objects in calls that define messages. All other
nodes stay as they are and where they are. This holds for every walk, also for one that
fails, because a failure that comes after the removal does not undo it.

What a walk stores and what it takes away belong together. A descriptor that is stored has
lost all of its descriptions. If the walk succeeds, a descriptor that is not stored has lost
none.
-/

namespace MessageCatalog

namespace Extraction

open Binding Catalog Descriptor Syntax

/-! ### Descriptions -/

/-- An attribute that is a description. -/
def IsDescriptionAttribute (node : Node) : Prop :=
  node.form = .attribute descriptionKey

/-- A property that is a description: its key is the name of descriptions, as it is written
or by its value, or it stands for the variable of this name. -/
def Setting.IsDescriptionProperty (s : Setting) (node : Node) : Prop :=
  (∃ key value, node.form = .property ∧ node.children = [key, value] ∧
      keyText s.evaluator key = .ok descriptionKey) ∨
    node.form = .shorthand descriptionKey

/-- The second list is the first one without some nodes that have a property. -/
inductive Drops (P : Node → Prop) : List Node → List Node → Prop
  | nil : Drops P [] []
  | keep {node : Node} {nodes nodes' : List Node} (rest : Drops P nodes nodes') :
      Drops P (node :: nodes) (node :: nodes')
  | drop {node : Node} {nodes nodes' : List Node} (meets : P node)
      (rest : Drops P nodes nodes') : Drops P (node :: nodes) nodes'

section Drops

variable {P : Node → Prop} {keeps : Node → Bool} {node : Node}

theorem Drops.refl (P : Node → Prop) (nodes : List Node) : Drops P nodes nodes := by
  induction nodes with
  | nil => exact .nil
  | cons node nodes ih => exact .keep ih

theorem drops_filter (dropped : ∀ node, keeps node = false ↔ P node) (nodes : List Node) :
    Drops P nodes (nodes.filter keeps) := by
  induction nodes with
  | nil => exact .nil
  | cons node nodes ih =>
      cases kept : keeps node with
      | true =>
          rw [List.filter_cons_of_pos kept]
          exact .keep ih
      | false =>
          rw [List.filter_cons_of_neg (by simp [kept])]
          exact .drop ((dropped node).mp kept) ih

theorem not_of_mem_filter (dropped : ∀ node, keeps node = false ↔ P node) {nodes : List Node}
    (here : node ∈ nodes.filter keeps) : ¬ P node := by
  intro meets
  have kept : keeps node = true := (List.mem_filter.mp here).2
  rw [(dropped node).mpr meets] at kept
  exact Bool.false_ne_true kept

theorem keepsAttribute_eq_false_iff (node : Node) :
    keepsAttribute node = false ↔ IsDescriptionAttribute node := by
  rw [keepsAttribute.eq_def, IsDescriptionAttribute]
  split
  · simp
  · rename_i other
    cases node with
    | mk form span children => simpa using fun same => other _ span children (by rw [same])

theorem keepsProperty_eq_false_iff (s : Setting) (node : Node) :
    keepsProperty s.evaluator node = false ↔ s.IsDescriptionProperty node := by
  rw [keepsProperty.eq_def, Setting.IsDescriptionProperty]
  split
  · rename_i key value
    split
    · rename_i name named
      simp [named]
    · rename_i unknown
      simp [unknown]
  · simp
  · rename_i noProperty noShorthand
    cases node with
    | mk form span children =>
        simp only [Node.form_mk, Node.children_mk, Bool.true_eq_false, false_iff, not_or]
        constructor
        · rintro ⟨key, value, rfl, rfl, -⟩
          exact noProperty span key value rfl
        · rintro rfl
          exact noShorthand _ span children rfl

end Drops

/-! ### What is taken away -/

/-- What becomes of the parts of a descriptor and of the catalog. Either the message that
the descriptor declares is stored, and no description is left; or it declares none, and all
parts are left; or the walk fails here or has failed before. -/
inductive Setting.Settles (s : Setting) (failed : Prop) (describes : Node → Prop)
    (ds : List Declaration) (before : Catalog) (parts : List Node) :
    List Node → Catalog → Prop
  | stored {d : Declaration} {parts' : List Node} {after : Catalog} (declared : ds = [d])
      (admits : s.Admits before [d] after) (drops : Drops describes parts parts')
      (bare : ∀ part ∈ parts', ¬ describes part) :
      Settles s failed describes ds before parts parts' after
  | idle (nothing : ds = []) : Settles s failed describes ds before parts parts before
  | stopped {parts' : List Node} (fails : failed) (drops : Drops describes parts parts') :
      Settles s failed describes ds before parts parts' before

/-- What becomes of properties whose values may be descriptor objects, and of the catalog. -/
inductive Setting.SettlesAll (s : Setting) (failed : Prop) :
    Catalog → List Node → List Node → Catalog → Prop
  | nil (catalog : Catalog) : SettlesAll s failed catalog [] [] catalog
  | object {before between after : Catalog} {outer inner : Span} {key : Node}
      {parts parts' properties properties' : List Node}
      (settles : s.Settles failed s.IsDescriptionProperty (s.objectDeclarations inner parts)
        before parts parts' between)
      (rest : SettlesAll s failed between properties properties' after) :
      SettlesAll s failed before
        (.mk .property outer [key, .mk .object inner parts] :: properties)
        (.mk .property outer [key, .mk .object inner parts'] :: properties') after
  | other {before after : Catalog} {property : Node} {properties properties' : List Node}
      (noObject : propertyObject? property = none)
      (rest : SettlesAll s failed before properties properties' after) :
      SettlesAll s failed before (property :: properties) (property :: properties') after

/-- What becomes of a node that is visited, and of the catalog. -/
inductive Setting.Sheds (s : Setting) (failed : Prop) (p : Progress) :
    Node → Node → Catalog → Prop
  | untouched {node : Node}
      (reason : failed ∨ s.declarations node = [] ∨
        isSite node = true ∧ siteId node ∈ p.processed) :
      Sheds s failed p node node p.catalog
  | element {tag : Tag} {span : Span} {attributes attributes' : List Node}
      {convention : Convention} {after : Catalog}
      (role : s.tagRole? tag = some (.message convention))
      (settles : s.Settles failed IsDescriptionAttribute
        (s.declarations (.mk (.element tag) span attributes)) p.catalog
        attributes attributes' after) :
      Sheds s failed p (.mk (.element tag) span attributes)
        (.mk (.element tag) span attributes') after
  | shorthand {span : Span} {callee : Node} {arguments : List Node} {after : Catalog}
      (role : s.calleeRole? callee = some .shorthand)
      (admits : s.Admits p.catalog [⟨.ofArguments arguments, span.start⟩] after) :
      Sheds s failed p (.mk .call span (callee :: arguments))
        (.mk .call span (callee :: arguments)) after
  | one {span inner : Span} {callee : Node} {properties properties' rest : List Node}
      {after : Catalog} (role : s.calleeRole? callee = some .one)
      (settles : s.Settles failed s.IsDescriptionProperty
        (s.objectDeclarations inner properties) p.catalog properties properties' after) :
      Sheds s failed p (.mk .call span (callee :: .mk .object inner properties :: rest))
        (.mk .call span (callee :: .mk .object inner properties' :: rest)) after
  | many {span inner : Span} {callee : Node} {properties properties' rest : List Node}
      {after : Catalog} (role : s.calleeRole? callee = some .many)
      (settles : s.SettlesAll failed p.catalog properties properties' after) :
      Sheds s failed p (.mk .call span (callee :: .mk .object inner properties :: rest))
        (.mk .call span (callee :: .mk .object inner properties' :: rest)) after

/-- What becomes of trees, and of the progress: each node sheds its own descriptions, then
its parts do the same, then the trees behind it. -/
inductive Setting.Trims (s : Setting) (failed : Prop) :
    Progress → List Node → List Node → Progress → Prop
  | nil (p : Progress) : Trims s failed p [] [] p
  | cons {p q r p' : Progress} {node shed : Node} {children nodes nodes' : List Node}
      (own : s.Sheds failed p node shed q.catalog)
      (marks : ∀ id ∈ q.processed, id ∈ p.processed ∨ isSite node = true ∧ id = siteId node)
      (inside : Trims s failed q shed.children children r)
      (behind : Trims s failed r nodes nodes' p') :
      Trims s failed p (node :: nodes) (.mk node.form node.span children :: nodes') p'

/-! ### Visits -/

section Visits

variable {s : Setting} {failed : Prop} {p : Progress} {span : Span} {node : Node}
  {properties : List Node}

theorem failed_of_some {failure : Failure} (ends : ¬ failed → some failure = none) : failed :=
  Classical.byContradiction fun fine => Option.some_ne_none failure (ends fine)

theorem visitMessage_sheds {convention : Convention} {tag : Tag} {attributes : List Node}
    (role : s.tagRole? tag = some (.message convention))
    (ends : ¬ failed → (s.visitMessage p convention tag span attributes).failure = none) :
    s.Sheds failed p (.mk (.element tag) span attributes)
      (s.visitMessage p convention tag span attributes).node
      (s.visitMessage p convention tag span attributes).progress.catalog := by
  have drops := drops_filter keepsAttribute_eq_false_iff attributes
  rw [Setting.visitMessage] at ends ⊢
  cases message : (Draft.ofAttributes convention attributes).has .defaultMessage with
  | false => exact .untouched (.inr (.inl (by simp [Setting.declarations, role, message])))
  | true =>
      simp only [message, Bool.not_true, Bool.false_eq_true, if_false] at ends ⊢
      cases resolved : (Draft.ofAttributes convention attributes).resolve s.evaluator with
      | error =>
          simp only [resolved] at ends ⊢
          exact .untouched (.inl (failed_of_some ends))
      | ok content =>
          simp only [resolved] at ends ⊢
          cases stored : s.store p content span.start with
          | error =>
              simp only [stored] at ends ⊢
              exact .element role (.stopped (failed_of_some ends) drops)
          | ok p' =>
              obtain ⟨catalog, e, inserted, rfl⟩ := exists_of_store stored
              refine .element role (.stored (d := ⟨.ofAttributes convention attributes,
                span.start⟩) ?_ (admits_singleton resolved inserted) drops fun part here => ?_)
              · simp [Setting.declarations, role, message]
              · exact not_of_mem_filter keepsAttribute_eq_false_iff here

theorem visitElement_sheds {tag : Tag} {attributes : List Node}
    (ends : ¬ failed → (s.visitElement p tag span attributes).failure = none) :
    s.Sheds failed p (.mk (.element tag) span attributes)
      (s.visitElement p tag span attributes).node
      (s.visitElement p tag span attributes).progress.catalog := by
  rw [Setting.visitElement] at ends ⊢
  split
  · rename_i known
    exact .untouched (.inr (.inr ⟨rfl, by simpa [siteId] using known⟩))
  · rename_i fresh
    simp only [fresh, Bool.false_eq_true, if_false] at ends
    cases role : s.tagRole? tag with
    | none => exact .untouched (.inr (.inl (by simp [Setting.declarations, role])))
    | some found =>
        cases found with
        | unsupported => exact .untouched (.inr (.inl (by simp [Setting.declarations, role])))
        | message convention =>
            simp only [role] at ends ⊢
            exact visitMessage_sheds role ends

theorem visitDescriptor_settles
    (ends : ¬ failed → (s.visitDescriptor p span properties).failure = none) :
    ∃ properties' catalog, s.visitDescriptor p span properties =
        ⟨.mk .object span properties', { p with catalog },
          (s.visitDescriptor p span properties).failure⟩ ∧
      s.Settles failed s.IsDescriptionProperty (s.objectDeclarations span properties)
        p.catalog properties properties' catalog := by
  have drops := drops_filter (keepsProperty_eq_false_iff s) properties
  rw [Setting.visitDescriptor] at ends ⊢
  rw [Setting.objectDeclarations]
  cases drafted : Draft.ofProperties s.evaluator .standard properties with
  | error => exact ⟨properties, p.catalog, rfl, .idle rfl⟩
  | ok draft =>
      simp only [drafted] at ends ⊢
      cases message : draft.has .defaultMessage with
      | false => exact ⟨properties, p.catalog, rfl, .idle rfl⟩
      | true =>
          simp only [message, Bool.not_true, Bool.false_eq_true, if_false] at ends ⊢
          cases resolved : draft.resolve s.evaluator with
          | error =>
              simp only [resolved] at ends ⊢
              exact ⟨properties, p.catalog, rfl, .stopped (failed_of_some ends) (.refl _ _)⟩
          | ok content =>
              simp only [resolved] at ends ⊢
              cases stored : s.store p content span.start with
              | error =>
                  simp only [stored] at ends ⊢
                  exact ⟨_, p.catalog, rfl, .stopped (failed_of_some ends) drops⟩
              | ok p' =>
                  obtain ⟨catalog, e, inserted, rfl⟩ := exists_of_store stored
                  exact ⟨_, catalog, rfl, .stored rfl (admits_singleton resolved inserted) drops
                    fun _ => not_of_mem_filter (keepsProperty_eq_false_iff s)⟩

/-- Properties that a failed walk does not get to. -/
theorem settlesAll_stopped (fails : failed) (catalog : Catalog) (properties : List Node) :
    s.SettlesAll failed catalog properties properties catalog := by
  induction properties with
  | nil => exact .nil catalog
  | cons property properties ih =>
      cases value : propertyObject? property with
      | none => exact .other value ih
      | some object =>
          obtain ⟨outer, key, rfl⟩ := propertyObject?_eq_some value
          exact .object (.stopped fails (.refl _ _)) ih

theorem visitDescriptors_settlesAll
    (ends : ¬ failed → (s.visitDescriptors p properties).2.2 = none) :
    ∃ properties' catalog, s.visitDescriptors p properties =
        (properties', { p with catalog }, (s.visitDescriptors p properties).2.2) ∧
      s.SettlesAll failed p.catalog properties properties' catalog := by
  induction properties generalizing p with
  | nil => exact ⟨[], p.catalog, rfl, .nil _⟩
  | cons property properties ih =>
      cases value : propertyObject? property with
      | none =>
          rw [visitDescriptors_cons_other value] at ends ⊢
          obtain ⟨properties', catalog, whole, settles⟩ := ih ends
          exact ⟨property :: properties', catalog, by rw [whole], .other value settles⟩
      | some object =>
          obtain ⟨outer, key, rfl⟩ := propertyObject?_eq_some value
          obtain ⟨inner, parts⟩ := object
          have first (fine : ¬ failed) : (s.visitDescriptor p inner parts).failure = none := by
            have ended := ends fine
            rw [Setting.visitDescriptors] at ended
            cases outcome : s.visitDescriptor p inner parts with
            | mk object p' failure =>
                cases failure with
                | none => rfl
                | some failure => simp [outcome] at ended
          obtain ⟨parts', between, same, settles⟩ := visitDescriptor_settles first
          rw [Setting.visitDescriptors] at ends ⊢
          cases failure : (s.visitDescriptor p inner parts).failure with
          | some problem =>
              rw [failure] at first same
              simp only [same] at ends ⊢
              exact ⟨_, between, rfl, .object settles
                (settlesAll_stopped (failed_of_some ends) _ _)⟩
          | none =>
              rw [failure] at same
              simp only [same] at ends ⊢
              obtain ⟨properties', catalog, whole, rest⟩ := ih ends
              exact ⟨_, catalog, by rw [whole], .object settles rest⟩

theorem visitShorthand_sheds {callee : Node} {arguments : List Node}
    (role : s.calleeRole? callee = some .shorthand)
    (ends : ¬ failed → (s.visitShorthand p span callee arguments).failure = none) :
    s.Sheds failed p (.mk .call span (callee :: arguments))
      (s.visitShorthand p span callee arguments).node
      (s.visitShorthand p span callee arguments).progress.catalog := by
  rw [Setting.visitShorthand] at ends ⊢
  cases resolved : (Draft.ofArguments arguments).resolve s.evaluator with
  | error =>
      simp only [resolved] at ends ⊢
      exact .untouched (.inl (failed_of_some ends))
  | ok content =>
      simp only [resolved] at ends ⊢
      cases stored : s.store p content span.start with
      | error =>
          simp only [stored] at ends ⊢
          exact .untouched (.inl (failed_of_some ends))
      | ok p' =>
          obtain ⟨catalog, e, inserted, rfl⟩ := exists_of_store stored
          exact .shorthand role (admits_singleton resolved inserted)

/-- A call that defines messages fails if and only if its object does. -/
theorem visitDefinition_eq (s : Setting) (p : Progress) (several : Bool) (span : Span)
    (callee : Node) (inner : Span) (properties rest : List Node) {outcome : Outcome}
    (inside : outcome = if several then
        ⟨.mk .object inner (s.visitDescriptors p properties).1,
          (s.visitDescriptors p properties).2.1, (s.visitDescriptors p properties).2.2⟩
      else s.visitDescriptor p inner properties) :
    (s.visitDefinition p several span callee inner properties rest).node =
        .mk .call span (callee :: outcome.node :: rest) ∧
      (s.visitDefinition p several span callee inner properties rest).progress.catalog =
        outcome.progress.catalog ∧
      (s.visitDefinition p several span callee inner properties rest).failure =
        outcome.failure := by
  rw [Setting.visitDefinition, inside]
  dsimp only
  split <;> simp_all

theorem visitDefinition_sheds {several : Bool} {callee : Node} {inner : Span}
    {rest : List Node} (role : s.calleeRole? callee = some (if several then .many else .one))
    (ends : ¬ failed →
      (s.visitDefinition p several span callee inner properties rest).failure = none) :
    s.Sheds failed p (.mk .call span (callee :: .mk .object inner properties :: rest))
      (s.visitDefinition p several span callee inner properties rest).node
      (s.visitDefinition p several span callee inner properties rest).progress.catalog := by
  obtain ⟨node, catalog, failure⟩ :=
    visitDefinition_eq s p several span callee inner properties rest rfl
  rw [node, catalog]
  rw [failure] at ends
  cases several with
  | true =>
      obtain ⟨properties', after, whole, settles⟩ := visitDescriptors_settlesAll ends
      rw [if_pos rfl, whole]
      exact .many role settles
  | false =>
      obtain ⟨properties', after, whole, settles⟩ := visitDescriptor_settles ends
      rw [if_neg Bool.false_ne_true, whole]
      exact .one role settles

theorem visitCall_sheds {callee : Node} {arguments : List Node}
    (ends : ¬ failed → (s.visitCall p span callee arguments).failure = none) :
    s.Sheds failed p (.mk .call span (callee :: arguments))
      (s.visitCall p span callee arguments).node
      (s.visitCall p span callee arguments).progress.catalog := by
  rw [Setting.visitCall.eq_def] at ends ⊢
  split
  · rename_i known
    exact .untouched (.inr (.inr ⟨rfl, by simpa [siteId] using known⟩))
  · rename_i fresh
    rw [if_neg fresh] at ends
    revert ends
    split
    · rename_i role
      exact visitShorthand_sheds role
    · rename_i role
      exact visitDefinition_sheds role
    · rename_i role
      exact visitDefinition_sheds role
    · rename_i noShorthand noMany noOne
      intro _
      refine .untouched (.inr (.inl (declarations_other_call ?_ ?_)))
      · simpa using noShorthand
      · rintro (_ | _ | _) inner properties rest found rfl
        · rfl
        · exact absurd found (by simpa using noMany inner properties rest)
        · exact absurd found (by simpa using noOne inner properties rest)

/-- What becomes of a node that is visited. -/
theorem visit_sheds (ends : ¬ failed → (s.visit p node).failure = none) :
    s.Sheds failed p node (s.visit p node).node (s.visit p node).progress.catalog := by
  rw [Setting.visit.eq_def] at ends ⊢
  revert ends
  split
  · exact visitElement_sheds
  · exact visitCall_sheds
  · rename_i noElement noCall
    intro _
    refine .untouched (.inr (.inl ?_))
    rw [Setting.declarations.eq_def]
    split <;> simp_all

end Visits

/-! ### What a visit remembers -/

section Marks

variable {s : Setting} {p p' : Progress} {span : Span} {node : Node} {id : NodeId}

/-- At most one node is remembered in addition. -/
def Remembers (p : Progress) (id : NodeId) (p' : Progress) : Prop :=
  p'.processed = p.processed ∨ p'.processed = id :: p.processed

theorem remembers_of_store {content : Content} {place : Nat}
    (stored : s.store p content place = .ok p') (id : NodeId) : Remembers p id (p'.mark id) := by
  obtain ⟨catalog, e, -, rfl⟩ := exists_of_store stored
  exact .inr rfl

theorem visitElement_remembers (tag : Tag) (attributes : List Node) :
    Remembers p ⟨.element, span⟩ (s.visitElement p tag span attributes).progress := by
  rw [Setting.visitElement]
  split
  · exact .inl rfl
  · split
    · exact .inl rfl
    · exact .inl rfl
    · rw [Setting.visitMessage]
      split
      · exact .inl rfl
      · split
        · exact .inl rfl
        · split
          · rename_i stored
            exact remembers_of_store stored _
          · exact .inl rfl

theorem visitShorthand_remembers (callee : Node) (arguments : List Node) :
    Remembers p ⟨.call, span⟩ (s.visitShorthand p span callee arguments).progress := by
  rw [Setting.visitShorthand]
  split
  · exact .inl rfl
  · split
    · rename_i stored
      exact remembers_of_store stored _
    · exact .inl rfl

theorem visitDefinition_remembers (several : Bool) (callee : Node) (inner : Span)
    (properties rest : List Node) : Remembers p ⟨.call, span⟩
      (s.visitDefinition p several span callee inner properties rest).progress := by
  have inside : (if several then
      (⟨.mk .object inner (s.visitDescriptors p properties).1,
        (s.visitDescriptors p properties).2.1, (s.visitDescriptors p properties).2.2⟩ : Outcome)
      else s.visitDescriptor p inner properties).progress.processed = p.processed := by
    cases several with
    | true =>
        obtain ⟨properties', catalog, whole, -⟩ :=
          @visitDescriptors_settlesAll s True p properties fun fine => absurd trivial fine
        rw [if_pos rfl, whole]
    | false =>
        obtain ⟨properties', catalog, whole, -⟩ :=
          @visitDescriptor_settles s True p inner properties fun fine => absurd trivial fine
        rw [if_neg Bool.false_ne_true, whole]
  rw [Setting.visitDefinition]
  dsimp only
  split
  · exact .inl inside
  · exact .inr (congrArg (List.cons _) inside)

theorem visitCall_remembers (callee : Node) (arguments : List Node) :
    Remembers p ⟨.call, span⟩ (s.visitCall p span callee arguments).progress := by
  rw [Setting.visitCall.eq_def]
  split
  · exact .inl rfl
  · split
    · exact visitShorthand_remembers callee _
    · exact visitDefinition_remembers true callee _ _ _
    · exact visitDefinition_remembers false callee _ _ _
    · exact .inl rfl

/-- A visit remembers no other node than the one that is visited. -/
theorem visit_marks (here : id ∈ (s.visit p node).progress.processed) :
    id ∈ p.processed ∨ isSite node = true ∧ id = siteId node := by
  have one {q : Progress} {span : Span} {kind : NodeKind}
      (remembers : Remembers p ⟨kind, span⟩ q) (here : id ∈ q.processed) :
      id ∈ p.processed ∨ id = ⟨kind, span⟩ := by
    rcases remembers with same | same
    · exact .inl (same ▸ here)
    · rw [same, List.mem_cons] at here
      exact here.symm
  rw [Setting.visit.eq_def] at here
  split at here
  · exact (one (visitElement_remembers _ _) here).imp_right fun same => ⟨rfl, same⟩
  · exact (one (visitCall_remembers _ _) here).imp_right fun same => ⟨rfl, same⟩
  · exact .inl here

end Marks

/-! ### Walks -/

section Walks

variable {s : Setting} {failed : Prop} {p : Progress} {walk : Walk} {failure : Failure}
  {node : Node} {nodes : List Node} {depth : Nat}

theorem run_mapM_cons (visit : Node → StateM Walk Node) (node : Node) (nodes : List Node)
    (walk : Walk) : ((node :: nodes).mapM visit).run walk =
      (((visit node).run walk).1 :: ((nodes.mapM visit).run ((visit node).run walk).2).1,
        ((nodes.mapM visit).run ((visit node).run walk).2).2) := by
  rw [List.mapM_cons]
  rfl

theorem run_traverse_succ (visit : Node → StateM Walk Node) (depth : Nat) (node : Node)
    (walk : Walk) : (Node.traverse visit (depth + 1) node).run walk =
      (.mk ((visit node).run walk).1.form ((visit node).run walk).1.span
          ((((visit node).run walk).1.children.mapM (Node.traverse visit depth)).run
            ((visit node).run walk).2).1,
        ((((visit node).run walk).1.children.mapM (Node.traverse visit depth)).run
          ((visit node).run walk).2).2) := by
  rw [traverse_succ]
  rfl

/-- A walk that has failed changes nothing any more. -/
theorem run_mapM_stopped (stopped : walk.failure = some failure) (depth : Nat)
    (nodes : List Node) :
    (nodes.mapM (Node.traverse (Walk.visit s) depth)).run walk = (nodes, walk) := by
  have unvisited (node : Node) : (Walk.visit s node).run walk = (node, walk) := by
    simp only [Walk.visit, StateT.run, stopped]
  have all {visit : Node → StateM Walk Node}
      (each : ∀ node, (visit node).run walk = (node, walk)) (nodes : List Node) :
      (nodes.mapM visit).run walk = (nodes, walk) := by
    induction nodes with
    | nil => rfl
    | cons node nodes ih => rw [run_mapM_cons, each, ih]
  refine all (fun node => ?_) nodes
  induction depth generalizing node with
  | zero => rfl
  | succ depth ih =>
      rw [run_traverse_succ, unvisited, all ih]
      cases node
      rfl

theorem trims_stopped (fails : failed) (p : Progress) (nodes : List Node) :
    s.Trims failed p nodes nodes p := by
  have parts (node : Node) : s.Trims failed p node.children node.children p := by
    induction node using Binding.node_induction with
    | step node ih => exact of_parts ih
  exact of_parts fun node _ => parts node
where
  of_parts {nodes : List Node}
      (parts : ∀ node ∈ nodes, s.Trims failed p node.children node.children p) :
      s.Trims failed p nodes nodes p := by
    induction nodes with
    | nil => exact .nil p
    | cons node nodes ih =>
        rw [List.forall_mem_cons] at parts
        have trims := Setting.Trims.cons (.untouched (.inl fails))
          (fun _ here => .inl here) parts.1 (ih parts.2)
        cases node
        exact trims

theorem Setting.Sheds.shape {shed : Node} {after : Catalog}
    (sheds : s.Sheds failed p node shed after) :
    shed.form = node.form ∧ shed.span = node.span := by
  cases sheds <;> exact ⟨rfl, rfl⟩

/-- What becomes of trees that a walk goes through. The walk may fail on the way, and what
follows is left as it is. -/
theorem trims_of_mapM (deep : Node.heightOf nodes ≤ depth)
    (ends : ¬ failed →
      ((nodes.mapM (Node.traverse (Walk.visit s) depth)).run walk).2.failure = none) :
    s.Trims failed walk.progress nodes
      ((nodes.mapM (Node.traverse (Walk.visit s) depth)).run walk).1
      ((nodes.mapM (Node.traverse (Walk.visit s) depth)).run walk).2.progress := by
  induction depth generalizing nodes walk with
  | zero =>
      cases nodes with
      | nil => exact .nil walk.progress
      | cons node nodes =>
          cases node
          simp at deep
  | succ depth ih =>
      induction nodes generalizing walk with
      | nil => exact .nil walk.progress
      | cons node nodes ih' =>
          cases stopped : walk.failure with
          | some failure =>
              rw [run_mapM_stopped stopped, stopped] at ends
              rw [run_mapM_stopped stopped]
              exact trims_stopped (failed_of_some ends) walk.progress _
          | none =>
              have visited : (Walk.visit s node).run walk =
                  ((s.visit walk.progress node).node, ⟨(s.visit walk.progress node).progress,
                    (s.visit walk.progress node).failure⟩) := by
                simp only [Walk.visit, StateT.run, stopped]
              rw [Node.heightOf_cons, Nat.max_le] at deep
              rw [run_mapM_cons, run_traverse_succ, visited] at ends ⊢
              -- `failed` is about the end of the walk, so a failure on the way counts only
              -- because it is still there at the end.
              have keepsInside (parts : List Node) :=
                KeepsFailure.mapM (keepsFailure_traverse s depth) parts
              have keepsBehind := KeepsFailure.mapM (keepsFailure_traverse s (depth + 1)) nodes
              have endsInside (fine : ¬ failed) := keepsBehind _ (ends fine)
              have endsOwn (fine : ¬ failed) := keepsInside _ _ (endsInside fine)
              have own := visit_sheds endsOwn
              rw [own.shape.1, own.shape.2]
              refine .cons own (fun id here => visit_marks here) ?_ (ih' deep.2 ends)
              dsimp only at endsInside endsOwn ⊢
              cases outcome : (s.visit walk.progress node).failure with
              | some failure =>
                  rw [outcome] at endsOwn
                  rw [run_mapM_stopped rfl]
                  exact trims_stopped (failed_of_some endsOwn) _ _
              | none =>
                  rw [outcome] at endsInside
                  refine ih (Nat.le_trans (heightOf_visit_le outcome) ?_) endsInside
                  cases node
                  simpa using deep.1

/-- A walk takes away descriptions and nothing else, whether it succeeds or fails; and what
is stored has lost all of its descriptions. -/
theorem walk_trims (s : Setting) (p : Progress) (unit : List Node) :
    s.Trims ((s.walk p unit).2.failure ≠ none) p unit (s.walk p unit).1
      (s.walk p unit).2.progress :=
  trims_of_mapM (Nat.le_refl _) Classical.not_not.mp

end Walks

end Extraction

end MessageCatalog
