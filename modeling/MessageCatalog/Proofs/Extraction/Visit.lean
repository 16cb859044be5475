import MessageCatalog.Proofs.Extraction.Sites

/-!
# What a visit does

A visit that succeeds does three things: the catalog takes in what the node declares, in
the order of the text, the node loses its descriptions, and no other node is remembered
than this one. Nodes that declare nothing are left alone.

Visits of elements, of shorthand calls and of defining calls are different programs. The
lemmas bring them into this one form.
-/

namespace MessageCatalog

namespace Extraction

open Binding Catalog Descriptor Syntax

/-! ### What a catalog takes in -/

/-- Where a declaration is recorded to be. -/
def Setting.location (s : Setting) (place : Nat) : Option Catalog.Location :=
  if s.options.recordLocations then
    some ⟨s.file, (s.context place).position.line, (s.context place).position.column⟩
  else none

/-- Each of the declarations resolves, and the catalog accepts one after the other. -/
def Setting.Admits (s : Setting) : Catalog → List Declaration → Catalog → Prop
  | before, [], after => before = after
  | before, d :: rest, after => ∃ content between e,
      d.draft.resolve s.evaluator = .ok content ∧
        before.insert content (s.location d.place) = .ok (between, e) ∧
        s.Admits between rest after

section Admission

variable {s : Setting} {before between after : Catalog} {d : Declaration}
  {ds ds' : List Declaration} {p p' : Progress} {content : Content} {place : Nat}
  {e : Entry} {key : String}

theorem Setting.Admits.append (first : s.Admits before ds between)
    (second : s.Admits between ds' after) : s.Admits before (ds ++ ds') after := by
  induction ds generalizing before with
  | nil =>
      obtain rfl : before = between := first
      exact second
  | cons d ds ih =>
      obtain ⟨content, next, e, resolved, inserted, rest⟩ := first
      exact ⟨content, next, e, resolved, inserted, ih rest⟩

theorem admits_singleton (resolved : d.draft.resolve s.evaluator = .ok content)
    (inserted : before.insert content (s.location d.place) = .ok (after, e)) :
    s.Admits before [d] after :=
  ⟨content, after, e, resolved, inserted, rfl⟩

/-- A catalog gets the key of what it takes in, and no other key. -/
theorem mem_ids_of_insert {location : Option Catalog.Location}
    (inserted : before.insert content location = .ok (after, e)) :
    key ∈ after.entries.map Entry.id ↔
      key ∈ before.entries.map Entry.id ∨ keyOf content = some key := by
  obtain ⟨made, added⟩ := insert_eq_ok_iff.mp inserted
  rw [(entry_eq_ok_iff.mp made).2.key, Option.some.injEq, (adds_of_add added).1.ids]
  split
  · rename_i present
    constructor
    · exact .inl
    · rintro (earlier | rfl)
      · exact earlier
      · exact present
  · rw [List.mem_append, List.mem_singleton, eq_comm (a := key)]

/-- The keys of a catalog are those it had and those of the declarations it took in. -/
theorem Setting.Admits.mem_ids (admits : s.Admits before ds after) :
    key ∈ after.entries.map Entry.id ↔
      key ∈ before.entries.map Entry.id ∨ key ∈ ds.filterMap s.declaredKey? := by
  induction ds generalizing before with
  | nil =>
      obtain rfl : before = after := admits
      simp
  | cons d ds ih =>
      obtain ⟨content, between, e, resolved, inserted, rest⟩ := admits
      have own : s.declaredKey? d = keyOf content := by rw [declaredKey?, resolved]
      rw [ih rest, mem_ids_of_insert inserted, or_assoc, List.mem_filterMap, List.mem_filterMap]
      simp [own]

theorem store_eq (s : Setting) (p : Progress) (content : Content) (place : Nat) :
    s.store p content place = match p.catalog.insert content (s.location place) with
      | .ok result => .ok { p with catalog := result.1 }
      | .error problem => .error ⟨problem, s.context place⟩ := by
  simp only [Setting.store, Setting.location]
  split <;> simp_all

@[simp] theorem Progress.catalog_mark (p : Progress) (id : NodeId) :
    (p.mark id).catalog = p.catalog := rfl

/-- Storing a message changes the catalog only. -/
theorem exists_of_store (stored : s.store p content place = .ok p') :
    ∃ catalog e, p.catalog.insert content (s.location place) = .ok (catalog, e) ∧
      p' = { p with catalog } := by
  rw [store_eq] at stored
  cases inserted : p.catalog.insert content (s.location place) with
  | error => simp [inserted] at stored
  | ok result =>
      rw [inserted] at stored
      exact ⟨result.1, result.2, rfl, (Except.ok.inj stored).symm⟩

end Admission

/-! ### Visits of descriptor objects -/

/-- The properties of a descriptor object that stay. -/
def Setting.keptProperties (s : Setting) (span : Span) (properties : List Node) : List Node :=
  if (s.objectDeclarations span properties).isEmpty then properties
  else properties.filter (keepsProperty s.evaluator)

/-- A property without the descriptions in the descriptor object that is its value. -/
def Setting.strippedProperty (s : Setting) : Node → Node
  | .mk .property outer [key, .mk .object span properties] =>
    .mk .property outer [key, .mk .object span (s.keptProperties span properties)]
  | node => node

section Objects

variable {s : Setting} {p : Progress} {span : Span} {properties : List Node}

theorem visitDescriptor_success
    (success : (s.visitDescriptor p span properties).failure = none) :
    ∃ catalog, s.visitDescriptor p span properties =
        ⟨.mk .object span (s.keptProperties span properties), { p with catalog }, none⟩ ∧
      s.Admits p.catalog (s.objectDeclarations span properties) catalog := by
  rw [Setting.visitDescriptor] at success ⊢
  rw [Setting.keptProperties, Setting.objectDeclarations]
  cases drafted : Draft.ofProperties s.evaluator .standard properties with
  | error => simp [drafted] at success
  | ok draft =>
      simp only [drafted] at success ⊢
      by_cases message : draft.has .defaultMessage = true
      · simp only [message, Bool.not_true, Bool.false_eq_true, if_false, if_true,
          List.isEmpty_cons] at success ⊢
        cases resolved : draft.resolve s.evaluator with
        | error => simp [resolved] at success
        | ok content =>
            simp only [resolved] at success ⊢
            cases stored : s.store p content span.start with
            | error => simp [stored] at success
            | ok p' =>
                obtain ⟨catalog, e, inserted, rfl⟩ := exists_of_store stored
                exact ⟨catalog, rfl, admits_singleton resolved inserted⟩
      · simp [message, Setting.Admits]

theorem propertyObject?_eq_some {node : Node} {object : Span × List Node}
    (found : propertyObject? node = some object) :
    ∃ outer key, node = .mk .property outer [key, .mk .object object.1 object.2] := by
  rw [propertyObject?.eq_def] at found
  split at found
  · cases found
    exact ⟨_, _, rfl⟩
  · exact absurd found (by simp)

theorem visitDescriptors_cons_other {node : Node} (other : propertyObject? node = none) :
    s.visitDescriptors p (node :: properties) =
      (node :: (s.visitDescriptors p properties).1, (s.visitDescriptors p properties).2) := by
  rw [Setting.visitDescriptors.eq_def]
  split
  · rename_i whole
    exact absurd whole (by simp)
  · rename_i whole
    obtain ⟨rfl, rfl⟩ := List.cons_eq_cons.mp whole
    exact absurd other (by simp [propertyObject?])
  · rename_i whole
    obtain ⟨rfl, rfl⟩ := List.cons_eq_cons.mp whole
    rfl

theorem strippedProperty_other {node : Node} (other : propertyObject? node = none) :
    s.strippedProperty node = node := by
  rw [Setting.strippedProperty.eq_def]
  split
  · exact absurd other (by simp [propertyObject?])
  · rfl

theorem visitDescriptors_success
    (success : (s.visitDescriptors p properties).2.2 = none) :
    ∃ catalog, s.visitDescriptors p properties =
        (properties.map s.strippedProperty, { p with catalog }, none) ∧
      s.Admits p.catalog ((properties.filterMap propertyObject?).flatMap fun object =>
        s.objectDeclarations object.1 object.2) catalog := by
  induction properties generalizing p with
  | nil => exact ⟨p.catalog, rfl, rfl⟩
  | cons node properties ih =>
      cases value : propertyObject? node with
      | none =>
          rw [visitDescriptors_cons_other value] at success ⊢
          obtain ⟨catalog, whole, admits⟩ := ih success
          refine ⟨catalog, ?_, by simpa [value] using admits⟩
          rw [whole, List.map_cons, strippedProperty_other value]
      | some object =>
          obtain ⟨outer, key, rfl⟩ := propertyObject?_eq_some value
          obtain ⟨inner, parts⟩ := object
          rw [Setting.visitDescriptors] at success ⊢
          cases first : s.visitDescriptor p inner parts with
          | mk object p' failure =>
              cases failure with
              | some => simp [first] at success
              | none =>
                  obtain ⟨catalog, same, admits⟩ :=
                    visitDescriptor_success (s := s) (p := p) (by rw [first])
                  rw [first] at same
                  simp only [first] at success ⊢
                  obtain ⟨rfl, rfl, -⟩ := Outcome.mk.inj same
                  obtain ⟨catalog', whole, admits'⟩ := ih success
                  refine ⟨catalog', ?_, ?_⟩
                  · rw [whole]
                    rfl
                  · simpa [propertyObject?] using admits.append admits'

end Objects

/-! ### Visits of nodes -/

/-- A node without its descriptions. -/
def Setting.stripped (s : Setting) : Node → Node
  | .mk (.element tag) span attributes =>
    if (s.declarations (.mk (.element tag) span attributes)).isEmpty then
      .mk (.element tag) span attributes
    else .mk (.element tag) span (attributes.filter keepsAttribute)
  | .mk .call span (callee :: .mk .object inner properties :: rest) =>
    match s.calleeRole? callee with
    | some .many =>
      .mk .call span (callee :: .mk .object inner (properties.map s.strippedProperty) :: rest)
    | some .one =>
      .mk .call span (callee :: .mk .object inner (s.keptProperties inner properties) :: rest)
    | _ => .mk .call span (callee :: .mk .object inner properties :: rest)
  | node => node

/-- The outcome is that of a visit that did to the node and to the catalog what the node
says, and remembered no other node. -/
structure Setting.Processes (s : Setting) (p : Progress) (node : Node) (outcome : Outcome) :
    Prop where
  stripped : outcome.node = s.stripped node
  admits : s.Admits p.catalog (s.declarations node) outcome.progress.catalog
  processed : ∀ id ∈ outcome.progress.processed,
    id ∈ p.processed ∨ isSite node = true ∧ id = siteId node

section Visits

variable {s : Setting} {p : Progress} {span : Span} {node : Node}

/-- A visit of a node that declares nothing leaves it as it is. -/
theorem processes_idle (nothing : s.declarations node = []) (same : s.stripped node = node)
    (warnings : List Warning) : s.Processes p node ⟨node, { p with warnings }, none⟩ :=
  ⟨same.symm, by rw [nothing]; rfl, fun _ here => .inl here⟩

theorem visitElement_success {tag : Tag} {attributes : List Node}
    (fresh : ⟨.element, span⟩ ∉ p.processed)
    (success : (s.visitElement p tag span attributes).failure = none) :
    s.Processes p (.mk (.element tag) span attributes)
      (s.visitElement p tag span attributes) := by
  have idle (nothing : s.declarations (.mk (.element tag) span attributes) = [])
      (warnings : List Warning) := processes_idle (p := p) nothing
        (by rw [Setting.stripped, nothing, List.isEmpty_nil, if_pos rfl]) warnings
  rw [Setting.visitElement, if_neg (by simpa using fresh)] at success ⊢
  cases role : s.tagRole? tag with
  | none => exact idle (by simp [Setting.declarations, role]) p.warnings
  | some found =>
      cases found with
      | unsupported component => exact idle (by simp [Setting.declarations, role]) _
      | message convention =>
          simp only [role, Setting.visitMessage] at success ⊢
          by_cases message : (Draft.ofAttributes convention attributes).has .defaultMessage = true
          · have declared : s.declarations (.mk (.element tag) span attributes) =
                [⟨Draft.ofAttributes convention attributes, span.start⟩] := by
              simp [Setting.declarations, role, message]
            simp only [message, Bool.not_true, Bool.false_eq_true, if_false] at success ⊢
            cases resolved : (Draft.ofAttributes convention attributes).resolve s.evaluator with
            | error => simp [resolved] at success
            | ok content =>
                simp only [resolved] at success ⊢
                cases stored : s.store p content span.start with
                | error => simp [stored] at success
                | ok p' =>
                    obtain ⟨catalog, e, inserted, rfl⟩ := exists_of_store stored
                    refine ⟨?_, ?_, fun id here => ?_⟩
                    · rw [Setting.stripped, declared, List.isEmpty_cons, if_neg (by simp)]
                    · rw [declared]
                      exact admits_singleton resolved inserted
                    · rcases List.mem_cons.mp here with rfl | earlier
                      · exact .inr ⟨rfl, rfl⟩
                      · exact .inl earlier
          · simp only [message, Bool.not_false, if_true]
            exact idle (by simp [Setting.declarations, role, message]) p.warnings

/-- A call that was visited is the only node that was remembered by it. -/
theorem mem_mark_call {arguments : List Node} {catalog : Catalog} {id : NodeId}
    (here : id ∈ ({ p with catalog }.mark ⟨.call, span⟩).processed) :
    id ∈ p.processed ∨ isSite (.mk .call span arguments) = true ∧
      id = siteId (.mk .call span arguments) := by
  rcases List.mem_cons.mp here with rfl | earlier
  · exact .inr ⟨rfl, rfl⟩
  · exact .inl earlier

theorem visitDefinition_many_success {callee : Node} {inner : Span}
    {properties rest : List Node} (role : s.calleeRole? callee = some .many)
    (success : (s.visitDefinition p true span callee inner properties rest).failure = none) :
    s.Processes p (.mk .call span (callee :: .mk .object inner properties :: rest))
      (s.visitDefinition p true span callee inner properties rest) := by
  simp only [Setting.visitDefinition, if_true] at success ⊢
  have inside : (s.visitDescriptors p properties).2.2 = none := by
    cases failed : (s.visitDescriptors p properties).2.2 with
    | none => rfl
    | some failure => simp [failed] at success
  obtain ⟨catalog, whole, admits⟩ := visitDescriptors_success inside
  simp only [whole]
  refine ⟨by simp [Setting.stripped, role], ?_, fun id here => mem_mark_call here⟩
  simpa [Setting.declarations, Setting.objects, role] using admits

theorem visitDefinition_one_success {callee : Node} {inner : Span}
    {properties rest : List Node} (role : s.calleeRole? callee = some .one)
    (success : (s.visitDefinition p false span callee inner properties rest).failure = none) :
    s.Processes p (.mk .call span (callee :: .mk .object inner properties :: rest))
      (s.visitDefinition p false span callee inner properties rest) := by
  simp only [Setting.visitDefinition, Bool.false_eq_true, if_false] at success ⊢
  have inside : (s.visitDescriptor p inner properties).failure = none := by
    cases failed : (s.visitDescriptor p inner properties).failure with
    | none => rfl
    | some failure => simp [failed] at success
  obtain ⟨catalog, whole, admits⟩ := visitDescriptor_success inside
  simp only [whole]
  refine ⟨by simp [Setting.stripped, role], ?_, fun id here => mem_mark_call here⟩
  simpa [Setting.declarations, Setting.objects, role] using admits

theorem visitShorthand_success {callee : Node} {arguments : List Node}
    (role : s.calleeRole? callee = some .shorthand)
    (success : (s.visitShorthand p span callee arguments).failure = none) :
    s.Processes p (.mk .call span (callee :: arguments))
      (s.visitShorthand p span callee arguments) := by
  have same : s.stripped (.mk .call span (callee :: arguments)) =
      .mk .call span (callee :: arguments) := by
    rw [Setting.stripped.eq_def]
    split <;> simp_all
  rw [Setting.visitShorthand] at success ⊢
  cases resolved : (Draft.ofArguments arguments).resolve s.evaluator with
  | error => simp [resolved] at success
  | ok content =>
      simp only [resolved] at success ⊢
      cases stored : s.store p content span.start with
      | error => simp [stored] at success
      | ok p' =>
          obtain ⟨catalog, e, inserted, rfl⟩ := exists_of_store stored
          refine ⟨same.symm, ?_, fun id here => mem_mark_call here⟩
          simpa [Setting.declarations, role] using admits_singleton
            (d := ⟨Draft.ofArguments arguments, span.start⟩) resolved inserted

/-- A call that is not one of the three kinds declares nothing. -/
theorem declarations_other_call {callee : Node} {arguments : List Node}
    (noShorthand : s.calleeRole? callee ≠ some .shorthand)
    (noDefinition : ∀ role inner properties rest, s.calleeRole? callee = some role →
      arguments = .mk .object inner properties :: rest → role = .shorthand) :
    s.declarations (.mk .call span (callee :: arguments)) = [] := by
  have noObjects : s.objects callee arguments = [] := by
    rw [Setting.objects.eq_def]
    split
    · split <;> grind
    · rfl
  simp only [Setting.declarations, noObjects]
  rfl

theorem processes_other_call {callee : Node} {arguments : List Node}
    (noShorthand : s.calleeRole? callee ≠ some .shorthand)
    (noDefinition : ∀ role inner properties rest, s.calleeRole? callee = some role →
      arguments = .mk .object inner properties :: rest → role = .shorthand) :
    s.Processes p (.mk .call span (callee :: arguments))
      ⟨.mk .call span (callee :: arguments), p, none⟩ := by
  refine processes_idle (declarations_other_call noShorthand noDefinition) ?_ p.warnings
  rw [Setting.stripped.eq_def]
  split <;> grind

theorem visitCall_success {callee : Node} {arguments : List Node}
    (fresh : ⟨.call, span⟩ ∉ p.processed)
    (success : (s.visitCall p span callee arguments).failure = none) :
    s.Processes p (.mk .call span (callee :: arguments))
      (s.visitCall p span callee arguments) := by
  rw [Setting.visitCall.eq_def, if_neg (by simpa using fresh)] at success ⊢
  revert success
  split
  · rename_i role
    exact visitShorthand_success role
  · rename_i role
    exact visitDefinition_many_success role
  · rename_i role
    exact visitDefinition_one_success role
  · rename_i noShorthand noMany noOne
    intro _
    refine processes_other_call ?_ ?_
    · simpa using noShorthand
    · rintro (_ | _ | _) inner properties rest found rfl
      · rfl
      · exact absurd found (by simpa using noMany inner properties rest)
      · exact absurd found (by simpa using noOne inner properties rest)

/-- What a visit does that succeeds. A site that was processed before is skipped, so this
is about the first visit. -/
theorem visit_success (fresh : isSite node = true → siteId node ∉ p.processed)
    (success : (s.visit p node).failure = none) : s.Processes p node (s.visit p node) := by
  rw [Setting.visit.eq_def] at success ⊢
  revert success
  split
  · exact visitElement_success (fresh rfl)
  · exact visitCall_success (fresh rfl)
  · rename_i noElement noCall
    intro _
    refine processes_idle ?_ ?_ p.warnings
    · rw [Setting.declarations.eq_def]
      split <;> simp_all
    · rw [Setting.stripped.eq_def]
      split <;> simp_all

end Visits

end Extraction

end MessageCatalog
