import MessageCatalog.Proofs.Extraction.Rewalk
import MessageCatalog.Proofs.Extraction.Stability

/-!
# Extraction from what a walk leaves

A walk takes the descriptions out of a unit and leaves everything else, so the unit that is
left declares the same messages without their descriptions. This is a simulation: a second
walk, through what the first one has left and from the beginning, is at every visit where
the first one was, but for the descriptions in its catalog. Each visit keeps this, because
what the first visit drops are the descriptions and nothing else, and because what the
walk changes inside of a node has no effect on the content of its declarations.
-/

namespace MessageCatalog

namespace Extraction

open Binding Catalog Descriptor Syntax

/-- The progress without the descriptions in its catalog. -/
def Progress.undescribed (p : Progress) : Progress :=
  { p with catalog := p.catalog.undescribed }

@[simp] theorem Progress.processed_undescribed (p : Progress) :
    p.undescribed.processed = p.processed := rfl

/-! ### Visits -/

section Visits

variable {s : Setting} {p p' : Progress} {span : Span} {node : Node} {children : List Node}
  {nodes nodes' properties properties' : List Node}

theorem store_undescribed {content : Content} {place : Nat}
    (stored : s.store p content place = .ok p') :
    s.store p.undescribed content.undescribed place = .ok p'.undescribed := by
  obtain ⟨catalog, e, inserted, rfl⟩ := exists_of_store stored
  have inserted' := insert_undescribed inserted
  rw [store_eq]
  simp only [Progress.undescribed, inserted']

theorem visitMessage_undescribed (stable : Stable s.evaluator) {convention : Convention}
    {tag : Tag} (success : (s.visitMessage p convention tag span nodes).failure = none)
    (left : Leaves (s.visitMessage p convention tag span nodes).node.children nodes') :
    s.visitMessage p.undescribed convention tag span nodes' =
      ⟨.mk (.element tag) span nodes',
        (s.visitMessage p convention tag span nodes).progress.undescribed, none⟩ := by
  obtain ⟨message, same⟩ | ⟨content, p', message, resolved, stored, same⟩ :=
    visitMessage_cases success
  · rw [same, Node.children_mk] at left
    rw [same]
    have related := stable.ofAttributes convention left
    simp [Setting.visitMessage, related.has_eq, message]
  · rw [same, Node.children_mk] at left
    rw [same]
    have related := stable.ofAttributes convention left
    rw [ofAttributes_filter] at related
    have message' := related.has_eq.trans ((has_undescribed (by simp) _).trans message)
    have resolved' := related.resolve_eq.trans (resolve_undescribed resolved)
    simp only [Setting.visitMessage, message', resolved', store_undescribed stored,
      filter_keepsAttribute left]
    rfl

theorem visitDescriptor_undescribed (stable : Stable s.evaluator)
    (success : (s.visitDescriptor p span properties).failure = none)
    (left : Leaves (s.keptProperties span properties) properties') :
    s.visitDescriptor p.undescribed span properties' =
      ⟨.mk .object span properties',
        (s.visitDescriptor p span properties).progress.undescribed, none⟩ := by
  obtain ⟨draft, drafted, outcome⟩ := visitDescriptor_cases success
  rw [Setting.keptProperties, Setting.objectDeclarations, drafted] at left
  obtain ⟨message, same⟩ | ⟨content, p', message, resolved, stored, same⟩ := outcome
  · simp only [message, Bool.false_eq_true, if_false, List.isEmpty_nil, if_true] at left
    obtain ⟨draft', drafted', related⟩ := stable.addProperties left .nil drafted
    rw [same, Setting.visitDescriptor, Draft.ofProperties, drafted']
    simp [related.has_eq, message]
  · simp only [message, if_true, List.isEmpty_cons, Bool.false_eq_true, if_false] at left
    obtain ⟨draft', drafted', related⟩ :=
      stable.addProperties left .nil (addProperties_filter drafted)
    have message' := related.has_eq.trans ((has_undescribed (by simp) _).trans message)
    have resolved' := related.resolve_eq.trans (resolve_undescribed resolved)
    rw [same, Setting.visitDescriptor, Draft.ofProperties, drafted']
    simp only [message', resolved', store_undescribed stored, stable.filter_keepsProperty left]
    rfl

/-- A property without a descriptor object still has none when a walk has passed. -/
theorem propertyObject?_left (inside : isSite node = false → Leaves node.children children)
    (other : propertyObject? node = none) :
    propertyObject? (.mk node.form node.span children) = none := by
  obtain ⟨form, span, parts⟩ := node
  cases form with
  | property =>
      rcases inside rfl with _ | ⟨-, _ | ⟨-, _ | ⟨-, -⟩⟩⟩
      · rfl
      · rfl
      · rename_i key keyParts value valueParts
        obtain ⟨form, span, parts⟩ := value
        cases form with
        | object => exact absurd other (by simp [propertyObject?])
        | _ => rfl
      · simp [propertyObject?]
  | _ => rfl

theorem visitDescriptors_undescribed (stable : Stable s.evaluator)
    (success : (s.visitDescriptors p properties).2.2 = none)
    (left : Leaves (properties.map s.strippedProperty) properties') :
    s.visitDescriptors p.undescribed properties' =
      (properties', (s.visitDescriptors p properties).2.1.undescribed, none) := by
  induction properties generalizing p properties' with
  | nil =>
      obtain rfl := leaves_nil_iff.mp left
      rfl
  | cons node properties ih =>
      rw [List.map_cons] at left
      obtain ⟨children, rest, rfl, inside, behind⟩ := Leaves.cons_iff.mp left
      cases value : propertyObject? node with
      | none =>
          rw [strippedProperty_other value] at inside ⊢
          rw [visitDescriptors_cons_other value] at success ⊢
          rw [visitDescriptors_cons_other (propertyObject?_left inside value),
            ih success behind]
      | some object =>
          obtain ⟨outer, key, rfl⟩ := propertyObject?_eq_some value
          obtain ⟨inner, parts⟩ := object
          obtain ⟨keyParts, values, rfl, -, left⟩ := Leaves.cons_iff.mp (inside rfl)
          obtain ⟨parts', values, rfl, kept, left⟩ := Leaves.cons_iff.mp left
          obtain rfl := leaves_nil_iff.mp left
          rw [Setting.visitDescriptors] at success
          cases first : s.visitDescriptor p inner parts with
          | mk object p' failure =>
              cases failure with
              | some => simp [first] at success
              | none =>
                  have again := visitDescriptor_undescribed (p := p) stable (by rw [first])
                    (kept rfl)
                  rw [first] at again
                  simp only [first] at success
                  simp only [Setting.strippedProperty, Node.form_mk, Node.span_mk,
                    Setting.visitDescriptors, again, ih success behind, first]

theorem visitElement_undescribed (stable : Stable s.evaluator) {tag : Tag}
    (fresh : ⟨.element, span⟩ ∉ p.processed)
    (success : (s.visitElement p tag span nodes).failure = none)
    (left : Leaves (s.visitElement p tag span nodes).node.children nodes') :
    s.visitElement p.undescribed tag span nodes' =
      ⟨.mk (.element tag) span nodes',
        (s.visitElement p tag span nodes).progress.undescribed, none⟩ := by
  have known : ¬ p.processed.contains ⟨.element, span⟩ = true := by simpa using fresh
  have known' : ¬ p.undescribed.processed.contains ⟨.element, span⟩ = true := known
  rw [Setting.visitElement, if_neg known] at success left
  rw [Setting.visitElement, if_neg known', Setting.visitElement, if_neg known]
  cases role : s.tagRole? tag with
  | none => rfl
  | some found =>
      cases found with
      | unsupported component => rfl
      | message convention =>
          simp only [role] at success left ⊢
          exact visitMessage_undescribed stable success left

theorem visitShorthand_undescribed (stable : Stable s.evaluator) {callee callee' : Node}
    (success : (s.visitShorthand p span callee nodes).failure = none)
    (left : Leaves nodes nodes') :
    s.visitShorthand p.undescribed span callee' nodes' =
      ⟨.mk .call span (callee' :: nodes'),
        (s.visitShorthand p span callee nodes).progress.undescribed, none⟩ := by
  obtain ⟨content, p', resolved, stored, same⟩ := exists_of_visitShorthand success
  have related := stable.ofArguments left
  rw [← undescribed_ofArguments nodes] at related
  have resolved' := related.resolve_eq.trans (resolve_undescribed resolved)
  rw [same, Setting.visitShorthand]
  simp only [resolved', store_undescribed stored]
  rfl

theorem visitDefinition_undescribed (stable : Stable s.evaluator) {several : Bool}
    {callee callee' : Node} {inner : Span} {rest rest' : List Node}
    (success : (s.visitDefinition p several span callee inner properties rest).failure = none)
    (left : Leaves (if several then properties.map s.strippedProperty
      else s.keptProperties inner properties) properties') :
    s.visitDefinition p.undescribed several span callee' inner properties' rest' =
      ⟨.mk .call span (callee' :: .mk .object inner properties' :: rest'),
        (s.visitDefinition p several span callee inner properties rest).progress.undescribed,
        none⟩ := by
  rw [Setting.visitDefinition] at success
  dsimp only at success
  split at success
  · exact absurd success (by simp)
  · rename_i ended
    cases several with
    | true =>
        have again := visitDescriptors_undescribed stable ended left
        simp only [if_true] at ended
        simp only [Setting.visitDefinition, if_true, again, ended]
        rfl
    | false =>
        have again := visitDescriptor_undescribed stable ended left
        simp only [Bool.false_eq_true, if_false] at ended
        simp only [Setting.visitDefinition, Bool.false_eq_true, if_false, again, ended]
        rfl

theorem visitCall_undescribed (stable : Stable s.evaluator) {callee : Node}
    (fresh : ⟨.call, span⟩ ∉ p.processed)
    (success : (s.visitCall p span callee nodes).failure = none)
    (left : Leaves (s.visitCall p span callee nodes).node.children nodes') :
    s.visit p.undescribed (.mk .call span nodes') =
      ⟨.mk .call span nodes', (s.visitCall p span callee nodes).progress.undescribed,
        none⟩ := by
  have fresh' : ⟨.call, span⟩ ∉ p.undescribed.processed := fresh
  obtain role | ⟨several, inner, properties, rest, role, rfl⟩ | idle :=
    call_cases s span callee nodes
  · rw [visitCall_shorthand fresh role] at success left ⊢
    obtain ⟨content, p', -, -, same⟩ := exists_of_visitShorthand success
    rw [same] at left
    obtain ⟨parts, arguments, rfl, -, left⟩ := Leaves.cons_iff.mp left
    rw [Setting.visit, visitCall_shorthand fresh' (by rw [calleeRole?_mk, role])]
    exact visitShorthand_undescribed stable success left
  · rw [visitCall_definition fresh role] at success left ⊢
    obtain ⟨catalog, same⟩ := exists_of_visitDefinition success
    rw [same] at left
    obtain ⟨parts, arguments, rfl, -, left⟩ := Leaves.cons_iff.mp left
    obtain ⟨properties', rest', rfl, inside, -⟩ := Leaves.cons_iff.mp left
    rw [Setting.visit]
    dsimp only [Node.form_mk, Node.span_mk]
    rw [visitCall_definition fresh' (by rw [calleeRole?_mk, role])]
    exact visitDefinition_undescribed stable success (inside rfl)
  · have same : s.visitCall p span callee nodes =
        ⟨.mk .call span (callee :: nodes), p.warn [], none⟩ := idle p _ (.refl _) fresh
    rw [same] at left ⊢
    rw [p.warn_nil]
    exact (idle p.undescribed nodes' left fresh').trans (by rw [Progress.warn_nil]; rfl)

/-- A visit of what a walk through the node has left, in a progress without descriptions,
does what the first visit did, without the descriptions. -/
theorem visit_undescribed (stable : Stable s.evaluator)
    (success : (s.visit p node).failure = none)
    (left : Leaves (s.visit p node).node.children children) :
    s.visit p.undescribed (.mk node.form node.span children) =
      ⟨.mk node.form node.span children, (s.visit p node).progress.undescribed, none⟩ := by
  cases site : isSite node with
  | false =>
      rw [visit_of_isSite_eq_false site,
        visit_of_isSite_eq_false (by rwa [isSite_mk])]
  | true =>
      by_cases known : siteId node ∈ p.processed
      · rw [visit_skipped site known,
          visit_skipped (by rwa [isSite_mk]) (by rwa [siteId_mk, p.processed_undescribed])]
      · obtain ⟨form, span, parts⟩ := node
        rw [isSite.eq_def] at site
        split at site <;> rename_i same
        · cases same
          exact visitElement_undescribed stable known success left
        · cases same
          cases parts with
          | nil =>
              obtain rfl := leaves_nil_iff.mp left
              rfl
          | cons callee arguments => exact visitCall_undescribed stable known success left
        · exact absurd site (by simp)

end Visits

/-! ### Walks -/

theorem Setting.Passes.undescribed {s : Setting} {p p' : Progress} {nodes nodes' : List Node}
    (stable : Stable s.evaluator) (passes : s.Passes p nodes nodes' p') :
    s.Passes p.undescribed nodes' nodes' p'.undescribed := by
  induction passes with
  | nil p => exact .nil p.undescribed
  | cons success inside behind ih ih' =>
      exact .cons_unchanged (visit_undescribed stable success inside.leaves) ih ih'

/-- A second extraction finds the messages again: if descriptions are not enforced, then a
walk from the beginning through what a first walk has left succeeds, leaves that tree as it
is, and finds the messages of the first walk in the same order, without descriptions. -/
theorem second_extraction_undescribed (s : Setting) (constants : Binding.Constants)
    (unit : List Node)
    (evaluates : s.evaluator = Constant.evaluate constants)
    (unenforced : s.options.enforceDescriptions = false)
    (success : (s.walk (.start s.options) unit).2.failure = none) :
    ∃ p, s.walk (.start s.options) (s.walk (.start s.options) unit).1 =
        ((s.walk (.start s.options) unit).1, .start p) ∧
      p.catalog.entries = (s.walk (.start s.options) unit).2.progress.catalog.entries.map
        fun e => { e with description := none } := by
  have stable : Stable s.evaluator := evaluates ▸ stable_evaluate constants
  have start : (Progress.start s.options).undescribed = .start s.options := by
    rw [Progress.undescribed, Progress.start, unenforced, Catalog.undescribed_empty]
  have again := ((passes_of_walk success).undescribed stable).walk_eq
  rw [start] at again
  exact ⟨_, again, rfl⟩

theorem second_extraction_undescribed_plural :
    pluralSetting.evaluator = Constant.evaluate (Binding.Constants.ofUnit pluralUnit) ∧
      pluralSetting.options.enforceDescriptions = false ∧
      (pluralSetting.walk (.start pluralSetting.options) pluralUnit).2.failure = none ∧
      let (unit, walk) := pluralSetting.walk (.start pluralSetting.options) pluralUnit
      let again := (pluralSetting.walk (.start pluralSetting.options) unit).2
      walk.progress.catalog.entries = [⟨"x", some "d", "X", none, none⟩] ∧
        again.failure = none ∧
        again.progress.catalog.entries = [⟨"x", none, "X", none, none⟩] := by
  have entries : (pluralSetting.walk (.start pluralSetting.options)
      pluralUnit).2.progress.catalog.entries = [⟨"x", some "d", "X", none, none⟩] := rfl
  obtain ⟨p, again, same⟩ :=
    second_extraction_undescribed pluralSetting _ pluralUnit rfl rfl rfl
  refine ⟨rfl, rfl, rfl, ?_⟩
  dsimp only
  rw [again]
  exact ⟨entries, rfl, by rw [Walk.start, same, entries]; rfl⟩

end Extraction

end MessageCatalog
