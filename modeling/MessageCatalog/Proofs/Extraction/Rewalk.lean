import MessageCatalog.Proofs.Extraction.Drafts
import MessageCatalog.Proofs.Extraction.History

/-!
# Walking again

After a walk that succeeds, every node is settled: it is remembered, so that it is
skipped from then on, or it is one of which a visit makes nothing but warnings. Both stay
so while the walk goes on inside the node and elsewhere, because being idle depends on the
forms of a node and its parts only, and because no other site has the identity of the
node. So a second walk with the same progress finds nothing to do, and warns again.
-/

namespace MessageCatalog

namespace Extraction

open Binding Catalog Descriptor Syntax

/-- The progress with further warnings. -/
def Progress.warn (p : Progress) (warnings : List Warning) : Progress :=
  { p with warnings := p.warnings ++ warnings }

@[simp] theorem Progress.warn_nil (p : Progress) : p.warn [] = p := by
  rw [warn, List.append_nil]

@[simp] theorem Progress.warn_warn (p : Progress) (warnings later : List Warning) :
    (p.warn warnings).warn later = p.warn (warnings ++ later) := by
  simp [warn]

@[simp] theorem Progress.warnings_warn (p : Progress) (warnings : List Warning) :
    (p.warn warnings).warnings = p.warnings ++ warnings := rfl

/-- Unless it is remembered, every visit of the node makes these warnings and nothing
else, also when a walk has passed through its parts. -/
def Setting.Idle (s : Setting) (node : Node) (warnings : List Warning) : Prop :=
  ∀ q children, Leaves node.children children → siteId node ∉ q.processed →
    s.visit q (.mk node.form node.span children) =
      ⟨.mk node.form node.span children, q.warn warnings, none⟩

/-- The node has been processed and is remembered from then on. -/
def Marks (p : Progress) (id : NodeId) (p' : Progress) : Prop :=
  ∃ catalog, p' = Progress.mark { p with catalog } id

/-! ### Visits -/

section Visits

variable {s : Setting} {p q : Progress} {span : Span} {node : Node} {children : List Node}

theorem visitMessage_marks {convention : Convention} {tag : Tag} {attributes : List Node}
    (message : (Draft.ofAttributes convention attributes).has .defaultMessage = true)
    (success : (s.visitMessage p convention tag span attributes).failure = none) :
    Marks p ⟨.element, span⟩ (s.visitMessage p convention tag span attributes).progress := by
  obtain ⟨absent, -⟩ | ⟨content, p', -, -, stored, same⟩ := visitMessage_cases success
  · exact absurd (absent.symm.trans message) (by simp)
  · obtain ⟨catalog, e, -, rfl⟩ := exists_of_store stored
    exact ⟨catalog, by rw [same]⟩

theorem visitElement_settles {tag : Tag} {attributes : List Node}
    (fresh : ⟨.element, span⟩ ∉ p.processed)
    (success : (s.visitElement p tag span attributes).failure = none) :
    Marks p ⟨.element, span⟩ (s.visitElement p tag span attributes).progress ∨
      ∃ warnings, s.Idle (.mk (.element tag) span attributes) warnings := by
  rw [Setting.visitElement, if_neg (by simpa using fresh)] at success ⊢
  have enters {q : Progress} (unknown : ⟨.element, span⟩ ∉ q.processed) :
      ¬ q.processed.contains ⟨.element, span⟩ = true := by
    simpa using unknown
  cases role : s.tagRole? tag with
  | none =>
      refine .inr ⟨[], fun q children left unknown => ?_⟩
      rw [Node.form_mk, Node.span_mk, Setting.visit, Setting.visitElement,
        if_neg (enters unknown)]
      simp only [role, Progress.warn_nil]
  | some found =>
      cases found with
      | unsupported component =>
          refine .inr ⟨[⟨component, s.context span.start⟩], fun q children left unknown => ?_⟩
          rw [Node.form_mk, Node.span_mk, Setting.visit, Setting.visitElement,
            if_neg (enters unknown)]
          simp only [role, Progress.warn]
      | message convention =>
          simp only [role] at success ⊢
          by_cases message : (Draft.ofAttributes convention attributes).has .defaultMessage = true
          · exact .inl (visitMessage_marks message success)
          · refine .inr ⟨[], fun q children left unknown => ?_⟩
            have related := related_ofAttributes (R := fun _ _ => True) (fun _ _ => trivial)
              convention left
            rw [Node.form_mk, Node.span_mk, Setting.visit, Setting.visitElement,
              if_neg (enters unknown)]
            simp [role, Setting.visitMessage, related.has_eq, message]

theorem visitShorthand_marks {callee : Node} {arguments : List Node}
    (success : (s.visitShorthand p span callee arguments).failure = none) :
    Marks p ⟨.call, span⟩ (s.visitShorthand p span callee arguments).progress := by
  obtain ⟨content, p', -, stored, same⟩ := exists_of_visitShorthand success
  obtain ⟨catalog, e, -, rfl⟩ := exists_of_store stored
  exact ⟨catalog, by rw [same]⟩

theorem visitDefinition_marks {several : Bool} {callee : Node} {inner : Span}
    {properties rest : List Node}
    (success : (s.visitDefinition p several span callee inner properties rest).failure = none) :
    Marks p ⟨.call, span⟩
      (s.visitDefinition p several span callee inner properties rest).progress := by
  obtain ⟨catalog, same⟩ := exists_of_visitDefinition success
  exact ⟨catalog, by rw [same]⟩

/-- What stands for something depends on the form of a callee only. -/
theorem calleeRole?_mk (s : Setting) (callee : Node) (children : List Node) :
    s.calleeRole? (.mk callee.form callee.span children) = s.calleeRole? callee := by
  cases callee with
  | mk form span parts => cases form <;> rfl

/-- A call that is not one of the three kinds is left alone. -/
theorem visitCall_other {callee : Node} {arguments : List Node}
    (noShorthand : s.calleeRole? callee ≠ some .shorthand)
    (noDefinition : ∀ role inner properties rest, s.calleeRole? callee = some role →
      arguments = .mk .object inner properties :: rest → role = .shorthand) :
    s.visitCall p span callee arguments =
      ⟨.mk .call span (callee :: arguments), p, none⟩ := by
  rw [Setting.visitCall.eq_def]
  split
  · rfl
  · split <;> grind

theorem idle_other_call {callee : Node} {arguments : List Node}
    (noShorthand : s.calleeRole? callee ≠ some .shorthand)
    (noDefinition : ∀ role inner properties rest, s.calleeRole? callee = some role →
      arguments = .mk .object inner properties :: rest → role = .shorthand) :
    s.Idle (.mk .call span (callee :: arguments)) [] := by
  intro q children left unknown
  obtain ⟨parts, arguments', rfl, -, left⟩ := Leaves.cons_iff.mp left
  rw [Node.form_mk, Node.span_mk, Setting.visit, Progress.warn_nil]
  refine visitCall_other (by rwa [calleeRole?_mk]) ?_
  intro role inner properties rest found same
  rw [calleeRole?_mk] at found
  cases arguments with
  | nil => simp [leaves_nil_iff.mp left] at same
  | cons argument arguments =>
      obtain ⟨parts, rest', rfl, -, -⟩ := Leaves.cons_iff.mp left
      obtain ⟨same, -⟩ := List.cons_eq_cons.mp same
      cases argument
      obtain ⟨rfl, -, -⟩ := Node.mk.inj same
      exact noDefinition role _ _ _ found rfl

theorem visitCall_shorthand {callee : Node} {arguments : List Node}
    (fresh : ⟨.call, span⟩ ∉ p.processed)
    (role : s.calleeRole? callee = some .shorthand) :
    s.visitCall p span callee arguments = s.visitShorthand p span callee arguments := by
  rw [Setting.visitCall.eq_def, if_neg (by simpa using fresh), role]

theorem visitCall_definition {callee : Node} {several : Bool} {inner : Span}
    {properties rest : List Node} (fresh : ⟨.call, span⟩ ∉ p.processed)
    (role : s.calleeRole? callee = some (if several then .many else .one)) :
    s.visitCall p span callee (.mk .object inner properties :: rest) =
      s.visitDefinition p several span callee inner properties rest := by
  rw [Setting.visitCall.eq_def, if_neg (by simpa using fresh), role]
  cases several <;> rfl

/-- A call is a shorthand, or it defines what its first argument says, or it is idle. -/
theorem call_cases (s : Setting) (span : Span) (callee : Node) (arguments : List Node) :
    s.calleeRole? callee = some .shorthand ∨
      (∃ (several : Bool) (inner : Span) (properties rest : List Node),
        s.calleeRole? callee = some (if several then .many else .one) ∧
          arguments = .mk .object inner properties :: rest) ∨
      s.Idle (.mk .call span (callee :: arguments)) [] := by
  by_cases shorthand : s.calleeRole? callee = some .shorthand
  · exact .inl shorthand
  by_cases defines : ∃ (several : Bool) (inner : Span) (properties rest : List Node),
      s.calleeRole? callee = some (if several then .many else .one) ∧
        arguments = .mk .object inner properties :: rest
  · exact .inr (.inl defines)
  refine .inr (.inr (idle_other_call shorthand ?_))
  rintro (_ | _ | _) inner properties rest found rfl
  · rfl
  · exact absurd ⟨true, inner, properties, rest, found, rfl⟩ defines
  · exact absurd ⟨false, inner, properties, rest, found, rfl⟩ defines

theorem visitCall_settles {callee : Node} {arguments : List Node}
    (fresh : ⟨.call, span⟩ ∉ p.processed)
    (success : (s.visitCall p span callee arguments).failure = none) :
    Marks p ⟨.call, span⟩ (s.visitCall p span callee arguments).progress ∨
      ∃ warnings, s.Idle (.mk .call span (callee :: arguments)) warnings := by
  obtain role | ⟨several, inner, properties, rest, role, rfl⟩ | idle :=
    call_cases s span callee arguments
  · rw [visitCall_shorthand fresh role] at success ⊢
    exact .inl (visitShorthand_marks success)
  · rw [visitCall_definition fresh role] at success ⊢
    exact .inl (visitDefinition_marks success)
  · exact .inr ⟨[], idle⟩

/-- A site that is visited with success for the first time is remembered or idle. -/
theorem visit_settles (site : isSite node = true) (fresh : siteId node ∉ p.processed)
    (success : (s.visit p node).failure = none) :
    Marks p (siteId node) (s.visit p node).progress ∨ ∃ warnings, s.Idle node warnings := by
  rw [Setting.visit.eq_def] at success ⊢
  revert success
  split
  · exact visitElement_settles fresh
  · exact visitCall_settles fresh
  · rename_i noElement noCall
    intro _
    rw [isSite.eq_def] at site
    split at site
    · exact (noElement _ _ _ rfl).elim
    · rename_i span parts _
      cases parts with
      | nil =>
          refine .inr ⟨[], fun q children left _ => ?_⟩
          obtain rfl := leaves_nil_iff.mp left
          rw [Progress.warn_nil]
          rfl
      | cons callee arguments => exact (noCall _ _ _ rfl).elim
    · exact absurd site (by simp)

/-- After a visit that succeeded, a visit of what is left of the node makes the same
warnings and nothing else, if it finds the node remembered exactly if the first one left it
remembered. -/
theorem visit_again (success : (s.visit p node).failure = none) :
    ∃ warnings, (s.visit p node).progress.warnings = p.warnings ++ warnings ∧
      ∀ q children, Leaves (s.visit p node).node.children children →
        (isSite node = true →
          (siteId node ∈ q.processed ↔ siteId node ∈ (s.visit p node).progress.processed)) →
        s.visit q (.mk node.form node.span children) =
          ⟨.mk node.form node.span children, q.warn warnings, none⟩ := by
  have skips (q : Progress) (children : List Node) (site : isSite node = true)
      (known : siteId node ∈ q.processed) :
      s.visit q (.mk node.form node.span children) =
        ⟨.mk node.form node.span children, q.warn [], none⟩ := by
    rw [Progress.warn_nil]
    exact visit_skipped (by rwa [isSite_mk]) (by rwa [siteId_mk])
  cases site : isSite node with
  | false =>
      refine ⟨[], by rw [visit_of_isSite_eq_false site, List.append_nil], fun q children _ _ => ?_⟩
      rw [visit_of_isSite_eq_false (by rwa [isSite_mk]), Progress.warn_nil]
  | true =>
      by_cases known : siteId node ∈ p.processed
      · rw [visit_skipped site known]
        exact ⟨[], (List.append_nil _).symm, fun q children _ agrees =>
          skips q children site ((agrees rfl).mpr known)⟩
      · obtain ⟨catalog, marked⟩ | ⟨warnings, idle⟩ := visit_settles site known success
        · rw [marked]
          exact ⟨[], (List.append_nil _).symm, fun q children _ agrees =>
            skips q children site ((agrees rfl).mpr List.mem_cons_self)⟩
        · have first := idle p node.children (.refl _) known
          rw [show Node.mk node.form node.span node.children = node by cases node; rfl] at first
          rw [first]
          exact ⟨warnings, rfl, fun q children left agrees =>
            idle q children left fun here => known ((agrees rfl).mp here)⟩

end Visits

/-! ### Walks -/

section Walks

variable {s : Setting} {p p' : Progress} {node : Node} {nodes nodes' : List Node}

theorem Setting.Passes.continues (passes : s.Passes p nodes nodes' p') : p.Continues p' := by
  induction passes with
  | nil p => exact .refl p
  | cons success inside behind ih ih' => exact ((visit_continues s _ _).trans ih).trans ih'

/-- The sites inside a node after a visit are among those that were inside it before. -/
theorem exists_sitesOf_perm (success : (s.visit p node).failure = none) :
    ∃ dropped, (sitesOf node.children).Perm
      (sitesOf (s.visit p node).node.children ++ dropped) := by
  obtain ⟨-, -, same⟩ | ⟨-, processes⟩ := visit_cases success
  · exact ⟨[], by rw [same, List.append_nil]⟩
  · exact ⟨s.hidden node, processes.stripped ▸ sitesOf_stripped_perm s node⟩

theorem processed_of_visit (success : (s.visit p node).failure = none) {id : NodeId}
    (here : id ∈ (s.visit p node).progress.processed) :
    id ∈ p.processed ∨ isSite node = true ∧ id = siteId node := by
  obtain ⟨-, -, same⟩ | ⟨-, processes⟩ := visit_cases success
  · rw [same] at here
    exact .inl here
  · exact processes.processed id here

/-- A walk remembers no sites but those it passes through. -/
theorem Setting.Passes.mem_processed_iff (passes : s.Passes p nodes nodes' p') {id : NodeId}
    (other : id ∉ (sitesOf nodes).map siteId) : id ∈ p'.processed ↔ id ∈ p.processed := by
  refine ⟨fun here => ?_, fun here => passes.continues.processed.subset here⟩
  induction passes with
  | nil p => exact here
  | @cons p q p' node children nodes nodes' success inside behind ih ih' =>
      rw [sitesOf_cons, sites_eq, List.map_append, List.map_append, List.mem_append,
        List.mem_append, not_or, not_or] at other
      obtain ⟨⟨notOwn, notInside⟩, notBehind⟩ := other
      obtain ⟨dropped, divided⟩ := exists_sitesOf_perm success
      have notLeft : id ∉ (sitesOf (s.visit p node).node.children).map siteId := by
        intro left
        refine notInside ((divided.map siteId).mem_iff.mpr ?_)
        rw [List.map_append]
        exact List.mem_append_left _ left
      rcases processed_of_visit success (ih notLeft (ih' notBehind here)) with before | ⟨site, rfl⟩
      · exact before
      · exact absurd (List.mem_map_of_mem (mem_ownSite.mpr ⟨site, rfl⟩)) notOwn

/-- A walk through what a walk has left, with the sites remembered that were remembered
then, makes the warnings of the first walk and nothing else. -/
theorem Setting.Passes.again (passes : s.Passes p nodes nodes' p')
    (distinct : ((sitesOf nodes).map siteId).Nodup) :
    ∃ warnings, p'.warnings = p.warnings ++ warnings ∧
      ∀ q : Progress, (∀ id ∈ (sitesOf nodes).map siteId,
          id ∈ q.processed ↔ id ∈ p'.processed) →
        s.Passes q nodes' nodes' (q.warn warnings) := by
  induction passes with
  | nil p => exact ⟨[], (List.append_nil _).symm, fun q _ => by rw [q.warn_nil]; exact .nil q⟩
  | @cons p r p' node children nodes nodes' success inside behind ih ih' =>
      rw [sitesOf_cons, sites_eq, List.map_append, List.map_append] at distinct
      obtain ⟨first, distinctBehind, apart⟩ := List.nodup_append.mp distinct
      obtain ⟨-, distinctInside, own⟩ := List.nodup_append.mp first
      obtain ⟨dropped, divided⟩ := exists_sitesOf_perm success
      have divided := divided.map siteId
      rw [List.map_append] at divided
      obtain ⟨warnings', same', again'⟩ :=
        ih (List.nodup_append.mp (divided.nodup_iff.mp distinctInside)).1
      obtain ⟨warnings'', same'', again''⟩ := ih' distinctBehind
      have beforeRest {id : NodeId} (here : id ∈ (ownSite node).map siteId ++
          (sitesOf node.children).map siteId) : id ∈ p'.processed ↔ id ∈ r.processed :=
        behind.mem_processed_iff fun later => apart id here id later rfl
      have kept {id : NodeId}
          (here : id ∈ (sitesOf (s.visit p node).node.children).map siteId) :
          id ∈ (sitesOf node.children).map siteId :=
        divided.mem_iff.mpr (List.mem_append_left _ here)
      obtain ⟨warnings, same, visited⟩ := visit_again success
      refine ⟨warnings ++ warnings' ++ warnings'', ?_, fun q agrees => ?_⟩
      · rw [same'', same', same]
        simp only [List.append_assoc]
      simp only [sitesOf_cons, sites_eq, List.map_append, List.mem_append] at agrees beforeRest
      have outcome := visited q children inside.leaves fun site => by
        have here : siteId node ∈ (ownSite node).map siteId :=
          List.mem_map_of_mem (mem_ownSite.mpr ⟨site, rfl⟩)
        rw [agrees _ (.inl (.inl here)), beforeRest (.inl here), inside.mem_processed_iff]
        exact fun later => own _ here _ (kept later) rfl
      rw [← Progress.warn_warn, ← Progress.warn_warn]
      refine .cons_unchanged outcome (again' _ fun id here => ?_)
        (again'' _ fun id here => agrees id (.inr here))
      have within := kept here
      exact (agrees id (.inl (.inr within))).trans (beforeRest (.inr within))

end Walks

/-- A second walk is idle: in a unit without two sites of the same identity, after a walk
that succeeds, a walk through the tree that is left succeeds too, changes neither the tree
nor the catalog nor the processed nodes, and makes the warnings of the first walk again. -/
theorem second_walk_idle (s : Setting) (p : Progress) (unit : List Node)
    (distinct : ((sitesOf unit).map siteId).Nodup)
    (success : (s.walk p unit).2.failure = none) :
    ∃ warnings, (s.walk p unit).2.progress.warnings = p.warnings ++ warnings ∧
      s.walk (s.walk p unit).2.progress (s.walk p unit).1 =
        ((s.walk p unit).1, .start ((s.walk p unit).2.progress.warn warnings)) := by
  obtain ⟨warnings, same, again⟩ := (passes_of_walk success).again distinct
  exact ⟨warnings, same, (again _ fun id _ => Iff.rfl).walk_eq⟩

/-- The unit `<M id="x" defaultMessage="X" description="d" />; <P />;` after an import of
the component for messages as `M` and of the one for plurals as `P`. -/
def pluralUnit : List Node :=
  [.mk (.imports [⟨"M", "FormattedMessage", "react-intl"⟩, ⟨"P", pluralComponent, "react-intl"⟩])
      ⟨0, 71⟩ [],
    .mk .group ⟨72, 120⟩ [.mk .group ⟨72, 119⟩ [.mk (.element (.plain "M")) ⟨72, 119⟩
      [.mk (.attribute "id") ⟨75, 81⟩ [.mk (.string "x") ⟨78, 81⟩ []],
        .mk (.attribute "defaultMessage") ⟨82, 100⟩ [.mk (.string "X") ⟨97, 100⟩ []],
        .mk (.attribute descriptionKey) ⟨101, 116⟩ [.mk (.string "d") ⟨113, 116⟩ []]]]],
    .mk .group ⟨121, 127⟩ [.mk .group ⟨121, 126⟩ [.mk (.element (.plain "P")) ⟨121, 126⟩ []]]]

/-- How messages are extracted from the unit. -/
def pluralSetting : Setting :=
  Unit.setting .standard "test.tsx"
    (.ofString ("import \x7bFormattedMessage as M, FormattedPlural as P\x7d " ++
      "from \"react-intl\"; " ++
      "<M id=\"x\" defaultMessage=\"X\" description=\"d\" />; <P />;"))
    pluralUnit

theorem second_walk_idle_plural :
    ((sitesOf pluralUnit).map siteId).Nodup ∧
      (pluralSetting.walk (.start pluralSetting.options) pluralUnit).2.failure = none ∧
      let (unit, walk) := pluralSetting.walk (.start pluralSetting.options) pluralUnit
      let again := (pluralSetting.walk walk.progress unit).2.progress
      again.catalog.entries.map (·.id) = ["x"] ∧
        again.warnings.map (·.component) = [pluralComponent, pluralComponent] := by
  have distinct : ((sitesOf pluralUnit).map siteId).Nodup := by decide
  obtain ⟨warnings, same, again⟩ :=
    second_walk_idle pluralSetting (.start pluralSetting.options) pluralUnit distinct rfl
  have entries : (pluralSetting.walk (.start pluralSetting.options)
      pluralUnit).2.progress.catalog.entries.map (·.id) = ["x"] := rfl
  have first : (pluralSetting.walk (.start pluralSetting.options)
      pluralUnit).2.progress.warnings.map (·.component) = [pluralComponent] := rfl
  have later : warnings.map (·.component) = [pluralComponent] := by rw [← first, same]; rfl
  refine ⟨distinct, rfl, ?_⟩
  dsimp only
  rw [again]
  refine ⟨entries, ?_⟩
  rw [Walk.start, Progress.warnings_warn, List.map_append, first, later]
  rfl

end Extraction

end MessageCatalog
