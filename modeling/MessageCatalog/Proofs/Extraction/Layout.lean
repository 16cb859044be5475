import MessageCatalog.Proofs.Extraction.Order

/-!
# Trees that are laid out like their text

A tree is laid out like its text if the parts of every node lie inside of the node and one
after the other, in the order in which they are visited. In such a tree a walk finds
everything in the order of the text, except for one thing: the messages that a call defines
in an object are found when the call is visited, before the walk enters the object. So they
overtake the messages that are declared in front of them inside of the object.
-/

namespace MessageCatalog

namespace Extraction

open Binding Catalog Descriptor Syntax Text

/-- The trees lie between two places, one after the other, and so do the parts of each of
them between its ends. -/
inductive Laid : Nat → List Node → Nat → Prop
  | nil {start stop : Nat} (le : start ≤ stop) : Laid start [] stop
  | cons {start stop : Nat} {node : Node} {nodes : List Node}
      (first : start ≤ node.span.start)
      (parts : Laid node.span.start node.children node.span.stop)
      (behind : Laid node.span.stop nodes stop) : Laid start (node :: nodes) stop

/-- The places lie between two places, and none of them is behind a later one. -/
structure Ascends (start : Nat) (places : List Nat) (stop : Nat) : Prop where
  le : start ≤ stop
  ordered : places.Pairwise (· ≤ ·)
  within : ∀ place ∈ places, start ≤ place ∧ place ≤ stop

section Ascent

variable {start middle stop place : Nat} {places places' : List Nat}

theorem Ascends.nil (le : start ≤ stop) : Ascends start [] stop :=
  ⟨le, .nil, by simp⟩

theorem Ascends.single (first : start ≤ place) (last : place ≤ stop) :
    Ascends start [place] stop :=
  ⟨Nat.le_trans first last, List.pairwise_singleton _ _, by simpa using ⟨first, last⟩⟩

theorem Ascends.append (first : Ascends start places middle)
    (second : Ascends middle places' stop) : Ascends start (places ++ places') stop where
  le := Nat.le_trans first.le second.le
  ordered := by
    refine List.pairwise_append.mpr ⟨first.ordered, second.ordered, fun a here b later => ?_⟩
    exact Nat.le_trans (first.within a here).2 (second.within b later).1
  within := by
    intro place here
    rcases List.mem_append.mp here with here | here
    · exact ⟨(first.within place here).1, Nat.le_trans (first.within place here).2 second.le⟩
    · exact ⟨Nat.le_trans first.le (second.within place here).1, (second.within place here).2⟩

theorem Ascends.weaken {start' stop' : Nat} (ascends : Ascends start places stop)
    (first : start' ≤ start) (last : stop ≤ stop') : Ascends start' places stop' where
  le := Nat.le_trans first (Nat.le_trans ascends.le last)
  ordered := ascends.ordered
  within place here := ⟨Nat.le_trans first (ascends.within place here).1,
    Nat.le_trans (ascends.within place here).2 last⟩

end Ascent

section Layout

variable {s : Setting} {start start' stop : Nat} {node : Node} {nodes properties : List Node}

theorem Laid.le (laid : Laid start nodes stop) : start ≤ stop := by
  induction laid with
  | nil le => exact le
  | cons first _ _ ih ih' => exact Nat.le_trans first (Nat.le_trans ih ih')

theorem laid_nil_iff : Laid start [] stop ↔ start ≤ stop :=
  ⟨Laid.le, .nil⟩

theorem Laid.cons_iff : Laid start (node :: nodes) stop ↔ start ≤ node.span.start ∧
    Laid node.span.start node.children node.span.stop ∧ Laid node.span.stop nodes stop :=
  ⟨fun | .cons first parts behind => ⟨first, parts, behind⟩,
    fun ⟨first, parts, behind⟩ => .cons first parts behind⟩

theorem Laid.weaken (laid : Laid start nodes stop) (le : start' ≤ start) :
    Laid start' nodes stop := by
  cases laid with
  | nil last => exact .nil (Nat.le_trans le last)
  | cons first parts behind => exact .cons (Nat.le_trans le first) parts behind

/-! ### Descriptions can be left out -/

theorem Laid.filter (laid : Laid start nodes stop) (keeps : Node → Bool) :
    Laid start (nodes.filter keeps) stop := by
  induction nodes generalizing start with
  | nil => exact laid
  | cons node nodes ih =>
      obtain ⟨first, parts, behind⟩ := cons_iff.mp laid
      rw [List.filter_cons]
      split
      · exact .cons first parts (ih behind)
      · exact (ih behind).weaken (Nat.le_trans first parts.le)

theorem Laid.keptProperties (laid : Laid start properties stop) (s : Setting) (span : Span) :
    Laid start (s.keptProperties span properties) stop := by
  rw [Setting.keptProperties]
  split
  · exact laid
  · exact laid.filter _

theorem Laid.strippedProperties (laid : Laid start properties stop) (s : Setting) :
    Laid start (properties.map s.strippedProperty) stop := by
  induction properties generalizing start with
  | nil => exact laid
  | cons property properties ih =>
      obtain ⟨first, parts, behind⟩ := cons_iff.mp laid
      cases value : propertyObject? property with
      | none =>
          rw [List.map_cons, strippedProperty_other value]
          exact .cons first parts (ih behind)
      | some object =>
          obtain ⟨outer, key, rfl⟩ := propertyObject?_eq_some value
          obtain ⟨ahead, inside, last⟩ := cons_iff.mp parts
          obtain ⟨between, properties, last⟩ := cons_iff.mp last
          exact .cons first
            (.cons ahead inside (.cons between (properties.keptProperties s _) last)) (ih behind)

theorem Laid.stripped (laid : Laid node.span.start node.children node.span.stop)
    (s : Setting) :
    Laid node.span.start (s.stripped node).children node.span.stop := by
  rw [Setting.stripped.eq_def]
  split
  · split
    · exact laid
    · exact laid.filter _
  · rename_i span callee inner properties rest
    obtain ⟨first, inside, behind⟩ := cons_iff.mp laid
    obtain ⟨between, parts, last⟩ := cons_iff.mp behind
    split
    · exact .cons first inside (.cons between (parts.strippedProperties s) last)
    · exact .cons first inside (.cons between (parts.keptProperties s _) last)
    · exact laid
  · exact laid

/-! ### Declarations lie in their trees -/

theorem ascends_objectDeclarations (s : Setting) {span : Span} (first : start ≤ span.start)
    (last : span.start ≤ stop) (properties : List Node) :
    Ascends start ((s.objectDeclarations span properties).map Declaration.place) stop := by
  rw [Setting.objectDeclarations]
  split
  · split
    · exact .single first last
    · exact .nil (Nat.le_trans first last)
  · exact .nil (Nat.le_trans first last)

theorem Laid.ascends_properties (laid : Laid start properties stop) (s : Setting) :
    Ascends start (((properties.filterMap propertyObject?).flatMap fun object =>
      s.objectDeclarations object.1 object.2).map Declaration.place) stop := by
  induction properties generalizing start with
  | nil => exact .nil laid.le
  | cons property properties ih =>
      obtain ⟨first, parts, behind⟩ := cons_iff.mp laid
      cases value : propertyObject? property with
      | none =>
          rw [List.filterMap_cons_none value]
          exact ih (behind.weaken (Nat.le_trans first parts.le))
      | some object =>
          rw [List.filterMap_cons_some value, List.flatMap_cons, List.map_append]
          obtain ⟨outer, key, rfl⟩ := propertyObject?_eq_some value
          obtain ⟨ahead, inside, last⟩ := cons_iff.mp parts
          obtain ⟨between, properties, last⟩ := cons_iff.mp last
          refine (ascends_objectDeclarations s ?_ ?_ _).append (ih behind)
          · exact Nat.le_trans first
              (Nat.le_trans ahead (Nat.le_trans inside.le between))
          · exact Nat.le_trans properties.le last.le

theorem Laid.ascends_objects {callee : Node} {arguments : List Node}
    (laid : Laid start arguments stop) (s : Setting) :
    Ascends start (((s.objects callee arguments).flatMap fun object =>
      s.objectDeclarations object.1 object.2).map Declaration.place) stop := by
  rw [Setting.objects.eq_def]
  split
  · rename_i span properties rest
    obtain ⟨first, parts, last⟩ := cons_iff.mp laid
    split
    · exact (parts.ascends_properties s).weaken first last.le
    · rw [List.flatMap_singleton]
      exact ascends_objectDeclarations s first (Nat.le_trans parts.le last.le) properties
    · exact .nil laid.le
  · exact .nil laid.le

theorem Laid.ascends_declarations (laid : Laid node.span.start node.children node.span.stop)
    (s : Setting) :
    Ascends node.span.start ((s.declarations node).map Declaration.place) node.span.stop := by
  have own := Ascends.single (Nat.le_refl node.span.start) laid.le
  have nothing := Ascends.nil laid.le
  rw [Setting.declarations.eq_def]
  split
  · split
    · dsimp only
      split
      · exact own
      · exact nothing
    · exact nothing
  · split
    · exact own
    · obtain ⟨first, parts, behind⟩ := cons_iff.mp laid
      exact (behind.ascends_objects s).weaken (Nat.le_trans first parts.le) (Nat.le_refl _)
  · exact nothing

/-- What is found in trees lies where the trees lie. -/
theorem Laid.found_within (laid : Laid start nodes stop) (s : Setting) :
    ∀ d ∈ s.found nodes, start ≤ d.place ∧ d.place ≤ stop := by
  induction nodes using stripped_induction s generalizing start stop with
  | nil => simp
  | cons node nodes ih ih' =>
      obtain ⟨first, parts, behind⟩ := cons_iff.mp laid
      intro d here
      rw [found_cons, List.mem_append, List.mem_append] at here
      rcases here with (own | inside) | later
      · have within := (parts.ascends_declarations s).within _ (List.mem_map_of_mem own)
        exact ⟨Nat.le_trans first within.1, Nat.le_trans within.2 behind.le⟩
      · have within := ih (parts.stripped s) d inside
        exact ⟨Nat.le_trans first within.1, Nat.le_trans within.2 behind.le⟩
      · have within := ih' behind d later
        exact ⟨Nat.le_trans first (Nat.le_trans parts.le within.1), within.2⟩

end Layout

/-! ### Sites that lead -/

/-- A call that defines messages in an object. -/
def Setting.isDefinition (s : Setting) : Node → Bool
  | .mk .call _ (callee :: _) =>
    match s.calleeRole? callee with
    | some .many => true
    | some .one => true
    | _ => false
  | _ => false

/-- What a site declares comes before what is found inside of it. -/
def Setting.Leads (s : Setting) (site : Node) : Prop :=
  s.Precede (s.declarations site) (s.found (s.stripped site).children)

section Leading

variable {s : Setting} {start stop : Nat} {node : Node} {nodes : List Node}

theorem Setting.Orderly.leads (orderly : s.Orderly nodes) :
    ∀ site ∈ s.reachedIn nodes, s.Leads site := by
  induction orderly with
  | nil => simp
  | cons own inner behind inside rest ih ih' =>
      intro site here
      rw [reachedIn_cons, List.mem_append, List.mem_append] at here
      rcases here with (here | here) | here
      · obtain ⟨-, rfl⟩ := mem_ownSite.mp here
        exact inner
      · exact ih site here
      · exact ih' site here

theorem isSite_of_isDefinition (definition : s.isDefinition node = true) :
    isSite node = true := by
  rw [Setting.isDefinition.eq_def] at definition
  split at definition
  · rfl
  · exact absurd definition (by simp)

theorem place_of_not_isDefinition (other : s.isDefinition node = false) :
    ∀ d ∈ s.declarations node, d.place = node.span.start := by
  rw [Setting.declarations.eq_def]
  split
  · split
    · dsimp only
      split <;> simp
    · simp
  · rename_i callee arguments
    split
    · simp
    · rename_i noShorthand
      have nothing : s.objects callee arguments = [] := by
        rw [Setting.objects.eq_def]
        split
        · simp only [Setting.isDefinition] at other
          split <;> simp_all
        · rfl
      simp [nothing]
  · simp

/-- Only a definition can be overtaken by what is inside of it. -/
theorem Laid.leads (laid : Laid node.span.start node.children node.span.stop)
    (other : s.isDefinition node = false) : s.Leads node := by
  intro d own d' inside
  refine s.source.position_mono ?_
  rw [place_of_not_isDefinition other d own]
  exact ((laid.stripped s).found_within s d' inside).1

theorem Laid.orderly (laid : Laid start nodes stop)
    (lead : ∀ site ∈ s.reachedIn nodes, s.isDefinition site = true → s.Leads site) :
    s.Orderly nodes := by
  induction nodes using stripped_induction s generalizing start stop with
  | nil => exact .nil
  | cons node nodes ih ih' =>
      obtain ⟨first, parts, behind⟩ := cons_iff.mp laid
      rw [reachedIn_cons] at lead
      have ascends := parts.ascends_declarations s
      have inside := (parts.stripped s).found_within s
      refine .cons ?_ ?_ ?_ (ih (parts.stripped s) ?_) (ih' behind ?_)
      · refine (List.pairwise_map.mp ascends.ordered).imp fun le => ?_
        exact s.source.position_mono le
      · cases definition : s.isDefinition node with
        | false => exact parts.leads definition
        | true =>
            refine lead node ?_ definition
            simp [isSite_of_isDefinition definition]
      · intro d here d' later
        refine s.source.position_mono (Nat.le_trans ?_ (behind.found_within s d' later).1)
        rcases List.mem_append.mp here with own | within
        · exact (ascends.within _ (List.mem_map_of_mem own)).2
        · exact (inside d within).2
      · exact fun site here => lead site (by simp [here])
      · exact fun site here => lead site (by simp [here])

end Leading

/-- When the messages of a catalog are in the order of the text, if their places are
recorded and no key is declared twice: exactly if the unit is orderly, and if the unit is
laid out like its text, then exactly if no call that defines messages is overtaken by a
message that is declared inside of it. -/
theorem document_order_iff (s : Setting) (unit : List Node)
    (distinct : ((sitesOf unit).map siteId).Nodup)
    (success : (s.walk (.start s.options) unit).2.failure = none)
    (recorded : s.options.recordLocations = true)
    (once : ((s.found unit).filterMap s.declaredKey?).Nodup) :
    (InDocumentOrder (s.walk (.start s.options) unit).2.progress.catalog.entries ↔
        s.Orderly unit) ∧
      ∀ start stop, Laid start unit stop →
        (InDocumentOrder (s.walk (.start s.options) unit).2.progress.catalog.entries ↔
          ∀ site ∈ s.reachedIn unit, s.isDefinition site = true → s.Leads site) := by
  have ordered := inDocumentOrder_iff_orderly s unit distinct success recorded once
  refine ⟨ordered, fun start stop laid => ordered.trans ⟨fun orderly site here _ => ?_, ?_⟩⟩
  · exact orderly.leads site here
  · exact laid.orderly

/-- Messages are extracted from the unit with their places. -/
def locatedSetting : Setting :=
  { describedSetting with options := { Options.standard with recordLocations := true } }

theorem document_order_iff_nested :
    ((sitesOf describedUnit).map siteId).Nodup ∧
      (locatedSetting.walk (.start locatedSetting.options) describedUnit).2.failure = none ∧
      locatedSetting.options.recordLocations = true ∧
      ((locatedSetting.found describedUnit).filterMap locatedSetting.declaredKey?).Nodup ∧
      Laid 0 describedUnit 57 ∧
      InDocumentOrder (locatedSetting.walk (.start locatedSetting.options)
        describedUnit).2.progress.catalog.entries := by
  have distinct : ((sitesOf describedUnit).map siteId).Nodup := by decide
  have keys : (locatedSetting.found describedUnit).filterMap locatedSetting.declaredKey? =
      ["x", "y"] := rfl
  have once : ((locatedSetting.found describedUnit).filterMap
      locatedSetting.declaredKey?).Nodup := by
    rw [keys]
    decide
  have laid : Laid 0 describedUnit 57 := by
    simp only [describedUnit, shorthandCall, Laid.cons_iff, laid_nil_iff, Node.span_mk,
      Node.children_mk]
    decide
  have noDefinitions : (locatedSetting.reachedIn describedUnit).all
      (!locatedSetting.isDefinition ·) = true := rfl
  refine ⟨distinct, rfl, rfl, once, laid, ?_⟩
  refine ((document_order_iff locatedSetting describedUnit distinct rfl rfl once).2 0 57
    laid).mpr fun site here definition => ?_
  exact absurd definition (by simpa using List.all_eq_true.mp noDefinitions site here)

/-- The unit `do { t("first"); } while (t("second"));`, which is visited from its
condition. -/
def doWhileUnit : List Node :=
  [.mk .group ⟨0, 39⟩ [shorthandCall 26 "second",
    .mk .scope ⟨3, 18⟩ [.mk .group ⟨5, 16⟩ [shorthandCall 5 "first"]]]]

/-- How messages are extracted from the unit with their places. -/
def doWhileSetting : Setting :=
  Unit.setting { Options.standard with recordLocations := true } "src/app.tsx"
    (.ofString "do \x7b t(\"first\"); \x7d while (t(\"second\"));") doWhileUnit

/-- The message in the body of a loop comes behind the one in its condition, although it
stands in front of it. -/
theorem document_order_overtaken :
    ((sitesOf doWhileUnit).map siteId).Nodup ∧
      (doWhileSetting.walk (.start doWhileSetting.options) doWhileUnit).2.failure = none ∧
      doWhileSetting.options.recordLocations = true ∧
      ((doWhileSetting.found doWhileUnit).filterMap doWhileSetting.declaredKey?).Nodup ∧
      ¬ InDocumentOrder (doWhileSetting.walk (.start doWhileSetting.options)
        doWhileUnit).2.progress.catalog.entries := by
  have keys : (doWhileSetting.found doWhileUnit).filterMap doWhileSetting.declaredKey? =
      ["second", "first"] := rfl
  have entries : (doWhileSetting.walk (.start doWhileSetting.options)
      doWhileUnit).2.progress.catalog.entries =
        [⟨"second", none, "second", none, some ⟨"src/app.tsx", 1, 27⟩⟩,
          ⟨"first", none, "first", none, some ⟨"src/app.tsx", 1, 6⟩⟩] := rfl
  refine ⟨by decide, rfl, rfl, by rw [keys]; decide, fun ordered => ?_⟩
  rw [entries] at ordered
  simp [InDocumentOrder, Location.position, Position.Le] at ordered

end Extraction

end MessageCatalog
