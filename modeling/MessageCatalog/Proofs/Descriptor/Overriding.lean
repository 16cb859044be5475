import Mathlib.Data.List.Induction
import Mathlib.Data.List.Nodup
import MessageCatalog.Proofs.Descriptor.Resolution
import MessageCatalog.Proofs.Extraction.Drafts

/-!
# Repeated keys

Several attributes of an element can set the same field. The last of them decides on its
value, and the first of them on its rank: the fields are resolved in the order in which they
are set for the first time, and the first one that gets no text ends it.

An attribute is overridden if a later one sets a field of it again. What the attributes
resolve to does not depend on the overridden ones. Only if several fields get no text, then
the rank that an overridden attribute gives to its field can decide which one is reported.
-/

namespace MessageCatalog

namespace Descriptor

open Extraction Syntax

/-! ### What attributes set -/

/-- The key that sets a field, if there is one. -/
def Convention.key? : Convention → Field → Option String
  | .shorthand, .id => some "message"
  | .shorthand, .defaultMessage => some "message"
  | .shorthand, .comment => some "comment"
  | .shorthand, .description => none
  | .standard, .comment => none
  | .standard, field => some field.name

/-- The fields that a node sets as an attribute. What is spread sets none. -/
def fieldsSet (convention : Convention) (node : Node) : List Field :=
  match node.form with
  | .attribute name => convention.fields name
  | _ => []

/-- The holder of the value of an attribute. -/
def heldBy (node : Node) : Holder :=
  .attribute node.children.head? node.span.start

/-- The last attribute that sets a field. -/
def lastSetter? (convention : Convention) (field : Field) (attributes : List Node) :
    Option Node :=
  (attributes.filter (field ∈ fieldsSet convention ·)).getLast?

/-- The attributes without the overridden ones, of which a later one sets a field again. -/
def withoutOverridden (convention : Convention) : List Node → List Node
  | [] => []
  | node :: nodes =>
    if ∃ field ∈ fieldsSet convention node, ∃ later ∈ nodes, field ∈ fieldsSet convention later
    then withoutOverridden convention nodes
    else node :: withoutOverridden convention nodes

/-- The draft has each field that the attributes set, once and in the order in which they are
set for the first time, with the value of the last attribute that sets it. -/
structure Draft.Settles (convention : Convention) (attributes : List Node) (draft : Draft) :
    Prop where
  distinct : (draft.map Prod.fst).Nodup
  order : draft.map Prod.fst = (attributes.flatMap (fieldsSet convention)).eraseDups
  last : ∀ field, draft.lookup field = (lastSetter? convention field attributes).map heldBy

section Setters

variable {convention : Convention} {attributes : List Node} {node node' : Node} {field : Field}
  {key : String}

theorem Convention.mem_fields_iff :
    field ∈ convention.fields key ↔ convention.key? field = some key := by
  constructor
  · intro here
    rw [fields.eq_def] at here
    split at here
    case h_1 =>
      -- The one key that stands for two fields.
      rcases List.mem_pair.mp here with rfl | rfl
      · rfl
      · rfl
    all_goals simp_all [key?, Field.name]
  · intro known
    cases convention <;> cases field <;> cases known <;> simp [fields, Field.name]

theorem mem_fieldsSet_iff : field ∈ fieldsSet convention node ↔
    ∃ name, node.form = .attribute name ∧ convention.key? field = some name := by
  rw [fieldsSet]
  split
  · rename_i name form
    simp [form, Convention.mem_fields_iff]
  · rename_i other
    simp only [List.not_mem_nil, false_iff]
    rintro ⟨name, form, -⟩
    exact other name form

/-- Attributes that have a field in common have the same key, and so set the same fields. -/
theorem fieldsSet_eq_of_common (here : field ∈ fieldsSet convention node)
    (here' : field ∈ fieldsSet convention node') :
    fieldsSet convention node' = fieldsSet convention node := by
  obtain ⟨name, form, known⟩ := mem_fieldsSet_iff.mp here
  obtain ⟨name', form', known'⟩ := mem_fieldsSet_iff.mp here'
  obtain rfl : name = name' := Option.some.inj (known.symm.trans known')
  rw [fieldsSet, fieldsSet, form, form']

theorem lastSetter?_concat : lastSetter? convention field (attributes ++ [node]) =
    if field ∈ fieldsSet convention node then some node
    else lastSetter? convention field attributes := by
  rw [lastSetter?, List.filter_append]
  split
  · rename_i sets
    rw [List.filter_cons_of_pos (by simpa using sets), List.filter_nil, List.getLast?_concat]
  · rename_i other
    rw [List.filter_cons_of_neg (by simpa using other), List.filter_nil, List.append_nil,
      lastSetter?]

theorem lastSetter?_cons : lastSetter? convention field (node :: attributes) =
    (lastSetter? convention field attributes).or
      (if field ∈ fieldsSet convention node then some node else none) := by
  rw [lastSetter?, List.filter_cons, lastSetter?]
  by_cases sets : field ∈ fieldsSet convention node
  · simp [sets, List.getLast?_cons, Option.or_some]
  · simp [sets]

theorem isSome_lastSetter? (here : node ∈ attributes) (sets : field ∈ fieldsSet convention node) :
    (lastSetter? convention field attributes).isSome = true := by
  rw [lastSetter?, List.getLast?_isSome]
  exact List.ne_nil_of_mem (List.mem_filter.mpr ⟨here, decide_eq_true sets⟩)

/-- An overridden attribute is not the last one for any field. -/
theorem lastSetter?_withoutOverridden (convention : Convention) (field : Field)
    (attributes : List Node) :
    lastSetter? convention field (withoutOverridden convention attributes) =
      lastSetter? convention field attributes := by
  induction attributes with
  | nil => rfl
  | cons node nodes ih =>
      rw [withoutOverridden, lastSetter?_cons]
      split
      · rename_i overridden
        obtain ⟨common, own, later, here, again⟩ := overridden
        rw [ih]
        split
        · rename_i sets
          rw [← fieldsSet_eq_of_common own again] at sets
          rw [Option.or_of_isSome (isSome_lastSetter? here sets)]
        · rw [Option.or_none]
      · rw [lastSetter?_cons, ih]

end Setters

/-! ### The draft of attributes -/

section Settling

variable {convention : Convention} {draft : Draft} {attributes : List Node}

theorem eraseDups_concat (fields : List Field) (field : Field) : (fields ++ [field]).eraseDups =
    if field ∈ fields then fields.eraseDups else fields.eraseDups ++ [field] := by
  rw [List.eraseDups_append]
  split
  · rename_i here
    simp [List.removeAll, here]
  · rename_i absent
    simp [List.removeAll, absent, List.eraseDups_cons]

theorem nodup_eraseDups (fields : List Field) : fields.eraseDups.Nodup := by
  induction fields using List.reverseRecOn with
  | nil => exact List.nodup_nil
  | append_singleton fields field ih =>
      rw [eraseDups_concat]
      split
      · exact ih
      · rename_i absent
        rw [List.nodup_append_comm, List.singleton_append, List.nodup_cons, List.mem_eraseDups]
        exact ⟨absent, ih⟩

theorem map_fst_insert (draft : Draft) (field : Field) (holder : Holder) :
    (draft.insert field holder).map Prod.fst =
      if field ∈ draft.map Prod.fst then draft.map Prod.fst
      else draft.map Prod.fst ++ [field] := by
  induction draft with
  | nil => rfl
  | cons entry draft ih =>
      obtain ⟨first, value⟩ := entry
      rw [Draft.insert]
      by_cases same : first = field
      · simp [same]
      · rw [if_neg same, List.map_cons, ih, List.map_cons]
        simp only [List.mem_cons, Ne.symm same, false_or, apply_ite (List.cons first),
          List.cons_append]

theorem lookup_cons (entry : Field × Holder) (draft : Draft) (field : Field) :
    List.lookup field (entry :: draft) =
      if field = entry.1 then some entry.2 else draft.lookup field := by
  rw [List.lookup_cons]
  split
  · rename_i same
    rw [if_pos (eq_of_beq same)]
  · rename_i different
    rw [if_neg (ne_of_beq_false different)]

theorem lookup_insert (draft : Draft) (field other : Field) (holder : Holder) :
    (draft.insert field holder).lookup other =
      if other = field then some holder else draft.lookup other := by
  induction draft with
  | nil => rw [Draft.insert, lookup_cons]
  | cons entry draft ih =>
      obtain ⟨first, value⟩ := entry
      rw [Draft.insert, lookup_cons]
      by_cases same : first = field
      · subst same
        rw [if_pos rfl, lookup_cons]
        by_cases here : other = first <;> simp [here]
      · rw [if_neg same, lookup_cons, ih]
        by_cases here : other = first
        · simp [here, same]
        · simp [here]

/-- Setting several fields at once continues the order in which fields are set. -/
theorem map_fst_foldl_insert {before : List Field} (fields : List Field) (holder : Holder)
    (listed : draft.map Prod.fst = before.eraseDups) :
    (fields.foldl (fun draft field => draft.insert field holder) draft).map Prod.fst =
      (before ++ fields).eraseDups := by
  induction fields generalizing draft before with
  | nil => rwa [List.append_nil]
  | cons field fields ih =>
      have next : (draft.insert field holder).map Prod.fst = (before ++ [field]).eraseDups := by
        rw [map_fst_insert, listed, eraseDups_concat]
        simp only [List.mem_eraseDups]
      rw [List.foldl_cons, ih next, List.append_assoc, List.singleton_append]

theorem lookup_foldl_insert (fields : List Field) (holder : Holder) (draft : Draft)
    (other : Field) :
    (fields.foldl (fun draft field => draft.insert field holder) draft).lookup other =
      if other ∈ fields then some holder else draft.lookup other := by
  induction fields generalizing draft with
  | nil => simp
  | cons field fields ih =>
      rw [List.foldl_cons, ih, lookup_insert]
      by_cases later : other ∈ fields
      · simp [later]
      · simp [later]

theorem addAttribute_eq_foldl (convention : Convention) (draft : Draft) (node : Node) :
    addAttribute convention draft node = (fieldsSet convention node).foldl
      (fun draft field => draft.insert field (heldBy node)) draft := by
  obtain ⟨form, span, parts⟩ := node
  cases form <;> rfl

/-- One more attribute keeps the ranks of the fields, and puts its value in the place of the
values that its fields had. -/
theorem Draft.Settles.add (settles : draft.Settles convention attributes) (node : Node) :
    (addAttribute convention draft node).Settles convention (attributes ++ [node]) := by
  have order : (addAttribute convention draft node).map Prod.fst =
      ((attributes ++ [node]).flatMap (fieldsSet convention)).eraseDups := by
    rw [addAttribute_eq_foldl, map_fst_foldl_insert _ _ settles.order, List.flatMap_append,
      List.flatMap_singleton]
  refine ⟨?_, order, ?_⟩
  · rw [order]
    exact nodup_eraseDups _
  · intro field
    rw [addAttribute_eq_foldl, lookup_foldl_insert, settles.last, lastSetter?_concat]
    split
    · rfl
    · rfl

theorem settles_ofAttributes (convention : Convention) (attributes : List Node) :
    (Draft.ofAttributes convention attributes).Settles convention attributes := by
  induction attributes using List.reverseRecOn with
  | nil => exact ⟨List.nodup_nil, rfl, fun _ => rfl⟩
  | append_singleton attributes node ih =>
      rw [ofAttributes_eq_foldl, List.foldl_append, ← ofAttributes_eq_foldl]
      exact ih.add node

end Settling

/-! ### The content of a draft -/

/-- The text that a field gets from a draft. One that is not set keeps what it has. -/
def Draft.textOnto (evaluator : Evaluator) (content : Content) (draft : Draft) (field : Field) :
    Except Located (Option String) :=
  match draft.lookup field with
  | some holder => fieldText evaluator field holder
  | none => .ok (content.get field)

section Contents

variable {evaluator : Evaluator} {draft draft' : Draft} {content content' : Content}
  {field : Field} {holder : Holder}

theorem Content.eq_of_get (same : ∀ field, content.get field = content'.get field) :
    content = content' := by
  obtain ⟨id, description, message, comment⟩ := content
  obtain ⟨id', description', message', comment'⟩ := content'
  obtain rfl : id = id' := same .id
  obtain rfl : description = description' := same .description
  obtain rfl : message = message' := same .defaultMessage
  obtain rfl : comment = comment' := same .comment
  rfl

theorem lookup_eq_none_of_absent (absent : field ∉ draft.map Prod.fst) :
    draft.lookup field = none := by
  rw [List.lookup_eq_none_iff]
  intro entry here
  rw [bne_iff_ne]
  rintro rfl
  exact absent (List.mem_map_of_mem here)

theorem textOnto_cons (evaluator : Evaluator) (content : Content) (first : Field)
    (holder : Holder) (draft : Draft) (field : Field) :
    Draft.textOnto evaluator content ((first, holder) :: draft) field =
      if field = first then fieldText evaluator first holder
      else draft.textOnto evaluator content field := by
  rw [Draft.textOnto, lookup_cons]
  by_cases same : field = first
  · subst same
    rw [if_pos rfl, if_pos rfl]
  · rw [if_neg same, if_neg same, Draft.textOnto]

/-- What a field got before matters only as long as the draft does not set it. -/
theorem textOnto_set (absent : field ∉ draft.map Prod.fst) (text : Option String)
    (other : Field) : draft.textOnto evaluator (content.set field text) other =
      if other = field then .ok text else draft.textOnto evaluator content other := by
  rw [Draft.textOnto]
  by_cases same : other = field
  · subst same
    rw [lookup_eq_none_of_absent absent, if_pos rfl, Content.get_set, if_pos rfl]
  · rw [if_neg same, Draft.textOnto, Content.get_set, if_neg same]

/-- A draft that has no field twice resolves to the content that has the texts of the fields,
whatever their order. -/
theorem resolveOnto_eq_ok_iff (distinct : (draft.map Prod.fst).Nodup) :
    Draft.resolveOnto evaluator content draft = .ok content' ↔
      ∀ field, draft.textOnto evaluator content field = .ok (content'.get field) := by
  induction draft generalizing content with
  | nil =>
      simp only [Draft.resolveOnto, Draft.textOnto, List.lookup_nil, Except.ok.injEq]
      constructor
      · rintro rfl field
        rfl
      · exact Content.eq_of_get
  | cons entry draft ih =>
      obtain ⟨first, holder⟩ := entry
      rw [List.map_cons, List.nodup_cons] at distinct
      rw [resolveOnto_cons_eq_ok_iff]
      constructor
      · rintro ⟨text, known, rest⟩ field
        have later := (ih distinct.2).mp rest field
        rw [textOnto_set distinct.1] at later
        rw [textOnto_cons]
        split
        · rename_i same
          rw [if_pos same] at later
          rw [known, later]
        · rename_i other
          rwa [if_neg other] at later
      · intro each
        refine ⟨content'.get first, ?_, (ih distinct.2).mpr ?_⟩
        · rw [← each first, textOnto_cons, if_pos rfl]
        · intro field
          rw [textOnto_set distinct.1]
          split
          · rename_i same
            rw [same]
          · rename_i other
            rw [← each field, textOnto_cons, if_neg other]

/-- Drafts that have no field twice, and the same holders for their fields, resolve to the
same contents. -/
theorem resolve_congr (distinct : (draft.map Prod.fst).Nodup)
    (distinct' : (draft'.map Prod.fst).Nodup)
    (same : ∀ field, draft'.lookup field = draft.lookup field) :
    draft.resolve evaluator = .ok content ↔ draft'.resolve evaluator = .ok content := by
  rw [Draft.resolve, Draft.resolve, resolveOnto_eq_ok_iff distinct,
    resolveOnto_eq_ok_iff distinct']
  simp only [Draft.textOnto, same]

end Contents

/-! ### Failures -/

/-- The field that a problem with a value is about. -/
def reportedField? : Extraction.Problem → Option Field
  | .dynamicValue property =>
    [Field.id, .description, .defaultMessage, .comment].find? (·.name = property)
  | .malformedMessage _ => some .defaultMessage
  | .malformedAttribute _ => some .defaultMessage
  | _ => none

/-- The field is the first one of the draft that gets no text, and it is reported as such at
the place of its holder. -/
structure Draft.FailsAt (evaluator : Evaluator) (draft : Draft) (field : Field)
    (holder : Holder) (located : Located) : Prop where
  first : ∃ before after, draft = before ++ (field, holder) :: after ∧
    ∀ entry ∈ before, ∃ text, fieldText evaluator entry.1 entry.2 = .ok text
  fails : fieldText evaluator field holder = .error located
  field : reportedField? located.problem = some field
  place : located.place = holder.place

section Failures

variable {evaluator : Evaluator} {draft : Draft} {content : Content} {field first : Field}
  {holder value : Holder} {located located' : Located} {text : String} {found : Option String}

theorem text_eq_error (failed : holder.text evaluator field = .error located) :
    located = ⟨.dynamicValue field.name, holder.place⟩ := by
  rw [Holder.text] at failed
  split at failed
  · exact (Except.error.inj failed).symm
  · exact absurd failed nofun

theorem canonicalText_eq_error (failed : canonicalText holder text = .error located) :
    (∃ d, located.problem = .malformedMessage d ∨ located.problem = .malformedAttribute d) ∧
      located.place = holder.place := by
  cases outcome : Message.canonicalize text with
  | ok canonical => simp [canonicalText, outcome] at failed
  | error d =>
      simp only [canonicalText, outcome] at failed
      split at failed
      · obtain rfl := Except.error.inj failed
        exact ⟨⟨d, .inr rfl⟩, rfl⟩
      · obtain rfl := Except.error.inj failed
        exact ⟨⟨d, .inl rfl⟩, rfl⟩

/-- A field gets no text if its value is not known, or if its message cannot be read. -/
theorem fieldText_eq_error (failed : fieldText evaluator field holder = .error located) :
    holder.text evaluator field = .error located ∨
      field = .defaultMessage ∧ ∃ raw, canonicalText holder raw = .error located := by
  rw [fieldText_eq] at failed
  cases written : holder.text evaluator field with
  | error located' =>
      rw [written] at failed
      exact .inl (congrArg _ (Except.error.inj failed))
  | ok found =>
      cases found with
      | none => simp [written, Except.bind] at failed
      | some raw =>
          simp only [written, Except.bind] at failed
          split at failed
          · rename_i message
            cases canonical : canonicalText holder raw with
            | ok text => simp [canonical, Except.map] at failed
            | error located' =>
                rw [canonical] at failed
                exact .inr ⟨message, raw, canonical.trans (congrArg _ (Except.error.inj failed))⟩
          · exact absurd failed nofun

/-- The problem with a field tells which field it is. -/
theorem reportedField?_of_fieldText (failed : fieldText evaluator field holder = .error located) :
    reportedField? located.problem = some field ∧ located.place = holder.place := by
  rcases fieldText_eq_error failed with unknown | ⟨rfl, raw, malformed⟩
  · obtain rfl := text_eq_error unknown
    refine ⟨?_, rfl⟩
    cases field <;> rfl
  · obtain ⟨⟨d, plain | escaped⟩, place⟩ := canonicalText_eq_error malformed
    · exact ⟨by rw [plain, reportedField?], place⟩
    · exact ⟨by rw [escaped, reportedField?], place⟩

/-- An entry that gets no text is where the draft fails. -/
theorem exists_failsAt_cons_iff (failed : fieldText evaluator first value = .error located') :
    (∃ field holder, Draft.FailsAt evaluator ((first, value) :: draft) field holder located) ↔
      located' = located := by
  constructor
  · rintro ⟨field, holder, ⟨before, after, whole, fine⟩, failed', -⟩
    rcases List.cons_eq_append_iff.mp whole with ⟨rfl, here⟩ | ⟨rest, rfl, -⟩
    · obtain ⟨rfl, rfl⟩ := Prod.mk.inj (List.cons.inj here).1
      exact Except.error.inj (failed.symm.trans failed')
    · obtain ⟨text, known⟩ := (List.forall_mem_cons.mp fine).1
      exact absurd (failed.symm.trans known) nofun
  · rintro rfl
    obtain ⟨reported, place⟩ := reportedField?_of_fieldText failed
    exact ⟨first, value, ⟨[], draft, rfl, by simp⟩, failed, reported, place⟩

/-- Behind a field that gets a text, a draft fails where the rest of it does. -/
theorem failsAt_cons_iff (known : fieldText evaluator first value = .ok found) :
    Draft.FailsAt evaluator ((first, value) :: draft) field holder located ↔
      draft.FailsAt evaluator field holder located := by
  constructor
  · rintro ⟨⟨before, after, whole, fine⟩, failed, reported, place⟩
    rcases List.cons_eq_append_iff.mp whole with ⟨rfl, here⟩ | ⟨rest, rfl, behind⟩
    · obtain ⟨rfl, rfl⟩ := Prod.mk.inj (List.cons.inj here).1
      exact absurd (known.symm.trans failed) nofun
    · exact ⟨⟨rest, after, behind, (List.forall_mem_cons.mp fine).2⟩, failed, reported, place⟩
  · rintro ⟨⟨before, after, rfl, fine⟩, failed, reported, place⟩
    refine ⟨⟨(first, value) :: before, after, rfl, ?_⟩, failed, reported, place⟩
    exact List.forall_mem_cons.mpr ⟨⟨found, known⟩, fine⟩

/-- A draft fails at its first field that gets no text. -/
theorem resolveOnto_eq_error_iff :
    Draft.resolveOnto evaluator content draft = .error located ↔
      ∃ field holder, draft.FailsAt evaluator field holder located := by
  induction draft generalizing content with
  | nil =>
      refine iff_of_false nofun ?_
      rintro ⟨field, holder, ⟨before, after, whole, -⟩, -⟩
      simp at whole
  | cons entry draft ih =>
      obtain ⟨first, value⟩ := entry
      rw [Draft.resolveOnto]
      cases said : fieldText evaluator first value with
      | error located' =>
          rw [exists_failsAt_cons_iff said]
          exact ⟨Except.error.inj, congrArg _⟩
      | ok found =>
          simp only [failsAt_cons_iff said]
          exact ih

end Failures

/-! ### Elements -/

/-- The last attribute that sets a field decides on its value. The draft of the attributes has
each field once, in the order of first setting. They resolve to a content exactly if they do so
without the overridden ones; and if they fail, then the first field in that order which gets no
text is the one that is reported. -/
theorem last_attribute_decides (convention : Convention) (attributes : List Node) :
    (Draft.ofAttributes convention attributes).Settles convention attributes ∧
      ∀ evaluator : Evaluator,
        (∀ content, (Draft.ofAttributes convention attributes).resolve evaluator = .ok content ↔
          (Draft.ofAttributes convention (withoutOverridden convention attributes)).resolve
            evaluator = .ok content) ∧
        ∀ located, (Draft.ofAttributes convention attributes).resolve evaluator = .error located ↔
          ∃ field holder, (Draft.ofAttributes convention attributes).FailsAt evaluator field holder
            located := by
  have settles := settles_ofAttributes convention attributes
  have settles' := settles_ofAttributes convention (withoutOverridden convention attributes)
  refine ⟨settles, ?_⟩
  intro evaluator
  constructor
  · intro content
    apply resolve_congr settles.distinct settles'.distinct
    intro field
    rw [settles'.last, settles.last, lastSetter?_withoutOverridden]
  · intro located
    exact resolveOnto_eq_error_iff

-- Of `id={} defaultMessage={} id={}`, the name is reported, where it stands last. Without the
-- overridden attribute, the message is the first field.
example :
    let unknown (name : String) (place : Nat) : Node :=
      .mk (.attribute name) ⟨place, place + 1⟩ [.mk .container ⟨place, place + 1⟩ []]
    let attributes := [unknown "id" 0, unknown "defaultMessage" 6, unknown "id" 24]
    (Draft.ofAttributes .standard attributes).resolve (fun _ => none) =
        .error ⟨.dynamicValue "id", 24⟩ ∧
      (Draft.ofAttributes .standard (withoutOverridden .standard attributes)).resolve
        (fun _ => none) = .error ⟨.dynamicValue "defaultMessage", 6⟩ := by
  exact ⟨rfl, rfl⟩

end Descriptor

end MessageCatalog
