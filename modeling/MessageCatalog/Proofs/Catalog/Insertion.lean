import MessageCatalog.Catalog.Basic

/-!
# What an insertion does

Content that lacks a required field is refused before the catalog is looked at. Complete
content makes an entry, and the entry is appended if its key is new, put in the place of
the entry under its key if the text is the same, and refused otherwise.

`Adds` says what this does to the keys and to look-ups. What follows about catalogs is
derived from it, without a look at the entries and the index that stand behind it.
-/

namespace MessageCatalog

namespace Catalog

open Descriptor Extraction

/-! ### From content to entry -/

/-- The key that content is kept under, if it has an identifier. -/
def keyOf (content : Content) : Option String :=
  content.id.map (storageKey · content.comment)

/-- The content has every field that is required. -/
structure Complete (enforceDescriptions : Bool) (content : Content) : Prop where
  id : content.id ≠ none
  defaultMessage : content.defaultMessage ≠ none
  description : enforceDescriptions = true → content.description ≠ none

/-- The entry is kept under the key of the content and says the same. -/
structure Declares (content : Content) (location : Option Location) (e : Entry) : Prop where
  key : keyOf content = some e.id
  description : content.description = e.description
  defaultMessage : content.defaultMessage = some e.defaultMessage
  comment : content.comment = e.comment
  location : location = e.location

/-- Two entries have the same text, which is what may not differ under one key. -/
def SameText (a b : Entry) : Prop :=
  a.description = b.description ∧ a.defaultMessage = b.defaultMessage

theorem agrees_iff {a b : Entry} : agrees a b = true ↔ SameText a b := by
  simp [agrees, SameText]

section Entry

variable {enforce : Bool} {content : Content} {location : Option Location} {e : Entry}

theorem entry_eq_ok_iff :
    entry enforce content location = .ok e ↔
      Complete enforce content ∧ Declares content location e := by
  obtain ⟨id, description, defaultMessage, comment⟩ := content
  constructor
  · intro made
    cases id with
    | none => exact absurd made (by simp [entry])
    | some id =>
        cases defaultMessage with
        | none => exact absurd made (by simp [entry])
        | some message =>
            simp only [entry] at made
            split at made
            · exact absurd made (by simp)
            · rename_i described
              cases made
              refine ⟨⟨by simp, by simp, fun enforced missing => described ?_⟩,
                ⟨rfl, rfl, rfl, rfl, rfl⟩⟩
              simp_all
  · rintro ⟨complete, key, rfl, rfl, rfl, rfl⟩
    cases id with
    | none => exact absurd rfl complete.id
    | some id =>
        have described : (enforce && e.description.isNone) = false := by
          cases enforce with
          | false => rfl
          | true => simpa [Option.isSome_iff_ne_none] using complete.description rfl
        simp only [entry, described, Bool.false_eq_true, if_false, Except.ok.injEq]
        cases e
        exact congrArg (Entry.mk · _ _ _ _) (Option.some.inj key)

theorem exists_entry (complete : Complete enforce content) (location : Option Location) :
    ∃ e, entry enforce content location = .ok e := by
  obtain ⟨id, hasId⟩ := Option.ne_none_iff_exists'.mp complete.id
  obtain ⟨message, hasMessage⟩ := Option.ne_none_iff_exists'.mp complete.defaultMessage
  refine ⟨⟨storageKey id content.comment, content.description, message, content.comment,
    location⟩, entry_eq_ok_iff.mpr ⟨complete, ?_, rfl, hasMessage, rfl, rfl⟩⟩
  rw [keyOf, hasId]
  rfl

end Entry

/-! ### Look-ups -/

section Lookup

variable {catalog : Catalog} {e : Entry} {key : String} {position : Nat}

theorem entries_of_lookup (found : catalog.index.lookup key = some position) :
    ∃ existing, catalog.entries[position]? = some existing ∧ existing.id = key := by
  have here := (catalog.inStep key position).mp found
  rwa [List.getElem?_map, Option.map_eq_some_iff] at here

theorem get?_of_lookup (found : catalog.index.lookup key = some position) :
    catalog.get? key = catalog.entries[position]? := by
  rw [get?, found, Option.bind_some]

/-- What is found under a key is the message with this key. -/
theorem get?_eq_some_iff : catalog.get? key = some e ↔ e ∈ catalog.entries ∧ e.id = key := by
  constructor
  · intro found
    obtain ⟨position, known, here⟩ := Option.bind_eq_some_iff.mp found
    obtain ⟨existing, here', same⟩ := entries_of_lookup known
    obtain rfl := Option.some.inj (here.symm.trans here')
    exact ⟨List.mem_of_getElem? here, same⟩
  · rintro ⟨inside, rfl⟩
    obtain ⟨position, here⟩ := List.mem_iff_getElem?.mp inside
    have known := (catalog.inStep e.id position).mpr (by rw [List.getElem?_map, here]; rfl)
    rw [get?_of_lookup known, here]

theorem get?_eq_none_iff : catalog.get? key = none ↔ key ∉ catalog.entries.map Entry.id := by
  rw [Option.eq_none_iff_forall_ne_some, List.mem_map, not_exists]
  simp only [ne_eq, get?_eq_some_iff]

end Lookup

/-! ### From entry to catalog -/

/-- The catalog has the entry under its key, behind all others if the key is new, and is
as before otherwise. -/
structure Adds (catalog : Catalog) (e : Entry) (catalog' : Catalog) : Prop where
  enforces : catalog'.enforceDescriptions = catalog.enforceDescriptions
  ids : catalog'.entries.map Entry.id =
    if e.id ∈ catalog.entries.map Entry.id then catalog.entries.map Entry.id
    else catalog.entries.map Entry.id ++ [e.id]
  get : ∀ key, catalog'.get? key = if key = e.id then some e else catalog.get? key

section Add

variable {catalog catalog' : Catalog} {e existing : Entry} {key : String} {position : Nat}

theorem adds_append (fresh : catalog.index.lookup e.id = none) :
    Adds catalog e (catalog.append e fresh) := by
  have absent : e.id ∉ catalog.entries.map Entry.id :=
    get?_eq_none_iff.mp (by rw [get?, fresh, Option.bind_none])
  refine ⟨rfl, ?_, fun key => ?_⟩
  · rw [if_neg absent, append, List.map_append]
    rfl
  · rw [get?, append, List.lookup_cons]
    by_cases same : key = e.id
    · simp [same]
    · rw [if_neg same, beq_eq_false_iff_ne.mpr same, get?]
      refine Option.bind_congr fun position found => ?_
      have inside : position < catalog.entries.length := by simpa using catalog.inStep.lt found
      exact List.getElem?_append_left inside

theorem adds_overwrite (found : catalog.index.lookup e.id = some position) :
    Adds catalog e (catalog.overwrite position e found) := by
  obtain ⟨existing, here, same⟩ := entries_of_lookup found
  have present : e.id ∈ catalog.entries.map Entry.id :=
    List.mem_map.mpr ⟨existing, List.mem_of_getElem? here, same⟩
  refine ⟨rfl, ?_, fun key => ?_⟩
  · rw [if_pos present, overwrite, List.map_set, catalog.inStep.set_eq found]
  · rw [get?, overwrite]
    by_cases own : key = e.id
    · subst own
      have inside : position < catalog.entries.length := by simpa using catalog.inStep.lt found
      rw [if_pos rfl, found, Option.bind_some, List.getElem?_set_self inside]
    · rw [if_neg own, get?]
      refine Option.bind_congr fun other found' => ?_
      refine List.getElem?_set_ne fun same' => own ?_
      subst same'
      have key' := (catalog.inStep key position).mp found'
      rw [(catalog.inStep e.id position).mp found] at key'
      exact (Option.some.inj key').symm

/-- The three things that can happen to an entry. -/
theorem add_cases (catalog : Catalog) (e : Entry) :
    (catalog.get? e.id = none ∧ ∃ catalog', catalog.add e = .ok catalog' ∧
        Adds catalog e catalog') ∨
      ∃ existing, catalog.get? e.id = some existing ∧
        ((SameText existing e ∧ ∃ catalog', catalog.add e = .ok catalog' ∧
            Adds catalog e catalog') ∨
          ¬ SameText existing e ∧ catalog.add e = .error (.conflict e.id)) := by
  rw [add]
  split
  · rename_i fresh
    refine .inl ⟨?_, _, rfl, adds_append fresh⟩
    rw [get?, fresh, Option.bind_none]
  · rename_i position found
    obtain ⟨existing, here, -⟩ := entries_of_lookup found
    refine .inr ⟨existing, (get?_of_lookup found).trans here, ?_⟩
    obtain ⟨inside, here⟩ := List.getElem?_eq_some_iff.mp here
    simp only [here]
    split
    · rename_i same
      exact .inl ⟨agrees_iff.mp same, _, rfl, adds_overwrite found⟩
    · rename_i differs
      exact .inr ⟨fun same => differs (agrees_iff.mpr same), rfl⟩

theorem adds_of_add (added : catalog.add e = .ok catalog') :
    Adds catalog e catalog' ∧ ∀ existing ∈ catalog.get? e.id, SameText existing e := by
  obtain ⟨missing, result, outcome, adds⟩ | ⟨existing, found, ⟨same, result, outcome, adds⟩ |
    ⟨-, outcome⟩⟩ := add_cases catalog e
  · obtain rfl := Except.ok.inj (outcome.symm.trans added)
    exact ⟨adds, fun _ found => absurd found (by simp [missing])⟩
  · obtain rfl := Except.ok.inj (outcome.symm.trans added)
    refine ⟨adds, fun _ found' => ?_⟩
    obtain rfl := Option.some.inj (found.symm.trans found')
    exact same
  · exact absurd (outcome.symm.trans added) (by simp)

theorem exists_add_iff :
    (∃ catalog', catalog.add e = .ok catalog') ↔
      ∀ existing, catalog.get? e.id = some existing → SameText existing e := by
  obtain ⟨missing, result, outcome, -⟩ | ⟨existing, found, ⟨same, result, outcome, -⟩ |
    ⟨differs, outcome⟩⟩ := add_cases catalog e
  · simp [outcome, missing]
  · simp [outcome, found, same]
  · simp [outcome, found, differs]

theorem add_of_conflict (found : catalog.get? e.id = some existing)
    (differs : ¬ SameText existing e) : catalog.add e = .error (.conflict e.id) := by
  obtain ⟨missing, -⟩ | ⟨existing', found', ⟨same, -⟩ | ⟨-, outcome⟩⟩ := add_cases catalog e
  · exact absurd (missing.symm.trans found) (by simp)
  · obtain rfl := Option.some.inj (found'.symm.trans found)
    exact absurd same differs
  · exact outcome

end Add

/-! ### Insertion -/

section Insert

variable {catalog catalog' : Catalog} {content : Content} {location : Option Location}
  {e : Entry} {key : String}

theorem insert_eq_bind (catalog : Catalog) (content : Content) (location : Option Location) :
    catalog.insert content location =
      (entry catalog.enforceDescriptions content location).bind fun e =>
        (catalog.add e).map fun catalog' => (catalog', e) := rfl

theorem insert_eq_ok_iff :
    catalog.insert content location = .ok (catalog', e) ↔
      entry catalog.enforceDescriptions content location = .ok e ∧
        catalog.add e = .ok catalog' := by
  rw [insert_eq_bind]
  cases entry catalog.enforceDescriptions content location with
  | error => simp [Except.bind]
  | ok e' =>
      cases added : catalog.add e' with
      | error problem =>
          simp only [Except.bind, Except.map, added, reduceCtorEq, Except.ok.injEq, false_iff]
          rintro ⟨rfl, other⟩
          exact absurd (added.symm.trans other) (by simp)
      | ok found =>
          simp only [Except.bind, Except.map, added, Except.ok.injEq, Prod.mk.injEq]
          constructor
          · rintro ⟨rfl, rfl⟩
            exact ⟨rfl, added⟩
          · rintro ⟨rfl, other⟩
            exact ⟨Except.ok.inj (added.symm.trans other), rfl⟩

/-- An insertion is accepted if the content is complete and does not contradict what is
kept under its key. -/
theorem exists_insert_iff :
    (∃ result, catalog.insert content location = .ok result) ↔
      Complete catalog.enforceDescriptions content ∧
        ∀ key ∈ keyOf content, ∀ existing ∈ catalog.get? key,
          content.description = existing.description ∧
            content.defaultMessage = some existing.defaultMessage := by
  have parts : (∃ result, catalog.insert content location = .ok result) ↔
      ∃ e, entry catalog.enforceDescriptions content location = .ok e ∧
        ∃ catalog', catalog.add e = .ok catalog' := by
    constructor
    · rintro ⟨⟨catalog', e⟩, accepted⟩
      obtain ⟨made, added⟩ := insert_eq_ok_iff.mp accepted
      exact ⟨e, made, catalog', added⟩
    · rintro ⟨e, made, catalog', added⟩
      exact ⟨(catalog', e), insert_eq_ok_iff.mpr ⟨made, added⟩⟩
  rw [parts]
  constructor
  · rintro ⟨e, made, added⟩
    obtain ⟨complete, declares⟩ := entry_eq_ok_iff.mp made
    refine ⟨complete, fun key known existing found => ?_⟩
    obtain rfl := Option.some.inj (declares.key.symm.trans known)
    obtain ⟨description, message⟩ := exists_add_iff.mp added existing found
    exact ⟨declares.description.trans description.symm, declares.defaultMessage.trans
      (congrArg some message.symm)⟩
  · rintro ⟨complete, agreement⟩
    obtain ⟨e, made⟩ := exists_entry complete location
    have declares := (entry_eq_ok_iff.mp made).2
    refine ⟨e, made, exists_add_iff.mpr fun existing found => ?_⟩
    obtain ⟨description, message⟩ := agreement e.id declares.key existing found
    exact ⟨description.symm.trans declares.description,
      Option.some.inj (message.symm.trans declares.defaultMessage)⟩

end Insert

end Catalog

end MessageCatalog
