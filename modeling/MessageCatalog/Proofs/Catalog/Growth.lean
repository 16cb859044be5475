import MessageCatalog.Proofs.Catalog.History

/-!
# Catalogs only grow

A catalog never takes back what it says: an insertion that is tried appends a new message
or leaves the texts of all messages as they are. Only the comment and the place of a
message can change.

The messages of a catalog are also always coherent, which means that no key is used twice,
that a message with a comment has a key that ends in the comment, and that every message
has a description if descriptions are enforced.
-/

namespace MessageCatalog

namespace Catalog

open Descriptor Extraction

/-- What an entry says: its key and its text. -/
def Entry.saying (e : Entry) : String × Option String × String :=
  (e.id, e.description, e.defaultMessage)

/-- What the catalog says, in its order. -/
def sayings (catalog : Catalog) : List (String × Option String × String) :=
  catalog.entries.map Entry.saying

/-- No two messages have the same key, the key of a message with a comment ends in the
comment, and if descriptions are enforced, then every message has one. -/
structure Coherent (enforce : Bool) (catalog : Catalog) : Prop where
  enforces : catalog.enforceDescriptions = enforce
  distinct : (catalog.entries.map Entry.id).Nodup
  commented : ∀ e ∈ catalog.entries, ∀ comment ∈ e.comment,
    ∃ id, e.id = id ++ commentSeparator ++ comment
  described : enforce = true → ∀ e ∈ catalog.entries, e.description ≠ none

section Growth

variable {enforce : Bool} {catalog catalog' : Catalog} {i : Insertion} {e existing : Entry}
  {content : Content} {location : Option Location} {index : List (String × Nat)}
  {keys : List String}

theorem SameText.saying_eq (same : SameText existing e) (key : existing.id = e.id) :
    existing.saying = e.saying := by
  rw [Entry.saying, Entry.saying, key, same.1, same.2]

/-! ### What is said -/

theorem sayings_prefix_of_add (added : catalog.add e = .ok catalog') :
    catalog.sayings <+: catalog'.sayings := by
  rw [add] at added
  split at added
  · rename_i fresh
    obtain rfl := Except.ok.inj added
    rw [sayings, sayings, append, List.map_append]
    exact List.prefix_append _ _
  · rename_i position found
    obtain ⟨existing, known, key⟩ := entries_of_lookup found
    obtain ⟨inside, here⟩ := List.getElem?_eq_some_iff.mp known
    simp only [here] at added
    split at added
    · rename_i agreement
      obtain rfl := Except.ok.inj added
      have said : (catalog.entries.map Entry.saying)[position]? = some e.saying := by
        rw [List.getElem?_map, known, Option.map_some,
          (agrees_iff.mp agreement).saying_eq key]
      obtain ⟨_, said⟩ := List.getElem?_eq_some_iff.mp said
      have same : (catalog.overwrite position e found).sayings = catalog.sayings := by
        rw [sayings, overwrite, List.map_set, ← said, List.set_getElem_self, sayings]
      exact same ▸ List.prefix_refl _
    · exact absurd added (by simp)

theorem sayings_prefix_attempt (catalog : Catalog) (i : Insertion) :
    catalog.sayings <+: (catalog.attempt i).sayings := by
  cases decision : catalog.accepts i with
  | false => simp [attempt_of_rejected decision]
  | true =>
      obtain ⟨⟨catalog', e⟩, inserted⟩ := accepts_iff_exists.mp decision
      rw [attempt_of_insert inserted]
      exact sayings_prefix_of_add (insert_eq_ok_iff.mp inserted).2

theorem sayings_prefix_attemptAll (catalog : Catalog) (history : List Insertion) :
    catalog.sayings <+: (catalog.attemptAll history).sayings := by
  induction history generalizing catalog with
  | nil => exact List.prefix_refl _
  | cons i history ih => exact (sayings_prefix_attempt catalog i).trans (ih (catalog.attempt i))

/-! ### Coherence -/

/-- An index that is in step can only lead to one place for each key. -/
theorem InStep.nodup (inStep : InStep index keys) : keys.Nodup := by
  refine List.pairwise_iff_getElem.mpr fun i j first second before same => ?_
  have found := (inStep _ i).mpr (List.getElem?_eq_getElem first)
  have found' := (inStep _ j).mpr (List.getElem?_eq_getElem second)
  rw [same, found', Option.some.injEq] at found
  omega

theorem commented_of_entry (made : entry enforce content location = .ok e) :
    ∀ comment ∈ e.comment, ∃ id, e.id = id ++ commentSeparator ++ comment := by
  intro comment present
  have declares := (entry_eq_ok_iff.mp made).2
  have key := declares.key
  rw [keyOf, declares.comment, Option.mem_def.mp present] at key
  obtain ⟨id, -, same⟩ := Option.map_eq_some_iff.mp key
  exact ⟨id, same.symm⟩

theorem described_of_entry (made : entry enforce content location = .ok e)
    (enforced : enforce = true) : e.description ≠ none := by
  obtain ⟨complete, declares⟩ := entry_eq_ok_iff.mp made
  exact declares.description ▸ complete.description enforced

/-- The entries of a catalog after an addition are the added one and those from before. -/
theorem Adds.mem_entries (adds : Adds catalog e catalog') (here : existing ∈ catalog'.entries) :
    existing = e ∨ existing ∈ catalog.entries := by
  have found := get?_eq_some_iff.mpr ⟨here, rfl⟩
  rw [adds.get] at found
  split at found
  · exact .inl (Option.some.inj found).symm
  · exact .inr (get?_eq_some_iff.mp found).1

theorem Coherent.empty (enforce : Bool) : Coherent enforce (Catalog.empty enforce) :=
  ⟨rfl, List.nodup_nil, fun _ here => absurd here List.not_mem_nil,
    fun _ _ here => absurd here List.not_mem_nil⟩

theorem Coherent.attempt (coherent : Coherent enforce catalog) (i : Insertion) :
    Coherent enforce (catalog.attempt i) := by
  cases decision : catalog.accepts i with
  | false => rwa [attempt_of_rejected decision]
  | true =>
      obtain ⟨⟨catalog', e⟩, inserted⟩ := accepts_iff_exists.mp decision
      obtain ⟨made, added⟩ := insert_eq_ok_iff.mp inserted
      have adds := (adds_of_add added).1
      rw [coherent.enforces] at made
      rw [attempt_of_insert inserted]
      refine ⟨adds.enforces.trans coherent.enforces, catalog'.inStep.nodup,
        fun existing here => ?_, fun enforced existing here => ?_⟩
      · rcases adds.mem_entries here with rfl | before
        · exact commented_of_entry made
        · exact coherent.commented existing before
      · rcases adds.mem_entries here with rfl | before
        · exact described_of_entry made enforced
        · exact coherent.described enforced existing before

theorem Coherent.attemptAll (coherent : Coherent enforce catalog) (history : List Insertion) :
    Coherent enforce (catalog.attemptAll history) := by
  induction history generalizing catalog with
  | nil => exact coherent
  | cons i history ih => exact ih (coherent.attempt i)

end Growth

end Catalog

end MessageCatalog
