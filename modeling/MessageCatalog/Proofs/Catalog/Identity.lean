import MessageCatalog.Proofs.Catalog.Consistency
import MessageCatalog.Proofs.Catalog.Repetition

/-!
# Keys and identities

A message is told from others by its identifier and its comment, and kept under a key that
is made of the two. The separator between them is not escaped: an identifier that contains
a separator has the keys of a shorter identifier with a comment. So declarations of two
different messages can meet under one key, where they are in conflict or one takes the
place of the other.

The catalog keeps different messages apart exactly if the declarations distinguish them.
Plain identifiers, which do not contain a separator, are sufficient.
-/

namespace MessageCatalog

namespace Catalog

open Descriptor Extraction

/-! ### Keys -/

/-- The separator does not occur in the identifier, and not across its end either. -/
def IsPlain (id : String) : Prop :=
  ¬ commentSeparator.toList <:+: id.toList ++ ['#']

instance (id : String) : Decidable (IsPlain id) :=
  inferInstanceAs (Decidable (¬ _))

section Keys

variable {id id' : String} {comment comment' : Option String}

/-- What stands behind the identifier in a key. -/
def keySuffix : Option String → List Char
  | some comment => '#' :: '#' :: comment.toList
  | none => []

theorem keySuffix_injective (same : keySuffix comment = keySuffix comment') :
    comment = comment' := by
  cases comment with
  | none =>
      cases comment' with
      | none => rfl
      | some comment' => exact absurd same (List.cons_ne_nil _ _).symm
  | some comment =>
      cases comment' with
      | none => exact absurd same (List.cons_ne_nil _ _)
      | some comment' =>
          injection same with _ same
          injection same with _ same
          exact congrArg some (String.toList_injective same)

theorem toList_storageKey (id : String) (comment : Option String) :
    (storageKey id comment).toList = id.toList ++ keySuffix comment := by
  cases comment with
  | none => exact (List.append_nil _).symm
  | some comment =>
      rw [storageKey, String.toList_append, String.toList_append, List.append_assoc]
      rfl

theorem storageKey_eq_iff : storageKey id comment = storageKey id' comment' ↔
    id.toList ++ keySuffix comment = id'.toList ++ keySuffix comment' := by
  rw [← String.toList_inj, toList_storageKey, toList_storageKey]

/-- A plain identifier has no key in common with another one that is not longer. What it has
more than the other one would be a part of the other's suffix. -/
theorem IsPlain.unique (plain : IsPlain id) (shorter : id'.length ≤ id.length)
    (same : storageKey id comment = storageKey id' comment') : id = id' ∧ comment = comment' := by
  rw [storageKey_eq_iff] at same
  obtain ⟨rest, front⟩ : id'.toList <+: id.toList :=
    List.prefix_of_prefix_length_le ⟨_, same.symm⟩ ⟨_, rfl⟩ shorter
  rw [← front, List.append_assoc, List.append_cancel_left_eq] at same
  have absent : ¬ ['#', '#'] <:+: id'.toList ++ rest ++ ['#'] := front ▸ plain
  cases rest with
  | nil =>
      rw [List.append_nil] at front
      exact ⟨(String.toList_injective front).symm, keySuffix_injective same⟩
  | cons c rest =>
      cases comment' with
      | none => exact absurd same (List.cons_ne_nil _ _)
      | some comment' =>
          obtain ⟨rfl, behind⟩ := List.cons.inj same
          cases rest with
          | nil => exact absurd ⟨id'.toList, [], by simp⟩ absent
          | cons d rest =>
              obtain ⟨rfl, -⟩ := List.cons.inj behind
              exact absurd ⟨id'.toList, rest ++ ['#'], by simp⟩ absent

end Keys

/-! ### Identities -/

/-- What tells a message from others: its identifier and its comment. -/
def identityOf (content : Content) : Option (String × Option String) :=
  content.id.map (·, content.comment)

/-- Complete declarations that have the same key have the same identity. -/
def Distinguishes (enforce : Bool) (history : List Insertion) : Prop :=
  ∀ i ∈ history, ∀ j ∈ history, Complete enforce i.content → Complete enforce j.content →
    keyOf i.content = keyOf j.content → identityOf i.content = identityOf j.content

/-- The insertion is in conflict with what the catalog has, or takes the place of it. -/
def Meets (catalog : Catalog) (i : Insertion) : Prop :=
  Collapses catalog i.content i.location ∨
    ∃ key, catalog.insert i.content i.location = .error (.conflict key)

/-- Whenever a declaration is in conflict with an earlier one or takes its place, an earlier
one that was accepted has the same identity, and accepted declarations of different
identities have entries of their own. -/
structure KeepsApart (enforce : Bool) (history : List Insertion) : Prop where
  meets : ∀ before i after, history = before ++ i :: after → Meets (run enforce before) i →
    ∃ j ∈ accepted enforce before, identityOf j.content = identityOf i.content
  separates : ∀ i ∈ accepted enforce history, ∀ j ∈ accepted enforce history,
    identityOf i.content ≠ identityOf j.content →
      ∃ e ∈ (run enforce history).entries, ∃ e' ∈ (run enforce history).entries,
        keyOf i.content = some e.id ∧ keyOf j.content = some e'.id ∧ e.id ≠ e'.id

section Identities

variable {enforce : Bool} {catalog : Catalog} {content content' : Content}
  {location : Option Location} {history : List Insertion} {i j : Insertion} {key : String}

theorem keyOf_eq_of_identityOf_eq (same : identityOf content = identityOf content') :
    keyOf content = keyOf content' := by
  have made (content : Content) : keyOf content =
      (identityOf content).map fun identity => storageKey identity.1 identity.2 := by
    rw [keyOf, identityOf, Option.map_map]
    rfl
  rw [made, made, same]

/-- Content never conflicts by itself. -/
theorem entry_ne_conflict (enforce : Bool) (content : Content) (location : Option Location)
    (key : String) : entry enforce content location ≠ .error (.conflict key) := by
  rw [entry]
  split
  · simp
  · simp
  · split <;> simp

/-- What collapses adds no key, so its key is there. -/
theorem Collapses.exists_key (collapses : Collapses catalog content location) :
    Complete catalog.enforceDescriptions content ∧
      ∃ key ∈ keyOf content, key ∈ catalog.entries.map Entry.id := by
  obtain ⟨⟨catalog', e⟩, inserted, unchanged⟩ := collapses
  obtain ⟨made, added⟩ := insert_eq_ok_iff.mp inserted
  obtain ⟨complete, declares⟩ := entry_eq_ok_iff.mp made
  refine ⟨complete, e.id, declares.key, ?_⟩
  by_contra absent
  have longer := congrArg List.length ((adds_of_add added).1.ids.symm.trans unchanged)
  rw [if_neg absent, List.length_append, List.length_singleton] at longer
  omega

theorem exists_key_of_conflict
    (refused : catalog.insert content location = .error (.conflict key)) :
    Complete catalog.enforceDescriptions content ∧
      ∃ key ∈ keyOf content, key ∈ catalog.entries.map Entry.id := by
  rw [insert_eq_bind] at refused
  cases made : entry catalog.enforceDescriptions content location with
  | error problem =>
      rw [made] at refused
      obtain rfl := Except.error.inj refused
      exact absurd made (entry_ne_conflict _ _ _ _)
  | ok e =>
      obtain ⟨complete, declares⟩ := entry_eq_ok_iff.mp made
      refine ⟨complete, e.id, declares.key, ?_⟩
      by_contra absent
      obtain ⟨-, catalog', added, -⟩ | ⟨existing, found, -⟩ := add_cases catalog e
      · simp [made, Except.bind, added, Except.map] at refused
      · exact absurd (get?_eq_none_iff.mpr absent) (by simp [found])

theorem meets_of_mem (complete : Complete catalog.enforceDescriptions i.content)
    (known : keyOf i.content = some key) (present : key ∈ catalog.entries.map Entry.id) :
    Meets catalog i := by
  obtain ⟨e, made⟩ := exists_entry complete i.location
  obtain rfl := Option.some.inj (known.symm.trans (entry_eq_ok_iff.mp made).2.key)
  obtain ⟨missing, -⟩ | ⟨existing, -, ⟨-, catalog', added, adds⟩ | ⟨-, refused⟩⟩ :=
    add_cases catalog e
  · exact absurd present (get?_eq_none_iff.mp missing)
  · have ids := adds.ids
    rw [if_pos present] at ids
    exact .inl ⟨(catalog', e), insert_eq_ok_iff.mpr ⟨made, added⟩, ids⟩
  · refine .inr ⟨e.id, ?_⟩
    rw [insert_eq_bind, made]
    simp only [Except.bind, refused, Except.map]

/-- A declaration meets another one exactly if it is complete and its key is in use. -/
theorem meets_iff : Meets catalog i ↔ Complete catalog.enforceDescriptions i.content ∧
    ∃ key ∈ keyOf i.content, key ∈ catalog.entries.map Entry.id := by
  constructor
  · rintro (collapses | ⟨key, refused⟩)
    · exact collapses.exists_key
    · exact exists_key_of_conflict refused
  · rintro ⟨complete, key, known, present⟩
    exact meets_of_mem complete known present

/-- A complete declaration has its key among those that were accepted in the end. -/
theorem exists_accepted (here : i ∈ history) (complete : Complete enforce i.content) :
    ∃ j ∈ accepted enforce history, keyOf j.content = keyOf i.content := by
  induction history using List.reverseRecOn with
  | nil => exact absurd here List.not_mem_nil
  | append_singleton history last ih =>
      rw [accepted_concat]
      rcases List.mem_append.mp here with here | here
      · obtain ⟨j, there, same⟩ := ih here
        exact ⟨j, List.mem_append_left _ there, same⟩
      · obtain rfl := List.mem_singleton.mp here
        by_contra missing
        have accepts : (run enforce history).accepts i = true := by
          refine (run_reflects enforce history).accepts_iff.mpr ⟨complete, ?_⟩
          intro key known first head
          obtain ⟨there, same⟩ := mem_under.mp (List.mem_of_mem_head? head)
          exact absurd ⟨first, List.mem_append_left _ there, same.trans known.symm⟩ missing
        exact missing ⟨i, by simp [accepts], rfl⟩

/-- What was accepted is in the history, and complete. -/
theorem mem_of_accepted (here : i ∈ accepted enforce history) :
    i ∈ history ∧ Complete enforce i.content :=
  ⟨(acceptedBy_sublist (empty enforce) history).subset here,
    (accepted_consistent enforce history).complete i here⟩

/-- After a history, a declaration meets another one exactly if it is complete and one with
its key was accepted. -/
theorem meets_run_iff : Meets (run enforce history) i ↔ Complete enforce i.content ∧
    ∃ j ∈ accepted enforce history, keyOf j.content = keyOf i.content := by
  have reflects := run_reflects enforce history
  rw [meets_iff, reflects.enforces]
  refine and_congr_right fun complete => ?_
  obtain ⟨key, known⟩ := complete.exists_keyOf
  simp only [known, Option.mem_def, Option.some.injEq, exists_eq_left', ← reflects.mem_keys,
    List.mem_filterMap]

theorem Distinguishes.keepsApart (distinguishes : Distinguishes enforce history) :
    KeepsApart enforce history := by
  constructor
  · rintro before i after rfl met
    obtain ⟨complete, j, there, same⟩ := meets_run_iff.mp met
    obtain ⟨former, complete'⟩ := mem_of_accepted there
    exact ⟨j, there, distinguishes j (List.mem_append_left _ former) i (by simp) complete'
      complete same⟩
  · intro i here j there different
    have reflects := run_reflects enforce history
    have entry_of {k : Insertion} (member : k ∈ accepted enforce history) :
        ∃ e ∈ (run enforce history).entries, keyOf k.content = some e.id := by
      obtain ⟨key, known⟩ := (mem_of_accepted member).2.exists_keyOf
      obtain ⟨e, inside, rfl⟩ := List.mem_map.mp
        (reflects.mem_keys.mp (List.mem_filterMap.mpr ⟨k, member, known⟩))
      exact ⟨e, inside, known⟩
    obtain ⟨e, inside, known⟩ := entry_of here
    obtain ⟨e', inside', known'⟩ := entry_of there
    refine ⟨e, inside, e', inside', known, known', ?_⟩
    intro same
    obtain ⟨member, complete⟩ := mem_of_accepted here
    obtain ⟨member', complete'⟩ := mem_of_accepted there
    exact different (distinguishes i member j member' complete complete'
      (by rw [known, known', same]))

/-- If whatever meets an earlier declaration has the identity of one, then by induction on
the history, it has the identity of the first under its key. -/
theorem KeepsApart.distinguishes (apart : KeepsApart enforce history) :
    Distinguishes enforce history := by
  suffices prefixes : ∀ before after, history = before ++ after → Distinguishes enforce before from
    prefixes history [] (List.append_nil _).symm
  intro before
  induction before using List.reverseRecOn with
  | nil => exact fun _ _ _ here => absurd here List.not_mem_nil
  | append_singleton before last ih =>
      intro after split
      rw [List.append_assoc, List.singleton_append] at split
      have distinguishes := ih _ split
      have latest {j : Insertion} (there : j ∈ before) (complete : Complete enforce last.content)
          (complete' : Complete enforce j.content)
          (same : keyOf j.content = keyOf last.content) :
          identityOf j.content = identityOf last.content := by
        obtain ⟨k, former, known⟩ := exists_accepted there complete'
        obtain ⟨twin, member, equal⟩ := apart.meets before last after split
          (meets_run_iff.mpr ⟨complete, k, former, known.trans same⟩)
        obtain ⟨member, complete''⟩ := mem_of_accepted member
        refine Eq.trans ?_ equal
        exact distinguishes j there twin member complete' complete''
          (same.trans (keyOf_eq_of_identityOf_eq equal).symm)
      intro i here j there complete complete' same
      simp only [List.mem_append, List.mem_singleton] at here there
      obtain former | rfl := here <;> obtain latter | rfl := there
      · exact distinguishes i former j latter complete complete' same
      · exact latest former complete' complete same
      · exact (latest latter complete complete' same.symm).symm
      · rfl

theorem distinguishes_of_plain (plain : ∀ i ∈ history, ∀ id ∈ i.content.id, IsPlain id) :
    Distinguishes enforce history := by
  intro i here j there complete complete' same
  obtain ⟨id, known⟩ := Option.ne_none_iff_exists'.mp complete.id
  obtain ⟨id', known'⟩ := Option.ne_none_iff_exists'.mp complete'.id
  rw [keyOf, keyOf, known, known', Option.map_some, Option.map_some, Option.some.injEq] at same
  have identity : id = id' ∧ i.content.comment = j.content.comment := by
    obtain shorter | shorter := Nat.le_total id'.length id.length
    · exact (plain i here id known).unique shorter same
    · obtain ⟨ids, comments⟩ := (plain j there id' known').unique shorter same.symm
      exact ⟨ids.symm, comments.symm⟩
  rw [identityOf, identityOf, known, known', identity.1, identity.2]

end Identities

/-- A catalog keeps the messages of a history apart exactly if the complete declarations
with one key have one identity. If all identifiers are plain, then they do. -/
theorem keepsApart_iff (enforce : Bool) (history : List Insertion) :
    (KeepsApart enforce history ↔ Distinguishes enforce history) ∧
      ((∀ i ∈ history, ∀ id ∈ i.content.id, IsPlain id) → KeepsApart enforce history) := by
  refine ⟨⟨KeepsApart.distinguishes, Distinguishes.keepsApart⟩, ?_⟩
  intro plain
  apply Distinguishes.keepsApart
  exact distinguishes_of_plain plain

theorem keepsApart_iff_repeated :
    KeepsApart false repeated ∧ Distinguishes false repeated := by
  have plain : ∀ i ∈ repeated, ∀ id ∈ i.content.id, IsPlain id := by
    intro i here id known
    simp only [repeated, List.mem_cons, List.not_mem_nil, or_false] at here
    obtain rfl | rfl | rfl := here <;> obtain rfl := Option.some.inj known <;> decide
  have apart := (keepsApart_iff false repeated).2 plain
  exact ⟨apart, (keepsApart_iff false repeated).1.mp apart⟩

/-- An identifier with a separator is in conflict with a shorter one that has a comment, or
takes its place if the message is the same. -/
theorem separator_collides :
    let commented : Insertion := ⟨⟨some "a", none, some "A", some "b"⟩, none⟩
    let separated : Insertion := ⟨⟨some "a##b", none, some "B", none⟩, none⟩
    identityOf commented.content ≠ identityOf separated.content ∧
      accepted false [commented] = [commented] ∧
      (run false [commented]).insert separated.content separated.location =
        .error (.conflict "a##b") ∧
      Collapses (run false [commented]) ⟨some "a##b", none, some "A", none⟩ none ∧
      ¬ KeepsApart false [commented, separated] := by
  intro commented separated
  have different : identityOf commented.content ≠ identityOf separated.content := by decide
  refine ⟨different, rfl, rfl, ⟨_, rfl, rfl⟩, ?_⟩
  intro apart
  exact different (apart.distinguishes commented (by simp) separated (by simp)
    ⟨by decide, by decide, by decide⟩ ⟨by decide, by decide, by decide⟩ rfl)

end Catalog

end MessageCatalog
