import MessageCatalog.Proofs.Catalog.Insertion

/-!
# Histories of catalogs

A history is a list of insertions that are tried one after the other, on a catalog that is
empty at first. Some are accepted and some are not. What the catalog holds in the end
depends on the accepted ones only: it has one entry for each of their keys, in the order in
which the keys came up, with the text of the first insertion under the key and the comment
and the place of the last.

`Reflects` says this of a catalog and a list of accepted insertions. One lemma shows that
an insertion keeps it, and everything else is read off it.
-/

namespace MessageCatalog

namespace Catalog

open Descriptor Extraction

/-- A message that is to be added to a catalog. -/
structure Insertion where
  content : Content
  location : Option Location

/-! ### Runs -/

/-- Whether the catalog accepts an insertion. -/
def accepts (catalog : Catalog) (i : Insertion) : Bool :=
  (catalog.insert i.content i.location).isOk

/-- The catalog after an insertion was tried. -/
def attempt (catalog : Catalog) (i : Insertion) : Catalog :=
  match catalog.insert i.content i.location with
  | .ok (catalog, _) => catalog
  | .error _ => catalog

/-- The catalog after several insertions were tried. -/
def attemptAll (catalog : Catalog) (history : List Insertion) : Catalog :=
  history.foldl attempt catalog

/-- The insertions that a catalog accepts when they are tried one after the other. -/
def acceptedBy : Catalog → List Insertion → List Insertion
  | _, [] => []
  | catalog, i :: history =>
    (if catalog.accepts i then [i] else []) ++ acceptedBy (catalog.attempt i) history

/-- The insertions under a key. -/
def under (key : String) (insertions : List Insertion) : List Insertion :=
  insertions.filter fun i => keyOf i.content == some key

/-- The entry combines insertions: it has the text of the first, and the comment and the
place of the last. -/
structure Combines (e : Entry) (insertions : List Insertion) : Prop where
  first : ∃ i ∈ insertions.head?,
    i.content.description = e.description ∧ i.content.defaultMessage = some e.defaultMessage
  last : ∃ i ∈ insertions.getLast?, i.content.comment = e.comment ∧ i.location = e.location

/-- The catalog is what accepted insertions amount to. -/
structure Reflects (enforce : Bool) (accepted : List Insertion) (catalog : Catalog) :
    Prop where
  enforces : catalog.enforceDescriptions = enforce
  ids : catalog.entries.map Entry.id = (accepted.filterMap (keyOf ·.content)).eraseDups
  combines : ∀ e ∈ catalog.entries, Combines e (under e.id accepted)

section Attempt

variable {catalog catalog' : Catalog} {i : Insertion} {e : Entry}

theorem accepts_iff_exists :
    catalog.accepts i = true ↔ ∃ result, catalog.insert i.content i.location = .ok result := by
  rw [accepts]
  cases catalog.insert i.content i.location <;> simp [Except.isOk, Except.toBool]

theorem attempt_of_insert (accepted : catalog.insert i.content i.location = .ok (catalog', e)) :
    catalog.attempt i = catalog' := by
  rw [attempt, accepted]

theorem attempt_of_rejected (rejected : catalog.accepts i = false) :
    catalog.attempt i = catalog := by
  rw [accepts] at rejected
  rw [attempt]
  cases outcome : catalog.insert i.content i.location with
  | error => rfl
  | ok => simp [outcome, Except.isOk, Except.toBool] at rejected

end Attempt

/-! ### Keys -/

section Keys

variable {key : String} {i : Insertion} {insertions : List Insertion} {catalog : Catalog}
  {e : Entry}

theorem under_concat_of_eq (known : keyOf i.content = some key) :
    under key (insertions ++ [i]) = under key insertions ++ [i] := by
  simp [under, known]

theorem under_concat_of_ne {other : String} (known : keyOf i.content = some other)
    (distinct : key ≠ other) : under key (insertions ++ [i]) = under key insertions := by
  simp [under, known, Ne.symm distinct]

theorem under_eq_nil (absent : key ∉ insertions.filterMap (keyOf ·.content)) :
    under key insertions = [] := by
  rw [under, List.filter_eq_nil_iff]
  intro i here known
  exact absent (List.mem_filterMap.mpr ⟨i, here, by simpa using known⟩)

theorem filterMap_concat (known : keyOf i.content = some key) :
    (insertions ++ [i]).filterMap (keyOf ·.content) =
      insertions.filterMap (keyOf ·.content) ++ [key] := by
  simp [known]

/-- A key is new at the end of a list, or it is there already. -/
theorem eraseDups_concat (keys : List String) (key : String) :
    (keys ++ [key]).eraseDups =
      if key ∈ keys then keys.eraseDups else keys.eraseDups ++ [key] := by
  rw [List.eraseDups_append, List.removeAll, List.filter_cons]
  by_cases present : key ∈ keys <;> simp [present, List.eraseDups_cons]

end Keys

/-! ### What an insertion keeps -/

section Reflection

variable {enforce : Bool} {accepted : List Insertion} {catalog catalog' : Catalog}
  {i : Insertion} {e : Entry} {key : String}

theorem Reflects.empty (enforce : Bool) : Reflects enforce [] (Catalog.empty enforce) :=
  ⟨rfl, rfl, fun _ here => absurd here List.not_mem_nil⟩

theorem Reflects.mem_keys (reflects : Reflects enforce accepted catalog) :
    key ∈ accepted.filterMap (keyOf ·.content) ↔ key ∈ catalog.entries.map Entry.id := by
  rw [reflects.ids, List.mem_eraseDups]

/-- What is under a key combines one insertion more, once it is in agreement with what was
there before. -/
theorem Reflects.combines_concat (reflects : Reflects enforce accepted catalog)
    (declares : Declares i.content i.location e)
    (agreement : ∀ existing ∈ catalog.get? e.id, SameText existing e) :
    Combines e (under e.id accepted ++ [i]) := by
  refine ⟨?_, i, by simp, declares.comment, declares.location⟩
  cases found : catalog.get? e.id with
  | none =>
      have absent : e.id ∉ accepted.filterMap (keyOf ·.content) := by
        rw [reflects.mem_keys]
        exact get?_eq_none_iff.mp found
      rw [under_eq_nil absent]
      exact ⟨i, rfl, declares.description, declares.defaultMessage⟩
  | some existing =>
      obtain ⟨here, key⟩ := get?_eq_some_iff.mp found
      obtain ⟨description, message⟩ := agreement existing found
      obtain ⟨first, head, description', message'⟩ := (reflects.combines existing here).first
      rw [key] at head
      refine ⟨first, ?_, description'.trans description, message'.trans (congrArg some message)⟩
      rw [List.head?_append, Option.mem_def.mp head]
      rfl

/-- An entry that is added counts as one accepted insertion more. -/
theorem Reflects.adds (reflects : Reflects enforce accepted catalog)
    (declares : Declares i.content i.location e) (adds : Adds catalog e catalog')
    (agreement : ∀ existing ∈ catalog.get? e.id, SameText existing e) :
    Reflects enforce (accepted ++ [i]) catalog' := by
  refine ⟨adds.enforces.trans reflects.enforces, ?_, fun e' here => ?_⟩
  · rw [adds.ids, filterMap_concat declares.key, eraseDups_concat, ← reflects.ids]
    simp only [reflects.mem_keys]
  · have found := get?_eq_some_iff.mpr ⟨here, rfl⟩
    rw [adds.get] at found
    split at found
    · obtain rfl := Option.some.inj found
      rw [under_concat_of_eq declares.key]
      exact reflects.combines_concat declares agreement
    · rename_i different
      rw [under_concat_of_ne declares.key different]
      exact reflects.combines e' (get?_eq_some_iff.mp found).1

/-- An insertion that is tried is accepted and counts from then on, or changes nothing. -/
theorem Reflects.attempt (reflects : Reflects enforce accepted catalog) (i : Insertion) :
    Reflects enforce (accepted ++ if catalog.accepts i then [i] else [])
      (catalog.attempt i) := by
  cases decision : catalog.accepts i with
  | false => simpa [attempt_of_rejected decision] using reflects
  | true =>
      obtain ⟨⟨catalog', e⟩, inserted⟩ := accepts_iff_exists.mp decision
      obtain ⟨made, added⟩ := insert_eq_ok_iff.mp inserted
      have declares := (entry_eq_ok_iff.mp made).2
      obtain ⟨adds, agreement⟩ := adds_of_add added
      rw [attempt_of_insert inserted, if_pos rfl]
      exact reflects.adds declares adds agreement

theorem Reflects.attemptAll (reflects : Reflects enforce accepted catalog)
    (history : List Insertion) :
    Reflects enforce (accepted ++ catalog.acceptedBy history) (catalog.attemptAll history) := by
  induction history generalizing accepted catalog with
  | nil => simpa [acceptedBy, Catalog.attemptAll] using reflects
  | cons i history ih =>
      rw [acceptedBy, ← List.append_assoc]
      exact ih (reflects.attempt i)

/-- What is accepted next depends on the first insertion that was accepted under the same
key. -/
theorem Reflects.accepts_iff (reflects : Reflects enforce accepted catalog) :
    catalog.accepts i = true ↔
      Complete enforce i.content ∧ ∀ key ∈ keyOf i.content,
        ∀ first ∈ (under key accepted).head?,
          i.content.description = first.content.description ∧
            i.content.defaultMessage = first.content.defaultMessage := by
  rw [accepts_iff_exists, exists_insert_iff, reflects.enforces]
  refine and_congr_right fun _ => forall_congr' fun key => imp_congr_right fun _ => ?_
  constructor
  · intro agreement first head
    have present : key ∈ accepted.filterMap (keyOf ·.content) := by
      have here := List.mem_of_mem_head? head
      simp only [under, List.mem_filter, beq_iff_eq] at here
      exact List.mem_filterMap.mpr ⟨first, here.1, here.2⟩
    rw [reflects.mem_keys] at present
    obtain ⟨e, here, rfl⟩ := List.mem_map.mp present
    obtain ⟨first', head', description, message⟩ := (reflects.combines e here).first
    obtain rfl := Option.some.inj (head.symm.trans head')
    rw [description, message]
    exact agreement e (get?_eq_some_iff.mpr ⟨here, rfl⟩)
  · intro agreement e found
    obtain ⟨here, rfl⟩ := get?_eq_some_iff.mp found
    obtain ⟨first, head, description, message⟩ := (reflects.combines e here).first
    rw [← description, ← message]
    exact agreement first head

end Reflection

/-! ### Whole histories -/

/-- The catalog after a history of insertions, from the empty catalog on. -/
def run (enforce : Bool) (history : List Insertion) : Catalog :=
  (empty enforce).attemptAll history

/-- The accepted insertions of a history. -/
def accepted (enforce : Bool) (history : List Insertion) : List Insertion :=
  (empty enforce).acceptedBy history

theorem run_reflects (enforce : Bool) (history : List Insertion) :
    Reflects enforce (accepted enforce history) (run enforce history) :=
  (Reflects.empty enforce).attemptAll history

/-- After every history, an insertion is accepted exactly if it is complete and has the
text of the first insertion that was accepted under its key, and one that is not accepted
leaves the catalog alone. The entries are one for each key that was accepted, in the order
of first acceptance; each has the text of the first insertion under its key, and the
comment and the place of the last. The index leads to the entries by their keys, so that a
look-up finds exactly the entry with the key. -/
theorem run_reflects_accepted (enforce : Bool) (history : List Insertion) :
    (∀ i, (run enforce history).accepts i = true ↔
      Complete enforce i.content ∧ ∀ key ∈ keyOf i.content,
        ∀ first ∈ (under key (accepted enforce history)).head?,
          i.content.description = first.content.description ∧
            i.content.defaultMessage = first.content.defaultMessage) ∧
    (∀ i, (run enforce history).accepts i = false →
      run enforce (history ++ [i]) = run enforce history) ∧
    (run enforce history).entries.map Entry.id =
      ((accepted enforce history).filterMap (keyOf ·.content)).eraseDups ∧
    (∀ e ∈ (run enforce history).entries,
      Combines e (under e.id (accepted enforce history))) ∧
    InStep (run enforce history).index ((run enforce history).entries.map Entry.id) ∧
    ∀ key e, (run enforce history).get? key = some e ↔
      e ∈ (run enforce history).entries ∧ e.id = key := by
  have reflects := run_reflects enforce history
  refine ⟨fun i => reflects.accepts_iff, fun i rejected => ?_, reflects.ids,
    reflects.combines, (run enforce history).inStep, fun key e => get?_eq_some_iff⟩
  rw [run, attemptAll, List.foldl_append]
  exact attempt_of_rejected rejected

end Catalog

end MessageCatalog
