import MessageCatalog.Descriptor.Field
import MessageCatalog.Extraction.Fault

/-!
# Catalogs

A catalog holds the messages of a unit in the order of their first declaration. Each is
kept under a key: the identifier that its author gave it, and the comment if there is
one. A message may be declared again as long as it says the same; then the later
declaration takes the place of the earlier.

An index leads from keys to positions. A catalog carries the proof that the index is in
step with its messages, so that both can only be changed together.
-/

namespace MessageCatalog

namespace Catalog

open Descriptor Extraction

structure Location where
  file : String
  line : Nat
  column : Nat
  deriving DecidableEq, Repr

/-- A message in a catalog. The identifier is the key that the entry is kept under, so it has
the comment in it, and the comment is there once more by itself. -/
structure Entry where
  id : String
  description : Option String
  defaultMessage : String
  comment : Option String
  location : Option Location
  deriving DecidableEq, Repr

def commentSeparator : String := "##"

/-- The key of a message: its identifier, followed by the comment if there is one. The
identifier may hold the separator itself, so the key does not determine both. -/
def storageKey (id : String) : Option String → String
  | some comment => id ++ commentSeparator ++ comment
  | none => id

@[simp] theorem storageKey_none (id : String) : storageKey id none = id := rfl

/-- An index is in step with keys if it leads from each key to its position, and from
nothing else to anywhere. -/
def InStep (index : List (String × Nat)) (keys : List String) : Prop :=
  ∀ key position, index.lookup key = some position ↔ keys[position]? = some key

section InStep

variable {index : List (String × Nat)} {keys : List String} {key : String} {position : Nat}

theorem InStep.nil : InStep [] [] := by
  intro key position
  simp

theorem InStep.lt (inStep : InStep index keys) (found : index.lookup key = some position) :
    position < keys.length :=
  (List.getElem?_eq_some_iff.mp ((inStep key position).mp found)).1

/-- A new key at the end gets the position behind all others. -/
theorem InStep.concat (inStep : InStep index keys) (fresh : index.lookup key = none) :
    InStep ((key, keys.length) :: index) (keys ++ [key]) := by
  intro other position
  rw [List.lookup_cons]
  by_cases same : other = key
  · subst same
    simp only [beq_self_eq_true, Option.some.injEq]
    constructor
    · rintro rfl
      exact List.getElem?_concat_length
    · intro here
      rw [List.getElem?_append] at here
      split at here
      · exact absurd ((inStep other position).mpr here) (by simp [fresh])
      · rename_i behind
        have last := (List.getElem?_eq_some_iff.mp here).1
        simp only [List.length_cons, List.length_nil] at last
        omega
  · rw [beq_eq_false_iff_ne.mpr same, inStep other position, List.getElem?_append]
    split
    · exact Iff.rfl
    · rename_i behind
      rw [List.getElem?_eq_none (Nat.le_of_not_lt behind), List.getElem?_singleton]
      split <;> simp [Ne.symm same]

theorem InStep.set_eq (inStep : InStep index keys) (found : index.lookup key = some position) :
    keys.set position key = keys := by
  obtain ⟨inside, here⟩ := List.getElem?_eq_some_iff.mp ((inStep key position).mp found)
  rw [← here, List.set_getElem_self]

end InStep

end Catalog

/-- The messages of a unit, and whether each has to have a description. The index leads
from the key of a message to its position. -/
structure Catalog where
  entries : List Catalog.Entry
  index : List (String × Nat)
  enforceDescriptions : Bool
  inStep : Catalog.InStep index (entries.map Catalog.Entry.id)
  deriving DecidableEq, Repr

namespace Catalog

open Descriptor Extraction

def empty (enforceDescriptions : Bool) : Catalog := ⟨[], [], enforceDescriptions, .nil⟩

def get? (catalog : Catalog) (key : String) : Option Entry :=
  (catalog.index.lookup key).bind fun position => catalog.entries[position]?

def size (catalog : Catalog) : Nat :=
  catalog.entries.length

/-- The entry that a content makes. The required fields have to be there, and the
description too if descriptions are enforced. -/
def entry (enforceDescriptions : Bool) (content : Content) (location : Option Location) :
    Except Problem Entry :=
  match content.id, content.defaultMessage with
  | none, _ => .error (.missingField .id)
  | some _, none => .error (.missingField .defaultMessage)
  | some id, some defaultMessage =>
    if enforceDescriptions && content.description.isNone then .error .missingDescription
    else .ok
      { id := storageKey id content.comment
        description := content.description
        defaultMessage
        comment := content.comment
        location }

/-- Whether two entries of one key say the same, which is a question of description and message
only: their locations may differ, and the comment is part of the key. -/
def agrees (a b : Entry) : Bool :=
  a.description == b.description && a.defaultMessage == b.defaultMessage

def append (catalog : Catalog) (entry : Entry)
    (fresh : catalog.index.lookup entry.id = none) : Catalog :=
  { catalog with
    entries := catalog.entries ++ [entry]
    index := (entry.id, catalog.entries.length) :: catalog.index
    inStep := by simpa using catalog.inStep.concat fresh }

def overwrite (catalog : Catalog) (position : Nat) (entry : Entry)
    (found : catalog.index.lookup entry.id = some position) : Catalog :=
  { catalog with
    entries := catalog.entries.set position entry
    inStep := by
      rw [List.map_set, catalog.inStep.set_eq found]
      exact catalog.inStep }

/-- Add an entry, unless it contradicts the one that has its key. An entry that agrees takes the
place of the other, so that the last location counts. -/
def add (catalog : Catalog) (entry : Entry) : Except Problem Catalog :=
  match found : catalog.index.lookup entry.id with
  | none => .ok (catalog.append entry found)
  | some position =>
    have inside : position < catalog.entries.length := by
      simpa using catalog.inStep.lt found
    if agrees catalog.entries[position] entry then .ok (catalog.overwrite position entry found)
    else .error (.conflict entry.id)

/-- Add the message that a content describes: the new catalog, and the entry that the message
got. A failure leaves no catalog, so the old one is what remains. -/
def insert (catalog : Catalog) (content : Content) (location : Option Location) :
    Except Problem (Catalog × Entry) := do
  let entry ← entry catalog.enforceDescriptions content location
  let catalog ← catalog.add entry
  return (catalog, entry)

@[simp] theorem entries_empty (enforce : Bool) : (empty enforce).entries = [] := rfl

@[simp] theorem get?_empty (enforce : Bool) (key : String) :
    (empty enforce).get? key = none := rfl

@[simp] theorem size_empty (enforce : Bool) : (empty enforce).size = 0 := rfl

end Catalog

end MessageCatalog
