import MessageCatalog.Proofs.Catalog.Insertion

/-!
# Catalogs without locations

Where a message is declared has no part in whether a catalog accepts it, nor in what it is
kept under. So leaving out all locations commutes with inserting: it does not matter
whether they are left out before or after.
-/

namespace MessageCatalog

namespace Catalog

/-- The entry without its location. -/
def Entry.unlocated (e : Entry) : Entry :=
  { e with location := none }

@[simp] theorem Entry.id_unlocated (e : Entry) : e.unlocated.id = e.id := rfl

end Catalog

/-- The catalog without locations. -/
def Catalog.unlocated (catalog : Catalog) : Catalog where
  entries := catalog.entries.map Catalog.Entry.unlocated
  index := catalog.index
  enforceDescriptions := catalog.enforceDescriptions
  inStep := by
    rw [List.map_map]
    exact catalog.inStep

namespace Catalog

open Descriptor Extraction

theorem entry_unlocated (enforce : Bool) (content : Content) (location : Option Location) :
    entry enforce content none = (entry enforce content location).map Entry.unlocated := by
  rw [entry.eq_def, entry.eq_def]
  split
  · rfl
  · rfl
  · split <;> rfl

theorem add_unlocated (catalog : Catalog) (e : Entry) :
    catalog.unlocated.add e.unlocated = (catalog.add e).map Catalog.unlocated := by
  rw [add, add]
  split
  · rename_i fresh
    split
    · simp [Except.map, append, Catalog.unlocated]
    · rename_i found
      exact absurd (fresh.symm.trans found) (by simp)
  · rename_i position found
    split
    · rename_i fresh
      exact absurd (fresh.symm.trans found) (by simp)
    · rename_i position' found'
      obtain rfl : position = position' := Option.some.inj (found.symm.trans found')
      have agreement (existing : Entry) :
          agrees existing.unlocated e.unlocated = agrees existing e := rfl
      simp only [Catalog.unlocated, List.getElem_map, agreement]
      split
      · simp [Except.map, overwrite, Catalog.unlocated, List.map_set]
      · rfl

/-- What an insertion does does not depend on the location. -/
theorem insert_unlocated (catalog : Catalog) (content : Content) (location : Option Location) :
    catalog.unlocated.insert content none =
      (catalog.insert content location).map fun result =>
        (result.1.unlocated, result.2.unlocated) := by
  have made := entry_unlocated catalog.enforceDescriptions content location
  rw [insert, insert]
  change ((entry catalog.enforceDescriptions content none).bind fun e => _) = _
  rw [made]
  cases entry catalog.enforceDescriptions content location with
  | error problem => rfl
  | ok e =>
      have added := add_unlocated catalog e
      cases outcome : catalog.add e with
      | error problem => simp_all [Except.map, Except.bind, bind]
      | ok after => simp_all [Except.map, Except.bind, bind, pure, Except.pure]

end Catalog

end MessageCatalog
