import MessageCatalog.Proofs.Catalog.Insertion

/-!
# Catalogs without descriptions

Descriptions take part in what a catalog accepts: a key must not be declared with two
descriptions. Without them less can be in conflict, so an insertion that is accepted is
also accepted if all descriptions are left out, and its effect is the same except for
them.
-/

namespace MessageCatalog

namespace Descriptor

/-- The content without its description. -/
def Content.undescribed (content : Content) : Content :=
  { content with description := none }

end Descriptor

namespace Catalog

open Descriptor Extraction

/-- The entry without its description. -/
def Entry.undescribed (e : Entry) : Entry :=
  { e with description := none }

@[simp] theorem Entry.id_undescribed (e : Entry) : e.undescribed.id = e.id := rfl

end Catalog

/-- The catalog without descriptions. It cannot enforce any. -/
def Catalog.undescribed (catalog : Catalog) : Catalog where
  entries := catalog.entries.map Catalog.Entry.undescribed
  index := catalog.index
  enforceDescriptions := false
  inStep := by
    rw [List.map_map]
    exact catalog.inStep

namespace Catalog

open Descriptor Extraction

section Undescribed

variable {enforce : Bool} {catalog catalog' : Catalog} {content : Content}
  {location : Option Location} {e existing : Entry}

@[simp] theorem entries_undescribed (catalog : Catalog) :
    catalog.undescribed.entries = catalog.entries.map Entry.undescribed := rfl

theorem undescribed_empty : (empty false).undescribed = empty false := rfl

theorem entry_undescribed (made : entry enforce content location = .ok e) :
    entry false content.undescribed location = .ok e.undescribed := by
  obtain ⟨complete, declares⟩ := entry_eq_ok_iff.mp made
  exact entry_eq_ok_iff.mpr ⟨⟨complete.id, complete.defaultMessage, by simp⟩,
    declares.key, rfl, declares.defaultMessage, declares.comment, declares.location⟩

theorem SameText.undescribed (same : SameText existing e) :
    SameText existing.undescribed e.undescribed :=
  ⟨rfl, same.2⟩

theorem add_undescribed (added : catalog.add e = .ok catalog') :
    catalog.undescribed.add e.undescribed = .ok catalog'.undescribed := by
  rw [add] at added ⊢
  split at added
  · rename_i fresh
    obtain rfl := Except.ok.inj added
    split
    · simp [append, Catalog.undescribed]
    · rename_i found
      exact absurd (fresh.symm.trans found) (by simp)
  · rename_i position found
    split
    · rename_i fresh
      exact absurd (fresh.symm.trans found) (by simp)
    · rename_i position' found'
      obtain rfl : position = position' := Option.some.inj (found.symm.trans found')
      dsimp only at added ⊢
      split at added
      · rename_i agreement
        obtain rfl := Except.ok.inj added
        have agreement' := agrees_iff.mpr (agrees_iff.mp agreement).undescribed
        rw [if_pos (by simpa using agreement')]
        simp [overwrite, Catalog.undescribed, List.map_set]
      · exact absurd added (by simp)

theorem insert_undescribed (inserted : catalog.insert content location = .ok (catalog', e)) :
    catalog.undescribed.insert content.undescribed location =
      .ok (catalog'.undescribed, e.undescribed) := by
  obtain ⟨made, added⟩ := insert_eq_ok_iff.mp inserted
  exact insert_eq_ok_iff.mpr ⟨entry_undescribed made, add_undescribed added⟩

end Undescribed

end Catalog

end MessageCatalog
