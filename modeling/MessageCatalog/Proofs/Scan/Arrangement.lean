import Mathlib.Data.List.Pairwise
import MessageCatalog.Scan.Basic

/-!
# The order of what is found

Paths are ordered by the keys of their components, and two paths have the same key exactly if
they name the same place. So arranged paths ascend strictly: no two of them name the same
place.
-/

namespace MessageCatalog

namespace Path

variable {a b c : Path}

/-- Whether a path comes before another that names a different place. -/
def Before (a b : Path) : Prop :=
  a.precedes b = true ∧ a.names b = false

theorem Component.key_injective {x y : Component} (same : x.key = y.key) : x = y := by
  cases x <;> cases y <;> first
    | rfl
    | exact absurd (List.cons.inj same).1 (by decide)
    | exact congrArg name ((List.map_inj_right fun c d => Char.toNat_inj.mp).mp
        (List.cons.inj same).2)

theorem names_iff : a.names b = true ↔ a.components = b.components :=
  beq_iff_eq

theorem names_iff_key : a.names b = true ↔ a.key = b.key := by
  rw [names_iff, key, key, List.map_inj_right fun x y => Component.key_injective]

theorem precedes_trans (first : a.precedes b = true) (second : b.precedes c = true) :
    a.precedes c = true :=
  Std.TransCmp.isLE_trans first second

theorem precedes_total (a b : Path) : (a.precedes b || b.precedes a) = true := by
  have swap : compare b.key a.key = (compare a.key b.key).swap := Std.OrientedCmp.eq_swap
  rw [Bool.or_eq_true, precedes, precedes, swap]
  cases compare a.key b.key <;> simp

theorem names_of_precedes (first : a.precedes b = true) (second : b.precedes a = true) :
    a.names b = true :=
  names_iff_key.mpr (Std.LawfulEqCmp.eq_of_compare (Std.OrientedCmp.isLE_antisymm first second))

/-- Of strictly ascending paths no two are alike in some respect exactly if those that are alike
name the same place. -/
theorem pairwise_apart_iff {alike : Path → Path → Prop} {paths : List Path}
    (ascending : paths.Pairwise Before) (symmetric : ∀ {a b : Path}, alike a b → alike b a) :
    (paths.Pairwise fun a b => ¬ alike a b) ↔
      ∀ a ∈ paths, ∀ b ∈ paths, alike a b → a.names b = true := by
  constructor
  · intro apart a here b there
    refine apart.imp (S := fun a b => alike a b → a.names b = true) ?_
      |>.forall_of_forall_of_flip ?_ ?_ here there
    · intro a b different same
      exact absurd same different
    · exact fun a _ _ => names_iff.mpr rfl
    · refine apart.imp fun different same => ?_
      exact absurd (symmetric same) different
  · intro injective
    refine ascending.imp_of_mem fun here there before same => ?_
    have together : false = true := before.2.symm.trans (injective _ here _ there same)
    contradiction

end Path

namespace Scan

open MessageCatalog.Path (Before)

variable {path : Path} {paths : List Path}

theorem dropRepeated_subset (paths : List Path) : dropRepeated paths ⊆ paths := by
  induction paths with
  | nil => exact List.Subset.refl _
  | cons path paths ih =>
    rw [dropRepeated]
    cases rest : dropRepeated paths with
    | nil => exact List.cons_subset_cons path (List.nil_subset _)
    | cons next others =>
      rw [rest] at ih
      dsimp only
      split
      · exact List.cons_subset_cons path (List.Subset.trans (List.subset_cons_self next others) ih)
      · exact List.cons_subset_cons path ih

/-- Paths in order ascend strictly once repetitions are dropped. -/
theorem dropRepeated_pairwise (ordered : paths.Pairwise fun a b => a.precedes b = true) :
    (dropRepeated paths).Pairwise Before := by
  induction paths with
  | nil => exact List.Pairwise.nil
  | cons path paths ih =>
    obtain ⟨first, ordered⟩ := List.pairwise_cons.mp ordered
    have later := ih ordered
    have inside := dropRepeated_subset paths
    rw [dropRepeated]
    cases rest : dropRepeated paths with
    | nil => exact List.pairwise_singleton _ _
    | cons next others =>
      rw [rest] at later inside
      obtain ⟨head, tail⟩ := List.pairwise_cons.mp later
      have ahead : ∀ other ∈ next :: others, path.precedes other = true :=
        fun other among => first other (inside among)
      dsimp only
      split
      · rename_i same
        refine List.pairwise_cons.mpr ⟨fun other among => ?_, tail⟩
        refine ⟨ahead other (List.mem_cons_of_mem next among), ?_⟩
        rw [← Bool.not_eq_true, Path.names_iff_key, Path.names_iff_key.mp same,
          ← Path.names_iff_key, Bool.not_eq_true]
        exact (head other among).2
      · rename_i other
        refine List.pairwise_cons.mpr ⟨fun further among => ⟨ahead further among, ?_⟩, later⟩
        rw [← Bool.not_eq_true]
        intro same
        -- Something between a path and its repetition would be a repetition itself.
        rcases List.mem_cons.mp among with rfl | among
        · exact other same
        · refine other (Path.names_of_precedes (ahead next List.mem_cons_self) ?_)
          have between := (head further among).1
          rw [Path.precedes, Path.names_iff_key.mp same]
          exact between

theorem arrange_subset (paths : List Path) : arrange paths ⊆ paths := by
  intro path among
  exact (List.mergeSort_perm paths _).subset (dropRepeated_subset _ among)

theorem arrange_pairwise (paths : List Path) : (arrange paths).Pairwise Before := by
  apply dropRepeated_pairwise
  apply List.pairwise_mergeSort
  · intro a b c
    exact Path.precedes_trans
  · exact Path.precedes_total

theorem dropRepeated_of_pairwise (ascending : paths.Pairwise Before) :
    dropRepeated paths = paths := by
  induction paths with
  | nil => rfl
  | cons path paths ih =>
    obtain ⟨first, later⟩ := List.pairwise_cons.mp ascending
    rw [dropRepeated, ih later]
    cases paths with
    | nil => rfl
    | cons next rest =>
      dsimp only
      rw [if_neg]
      rw [(first next List.mem_cons_self).2]
      decide

/-- Paths that ascend strictly are arranged already. -/
theorem arrange_of_pairwise (ascending : paths.Pairwise Before) : arrange paths = paths := by
  rw [arrange, List.mergeSort_of_pairwise (ascending.imp And.left),
    dropRepeated_of_pairwise ascending]

end Scan

end MessageCatalog
