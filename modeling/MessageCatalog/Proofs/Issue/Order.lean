import MessageCatalog.Issue.Basic

/-!
# The order of issues

Any two issues are ordered, one way or the other. Those that are ordered both ways have the same
file, line, column, rule and message; nothing else about them counts. Next to each other, two of
them can be exchanged in a sorted list without leaving the order.
-/

namespace MessageCatalog

theorem Rule.rank_injective {r s : Rule} (same : r.rank = s.rank) : r = s := by
  cases r <;> cases s <;> first
    | rfl
    | exact absurd same (by decide)

namespace Issue

variable {a b c : Issue}

theorem precedes_trans (first : a.precedes b = true) (second : b.precedes c = true) :
    a.precedes c = true :=
  Std.TransCmp.isLE_trans first second

theorem precedes_total (a b : Issue) : (a.precedes b || b.precedes a) = true := by
  have swap : compare b.key a.key = (compare a.key b.key).swap := Std.OrientedCmp.eq_swap
  rw [Bool.or_eq_true, precedes, precedes, swap]
  cases compare a.key b.key <;> simp

theorem sort_perm (issues : List Issue) : (sort issues).Perm issues :=
  List.mergeSort_perm issues precedes

theorem sort_pairwise (issues : List Issue) :
    (sort issues).Pairwise fun a b => a.precedes b = true := by
  apply List.pairwise_mergeSort
  · intro a b c
    exact precedes_trans
  · exact precedes_total

/-! ### Ties -/

/-- Two issues with the same rank: the order does not tell them apart. -/
structure Ties (a b : Issue) : Prop where
  file : a.place.fileName = b.place.fileName
  line : a.place.line = b.place.line
  column : a.place.column = b.place.column
  rule : a.rule = b.rule
  message : a.message = b.message

theorem codes_injective {s t : String}
    (same : s.toList.map Char.toNat = t.toList.map Char.toNat) : s = t :=
  String.toList_inj.mp ((List.map_inj_right fun _ _ => Char.toNat_inj.mp).mp same)

theorem ties_iff_key : a.Ties b ↔ a.key = b.key := by
  constructor
  · intro tie
    rw [key, key, tie.file, tie.line, tie.column, tie.rule, tie.message]
  · intro same
    simp only [key, List.cons.injEq, and_true] at same
    obtain ⟨file, line, column, rule, message⟩ := same
    exact ⟨codes_injective file, line, column, Rule.rank_injective rule, codes_injective message⟩

instance : Decidable (a.Ties b) :=
  decidable_of_iff _ ties_iff_key.symm

theorem ties_iff_precedes :
    a.Ties b ↔ a.precedes b = true ∧ b.precedes a = true := by
  rw [ties_iff_key]
  constructor
  · intro same
    rw [precedes, precedes, same]
    exact ⟨Std.ReflCmp.isLE_rfl, Std.ReflCmp.isLE_rfl⟩
  · rintro ⟨first, second⟩
    exact Std.LawfulEqCmp.eq_of_compare (Std.OrientedCmp.isLE_antisymm first second)

namespace Ties

theorem precedes_left (tie : a.Ties b) (c : Issue) : a.precedes c = b.precedes c := by
  rw [precedes, precedes, ties_iff_key.mp tie]

theorem precedes_right (tie : a.Ties b) (c : Issue) : c.precedes a = c.precedes b := by
  rw [precedes, precedes, ties_iff_key.mp tie]

/-- An issue can be put right behind one that it ties with. -/
theorem pairwise_insert {earlier later : List Issue} (tie : a.Ties b)
    (sorted : (earlier ++ a :: later).Pairwise fun a b => a.precedes b = true) :
    (earlier ++ a :: b :: later).Pairwise fun a b => a.precedes b = true := by
  rw [List.pairwise_append, List.pairwise_cons] at sorted ⊢
  obtain ⟨before, ⟨below, behind⟩, across⟩ := sorted
  refine ⟨before, ⟨?_, List.pairwise_cons.mpr ⟨fun c here => ?_, behind⟩⟩, fun c here d there => ?_⟩
  · intro c here
    rcases List.mem_cons.mp here with rfl | here
    · exact (ties_iff_precedes.mp tie).1
    · exact below c here
  · exact tie.precedes_left c ▸ below c here
  · rcases List.mem_cons.mp there with rfl | there
    · exact across c here d List.mem_cons_self
    · rcases List.mem_cons.mp there with rfl | there
      · exact tie.precedes_right c ▸ across c here a List.mem_cons_self
      · exact across c here d (List.mem_cons_of_mem _ there)

/-- Two issues that tie can be exchanged where they stand next to each other. -/
theorem pairwise_swap {earlier later : List Issue} (tie : a.Ties b)
    (sorted : (earlier ++ a :: b :: later).Pairwise fun a b => a.precedes b = true) :
    (earlier ++ b :: a :: later).Pairwise fun a b => a.precedes b = true := by
  have keys : (earlier ++ b :: a :: later).map key = (earlier ++ a :: b :: later).map key := by
    rw [List.map_append, List.map_append, List.map_cons, List.map_cons, List.map_cons,
      List.map_cons, ties_iff_key.mp tie]
  have byKey (issues : List Issue) : (issues.Pairwise fun a b => a.precedes b = true) ↔
      (issues.map key).Pairwise fun k l => (compare k l).isLE = true := by
    rw [List.pairwise_map]
    rfl
  rw [byKey] at sorted ⊢
  rwa [keys]

end Ties

/-- In a sorted arrangement of some issues, two that tie can be next to each other. -/
theorem exists_sorted_adjacent {found rest : List Issue} (tie : a.Ties b)
    (split : found.Perm (a :: b :: rest)) :
    ∃ earlier later, found.Perm (earlier ++ a :: b :: later) ∧
      (earlier ++ a :: b :: later).Pairwise fun a b => a.precedes b = true := by
  have sorted := sort_pairwise (a :: rest)
  have perm := sort_perm (a :: rest)
  obtain ⟨earlier, later, here⟩ := List.append_of_mem (perm.mem_iff.mpr List.mem_cons_self)
  rw [here] at sorted perm
  refine ⟨earlier, later, ?_, tie.pairwise_insert sorted⟩
  have others : (earlier ++ later).Perm rest :=
    (List.perm_middle.symm.trans perm).cons_inv
  exact split.trans ((((others.symm.cons b).trans List.perm_middle.symm).cons a).trans
    List.perm_middle.symm)

end Issue

end MessageCatalog
