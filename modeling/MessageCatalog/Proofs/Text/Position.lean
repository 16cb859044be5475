import MessageCatalog.Text.Source

/-!
# The order of positions

A later place in a source is never shown at an earlier position. It may be shown at the
same one: characters without a width take no column, and the place between the two
characters of a line end is shown like the place behind them.
-/

namespace MessageCatalog

namespace Text

/-- One position is on an earlier line than another, or on its line and not behind it. -/
def Position.Le (a b : Position) : Prop :=
  a.line < b.line ∨ a.line = b.line ∧ a.column ≤ b.column

instance (a b : Position) : Decidable (a.Le b) :=
  inferInstanceAs (Decidable (_ ∨ _ ∧ _))

theorem Position.Le.refl (a : Position) : a.Le a :=
  .inr ⟨rfl, Nat.le_refl _⟩

section Columns

variable {s t : List Char}

theorem columns_append (s t : List Char) : columns (s ++ t) = columns s + columns t := by
  induction s with
  | nil => rw [List.nil_append, columns, Nat.zero_add]
  | cons c s ih => rw [List.cons_append, columns, columns, ih, Nat.add_assoc]

theorem columns_take_le {n m : Nat} (s : List Char) (le : n ≤ m) :
    columns (s.take n) ≤ columns (s.take m) := by
  obtain ⟨more, rfl⟩ := Nat.exists_eq_add_of_le le
  rw [List.take_add, columns_append]
  exact Nat.le_add_right _ _

end Columns

namespace Source

section Lines

variable {lines start place : Nat} {s t : List Char}

/-- Text has line ends, or it stays on its line. -/
theorem lineStart_cases (lines start place : Nat) (s : List Char) :
    lines < (lineStart lines start place s).1 ∨ lineStart lines start place s = (lines, start) := by
  fun_induction lineStart lines start place s with
  | case1 => exact .inr rfl
  | case2 lines start place s ih =>
      refine .inl ?_
      rcases ih with more | same
      · exact Nat.lt_of_succ_lt more
      · rw [same]
        exact Nat.lt_succ_self _
  | case3 lines start place c s alone ends ih =>
      refine .inl ?_
      rcases ih with more | same
      · exact Nat.lt_of_succ_lt more
      · rw [same]
        exact Nat.lt_succ_self _
  | case4 lines start place c s alone inside ih => exact ih

/-- A line end that is the first character of a text ends a line. -/
theorem lt_lineStart {c : Char} (ends : (c = '\n' || c = '\r') = true) :
    lines < (lineStart lines start place (c :: s)).1 := by
  have next (place : Nat) (s : List Char) :
      lines < (lineStart (lines + 1) place place s).1 := by
    rcases lineStart_cases (lines + 1) place place s with more | same
    · exact Nat.lt_of_succ_lt more
    · rw [same]
      exact Nat.lt_succ_self _
  rw [lineStart.eq_def]
  split
  · contradiction
  · exact next _ _
  · rename_i whole
    obtain ⟨rfl, rfl⟩ := List.cons_eq_cons.mp whole
    rw [if_pos ends]
    exact next _ _

/-- With more text behind it, a text has more line ends, or its last line starts at the same
place, or nothing is on its last line yet. -/
theorem lineStart_append (lines start place : Nat) (s t : List Char) :
    (lineStart lines start place s).1 < (lineStart lines start place (s ++ t)).1 ∨
      (lineStart lines start place s).1 = (lineStart lines start place (s ++ t)).1 ∧
        ((lineStart lines start place s).2 = (lineStart lines start place (s ++ t)).2 ∨
          place + s.length ≤ (lineStart lines start place s).2) := by
  fun_induction lineStart lines start place s with
  | case1 lines start place =>
      rw [List.nil_append]
      rcases lineStart_cases lines start place t with more | same
      · exact .inl more
      · exact .inr ⟨by rw [same], .inl (by rw [same])⟩
  | case2 lines start place s ih =>
      rw [List.cons_append, List.cons_append, lineStart, List.length_cons, List.length_cons]
      rwa [show place + (s.length + 1 + 1) = place + 2 + s.length by omega]
  | case3 lines start place c s alone ends ih =>
      cases s with
      | nil =>
          -- The text may go on with the second part of this line end.
          have ended : lines + 1 ≤ (lineStart lines start place (c :: t)).1 := lt_lineStart ends
          rcases Nat.lt_or_eq_of_le ended with more | same
          · exact .inl more
          · exact .inr ⟨same, .inr (Nat.le_refl _)⟩
      | cons c' s =>
          have next : lineStart lines start place (c :: (c' :: s ++ t)) =
              lineStart (lines + 1) (place + 1) (place + 1) (c' :: s ++ t) := by
            rw [lineStart, if_pos ends]
            rintro s' rfl whole
            exact alone s rfl (by rw [(List.cons_eq_cons.mp whole).1])
          rw [List.cons_append, next, List.length_cons,
            show place + ((c' :: s).length + 1) = place + 1 + (c' :: s).length by omega]
          exact ih
  | case4 lines start place c s alone inside ih =>
      rw [List.cons_append, lineStart, if_neg inside, List.length_cons,
        show place + (s.length + 1) = place + 1 + s.length by omega]
      · exact ih
      · rintro s' rfl
        simp at inside

end Lines

theorem slice_eq (source : Source) (start stop : Nat) :
    source.slice start stop = (source.chars.toList.drop start).take (stop - start) := by
  rw [slice, Array.toList_extract, List.extract_eq_take_drop]

/-- A later place is not shown at an earlier position. -/
theorem position_mono (source : Source) {place place' : Nat} (le : place ≤ place') :
    (source.position place).Le (source.position place') := by
  obtain ⟨more, rfl⟩ := Nat.exists_eq_add_of_le le
  have lines := lineStart_append 0 0 0 (source.chars.toList.take place)
    ((source.chars.toList.drop place).take more)
  rw [← List.take_add] at lines
  simp only [position, lineOf, slice_eq, Position.Le] at lines ⊢
  rcases lines with more | ⟨same, start | nothing⟩
  · exact .inl (by omega)
  · refine .inr ⟨by omega, Nat.succ_le_succ ?_⟩
    rw [start]
    exact columns_take_le _ (by omega)
  · refine .inr ⟨by omega, Nat.succ_le_succ ?_⟩
    rw [List.length_take, Nat.zero_add] at nothing
    rw [List.eq_nil_of_length_eq_zero (l := List.take (place - _) _)]
    · exact Nat.zero_le _
    · rw [List.length_take, List.length_drop]
      omega

end Source

end Text

end MessageCatalog
