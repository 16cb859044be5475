import MessageCatalog.Proofs.Text.Position

/-!
# The line of a place

What stands on the line of a place before it is the start of the line that is quoted for it.
The width of a text is the sum of the widths of its parts, as long as it is not cut where
characters join to one sign.
-/

namespace MessageCatalog

namespace Text

/-- Whether a text does not join with what stands before it. -/
def Seamless (s : List Char) : Prop :=
  (measure s).2 = .plain

instance (s : List Char) : Decidable (Seamless s) :=
  inferInstanceAs (Decidable (_ = _))

/-- The characters of a text between two places, whichever is the first. -/
def between (n m : Nat) (s : List Char) : List Char :=
  (s.take (max n m)).drop (min n m)

section Width

variable {s t : List Char}

theorem measure_cons (c : Char) (s : List Char) :
    measure (c :: s) =
      ((prepend c (measure s).2).1 + (measure s).1, (prepend c (measure s).2).2) := rfl

theorem measure_append (seamless : Seamless t) (s : List Char) :
    measure (s ++ t) = ((measure s).1 + (measure t).1, (measure s).2) := by
  induction s with
  | nil =>
    rw [List.nil_append, measure, Nat.zero_add]
    exact Prod.ext rfl seamless
  | cons c s ih => rw [List.cons_append, measure_cons, ih, measure_cons, Nat.add_assoc]

theorem displayWidth_append (seamless : Seamless t) (s : List Char) :
    displayWidth (s ++ t) = displayWidth s + displayWidth t := by
  rw [displayWidth, measure_append seamless]
  rfl

theorem take_append_between {n m : Nat} (le : n ≤ m) (s : List Char) :
    s.take m = s.take n ++ between n m s := by
  rw [between, Nat.max_eq_right le, Nat.min_eq_left le]
  conv => lhs; rw [← List.take_append_drop n (s.take m)]
  rw [List.take_take, Nat.min_eq_left le]

theorem between_comm (n m : Nat) (s : List Char) : between n m s = between m n s := by
  rw [between, between, Nat.max_comm, Nat.min_comm]

/-- Two starts of a text take the same columns exactly if the characters between their ends
take none. -/
theorem displayWidth_take_eq_iff {n m : Nat} (seamless : Seamless (between n m s)) :
    displayWidth (s.take m) = displayWidth (s.take n) ↔ displayWidth (between n m s) = 0 := by
  rcases Nat.le_total n m with le | le
  · rw [take_append_between le, displayWidth_append seamless]
    omega
  · rw [between_comm] at seamless ⊢
    rw [take_append_between le, displayWidth_append seamless]
    omega

end Width

namespace Source

/-- What stands before a place on its line. -/
def before (source : Source) (place : Nat) : List Char :=
  source.slice (source.lineOf place).2 place

section Lines

variable {lines start place : Nat}

theorem le_lineStart (s : List Char) (le : start ≤ place) :
    start ≤ (lineStart lines start place s).2 := by
  fun_induction lineStart lines start place s with
  | case1 => exact Nat.le_refl _
  | case2 lines start place s ih => exact Nat.le_trans (by omega) (ih (Nat.le_refl _))
  | case3 lines start place c s alone ends ih => exact Nat.le_trans (by omega) (ih (Nat.le_refl _))
  | case4 lines start place c s alone inside ih => exact ih (by omega)

/-- There is no line feed behind the start of the last line. -/
theorem lineFeed_not_mem_drop (s : List Char) (le : start ≤ place) :
    '\n' ∉ s.drop ((lineStart lines start place s).2 - place) := by
  fun_induction lineStart lines start place s with
  | case1 => simp
  | case2 lines start place s ih =>
    have later : place + 2 ≤ (lineStart (lines + 1) (place + 2) (place + 2) s).2 :=
      le_lineStart s (Nat.le_refl (place + 2))
    rw [show (lineStart (lines + 1) (place + 2) (place + 2) s).2 - place =
      (lineStart (lines + 1) (place + 2) (place + 2) s).2 - (place + 2) + 2 by omega]
    exact ih (Nat.le_refl _)
  | case3 lines start place c s alone ends ih =>
    have later : place + 1 ≤ (lineStart (lines + 1) (place + 1) (place + 1) s).2 :=
      le_lineStart s (Nat.le_refl (place + 1))
    rw [show (lineStart (lines + 1) (place + 1) (place + 1) s).2 - place =
      (lineStart (lines + 1) (place + 1) (place + 1) s).2 - (place + 1) + 1 by omega]
    exact ih (Nat.le_refl _)
  | case4 lines start place c s alone inside ih =>
    have rest := ih (by omega)
    rcases Nat.lt_or_ge place (lineStart lines start (place + 1) s).2 with behind | here
    · rw [show (lineStart lines start (place + 1) s).2 - place =
        (lineStart lines start (place + 1) s).2 - (place + 1) + 1 by omega]
      exact rest
    · rw [Nat.sub_eq_zero_of_le (by omega)] at rest
      rw [Nat.sub_eq_zero_of_le here, List.drop_zero, List.mem_cons, not_or]
      refine ⟨?_, rest⟩
      rintro rfl
      exact inside rfl

end Lines

theorem lineFeed_not_mem_before (source : Source) (place : Nat) :
    '\n' ∉ source.before place := by
  have last : '\n' ∉ (source.chars.toList.take place).drop
      ((lineStart 0 0 0 (source.chars.toList.take place)).2 - 0) :=
    lineFeed_not_mem_drop (source.chars.toList.take place) (Nat.le_refl 0)
  rw [Nat.sub_zero] at last
  rwa [before, slice_eq, ← List.drop_take]

/-- The quoted line starts with what stands before the place. -/
theorem before_isPrefix_quotedLine (source : Source) (place : Nat) :
    source.before place <+: source.quotedLine place := by
  let line := source.chars.toList.drop (source.lineOf place).2
  have start : source.before place = line.take (place - (source.lineOf place).2) := slice_eq ..
  have whole : source.slice (source.lineOf place).2 source.chars.size = line := by
    rw [slice_eq]
    refine List.take_of_length_le (Nat.le_of_eq ?_)
    rw [List.length_drop, Array.length_toList]
  change _ <+: (source.slice (source.lineOf place).2 source.chars.size).takeWhile (· != '\n')
  rw [whole, ← List.take_append_drop (place - (source.lineOf place).2) line, ← start,
    List.takeWhile_append_of_pos]
  · exact List.prefix_append _ _
  · intro c among
    rw [bne_iff_ne]
    rintro rfl
    exact lineFeed_not_mem_before source place among

theorem take_quotedLine (source : Source) (place : Nat) :
    (source.quotedLine place).take (source.before place).length = source.before place :=
  (List.prefix_iff_eq_take.mp (before_isPrefix_quotedLine source place)).symm

end Source

end Text

end MessageCatalog
