import MessageCatalog.Text.Blank

/-!
# Trimming

Blanks at either end make no difference to a trimmed text, and a trimmed text has none:
trimming it once more leaves it as it is. What is left is a part of the text, so every
property of all its characters is kept.
-/

namespace MessageCatalog

namespace Text

variable {s t : List Char} {c : Char}

theorem dropBlankEnd_prefix_self (s : List Char) : dropBlankEnd s <+: s := by
  induction s with
  | nil => exact List.nil_prefix
  | cons c s ih =>
      rw [dropBlankEnd]
      split
      · split
        · exact List.nil_prefix
        · exact ⟨s, rfl⟩
      · exact (List.prefix_cons_inj c).mpr ih

theorem dropBlankEnd_blanks (blank : ∀ c ∈ t, isBlank c = true) : dropBlankEnd t = [] := by
  induction t with
  | nil => rfl
  | cons c t ih =>
      rw [dropBlankEnd, ih fun d hd => blank d (List.mem_cons_of_mem c hd)]
      exact if_pos (blank c List.mem_cons_self)

theorem dropBlankEnd_append (s : List Char) (blank : ∀ c ∈ t, isBlank c = true) :
    dropBlankEnd (s ++ t) = dropBlankEnd s := by
  induction s with
  | nil => exact dropBlankEnd_blanks blank
  | cons c s ih => rw [List.cons_append, dropBlankEnd, dropBlankEnd, ih]

@[simp] theorem dropBlankEnd_dropBlankEnd (s : List Char) :
    dropBlankEnd (dropBlankEnd s) = dropBlankEnd s := by
  induction s with
  | nil => rfl
  | cons c s ih =>
      cases h : dropBlankEnd s with
      | nil =>
          cases hc : isBlank c with
          | false => simp [dropBlankEnd, h, hc]
          | true => simp [dropBlankEnd, h, hc]
      | cons d t =>
          have keep : dropBlankEnd (c :: s) = c :: dropBlankEnd s := by
            simp [dropBlankEnd, h]
          rw [keep, dropBlankEnd, ih, h]

theorem dropWhile_of_prefix (h : t <+: s.dropWhile isBlank) : t.dropWhile isBlank = t := by
  cases t with
  | nil => rfl
  | cons c t =>
      obtain ⟨r, whole⟩ := h
      have first : (s.dropWhile isBlank).head? = some c := by rw [← whole]; rfl
      have visible := List.head?_dropWhile_not isBlank s
      rw [first] at visible
      exact List.dropWhile_cons_of_neg (by simpa using visible)

/-- A trimmed text has nothing left to trim. -/
@[simp] theorem trimChars_trimChars (s : List Char) :
    trimChars (trimChars s) = trimChars s := by
  rw [trimChars, trimChars, dropWhile_of_prefix (dropBlankEnd_prefix_self _),
    dropBlankEnd_dropBlankEnd]

theorem trimChars_append (s : List Char) (blank : ∀ c ∈ t, isBlank c = true) :
    trimChars (s ++ t) = trimChars s := by
  rw [trimChars, trimChars, List.dropWhile_append]
  split
  · rename_i empty
    rw [List.isEmpty_iff.mp empty, dropBlankEnd_nil]
    exact dropBlankEnd_blanks fun c hc => blank c ((List.dropWhile_suffix _).subset hc)
  · exact dropBlankEnd_append _ blank

theorem trimChars_cons (blank : isBlank c = true) : trimChars (c :: s) = trimChars s := by
  rw [trimChars, trimChars, List.dropWhile_cons_of_pos blank]

theorem blank_of_dropBlankEnd_eq_nil (empty : dropBlankEnd s = []) :
    ∀ c ∈ s, isBlank c = true := by
  induction s with
  | nil => exact fun c here => absurd here List.not_mem_nil
  | cons d s ih =>
      rw [dropBlankEnd] at empty
      split at empty
      · rename_i rest
        split at empty
        · rename_i blank
          exact List.forall_mem_cons.mpr ⟨blank, ih rest⟩
        · exact absurd empty (List.cons_ne_nil _ _)
      · exact absurd empty (List.cons_ne_nil _ _)

/-- A text with a visible character is not trimmed to nothing. -/
theorem trimChars_ne_nil (here : c ∈ s) (visible : isBlank c = false) : trimChars s ≠ [] := by
  intro empty
  have blank := blank_of_dropBlankEnd_eq_nil empty
  rw [← List.takeWhile_append_dropWhile (p := isBlank) (l := s), List.mem_append] at here
  rcases here with front | rest
  · have blank := List.all_eq_true.mp List.all_takeWhile c front
    exact absurd blank (by simp [visible])
  · exact absurd (blank c rest) (by simp [visible])

theorem trimChars_sublist (s : List Char) : (trimChars s).Sublist s :=
  (dropBlankEnd_prefix_self _).sublist.trans (List.dropWhile_suffix _).sublist

theorem trimChars_eq_nil_iff : trimChars s = [] ↔ ∀ c ∈ s, isBlank c = true := by
  constructor
  · intro empty c here
    rw [← Bool.not_eq_false]
    intro visible
    exact trimChars_ne_nil here visible empty
  · intro blank
    exact trimChars_append [] blank

/-! ### Both ends -/

theorem dropBlankEnd_concat (s : List Char) (visible : isBlank c = false) :
    dropBlankEnd (s ++ [c]) = s ++ [c] := by
  induction s with
  | nil => simp [dropBlankEnd, visible]
  | cons d s ih =>
      rw [List.cons_append, dropBlankEnd, ih]
      split
      · rename_i empty
        exact absurd empty (by simp)
      · rfl

theorem dropBlankEnd_eq_self_iff :
    dropBlankEnd s = s ↔ ∀ c ∈ s.getLast?, isBlank c = false := by
  rcases List.eq_nil_or_concat s with rfl | ⟨front, last, rfl⟩
  · simp
  · rw [List.concat_eq_append, List.getLast?_concat]
    simp only [Option.mem_some_iff, forall_eq']
    constructor
    · intro same
      rw [← Bool.not_eq_true]
      intro blank
      have shorter := (dropBlankEnd_prefix_self front).length_le
      rw [← dropBlankEnd_append front (t := [last]) (by simpa using blank), same,
        List.length_append, List.length_singleton] at shorter
      omega
    · exact dropBlankEnd_concat front

theorem dropWhile_eq_self_iff :
    s.dropWhile isBlank = s ↔ ∀ c ∈ s.head?, isBlank c = false := by
  cases s with
  | nil => simp
  | cons c s =>
      rw [List.dropWhile_cons]
      split
      · rename_i blank
        have longer : s.dropWhile isBlank ≠ c :: s := by
          intro same
          have shorter := (List.dropWhile_suffix (l := s) isBlank).length_le
          rw [same, List.length_cons] at shorter
          omega
        simp [longer, blank]
      · rename_i visible
        simpa using visible

/-- A text is trimmed already if its first and its last character can be seen. -/
theorem trimChars_eq_self_iff : trimChars s = s ↔
    (∀ c ∈ s.head?, isBlank c = false) ∧ ∀ c ∈ s.getLast?, isBlank c = false := by
  rw [← dropWhile_eq_self_iff, ← dropBlankEnd_eq_self_iff, trimChars]
  constructor
  · intro same
    have front : s.dropWhile isBlank = s := by
      refine (List.dropWhile_suffix isBlank).eq_of_length ?_
      have shorter := (dropBlankEnd_prefix_self (s.dropWhile isBlank)).length_le
      have longest := (List.dropWhile_suffix (l := s) isBlank).length_le
      rw [same] at shorter
      omega
    rw [front] at same
    exact ⟨front, same⟩
  · rintro ⟨front, back⟩
    rw [front, back]

/-- The text is not empty and has no blanks at its ends. -/
def IsTrimmed (text : String) : Prop :=
  text ≠ "" ∧ trim text = text

theorem trim_eq_self_iff {text : String} : trim text = text ↔
    (∀ c ∈ text.toList.head?, isBlank c = false) ∧
      ∀ c ∈ text.toList.getLast?, isBlank c = false := by
  rw [← trimChars_eq_self_iff, trim, ← String.toList_inj, String.toList_ofList]

theorem trim_eq_empty_iff {text : String} :
    trim text = "" ↔ ∀ c ∈ text.toList, isBlank c = true := by
  rw [← trimChars_eq_nil_iff, trim, ← String.toList_inj, String.toList_ofList]
  rfl

theorem isTrimmed_trim {text : String} (inhabited : trim text ≠ "") : IsTrimmed (trim text) := by
  refine ⟨inhabited, ?_⟩
  rw [trim, trim, String.toList_ofList, trimChars_trimChars]

/-- The first and the last character of a trimmed text can be seen. -/
theorem isTrimmed_iff {text : String} : IsTrimmed text ↔
    (∃ c ∈ text.toList.head?, isBlank c = false) ∧
      ∃ c ∈ text.toList.getLast?, isBlank c = false := by
  rw [IsTrimmed, trim_eq_self_iff, ne_eq, ← String.toList_eq_nil_iff]
  cases first : text.toList.head? with
  | none => simp [List.head?_eq_none_iff.mp first]
  | some c =>
      have some : text.toList ≠ [] := fun none => by simp [none] at first
      rw [List.getLast?_eq_some_getLast some]
      simp [some]

end Text

end MessageCatalog
