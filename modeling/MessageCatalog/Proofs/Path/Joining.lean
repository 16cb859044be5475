import Mathlib.Data.List.Basic
import MessageCatalog.Proofs.Path.Components

/-!
# Joining paths

Going below a path in two steps leads to the same path, with the same spelling, as going below
it in one. What stands behind the start of relative paths adds up, so that a path below another
one can be told from what was added alone: whether it goes down only, what its components are,
and whether it lies below a third one.
-/

namespace MessageCatalog

namespace Path

/-- Whether relative paths below a path are put behind a text and a separator. -/
def IsStem (path : Path) (stem : List Char) : Prop :=
  ∀ rest : Path, rest.isAbsolute = false → path ++ rest = ⟨stem ++ separator :: rest.text⟩

section Joining

variable {base path rest other : Path}

/-! ### Texts -/

/-- The stem of a path is its text, without a separator at its end. -/
theorem exists_stem (inhabited : base.text ≠ []) :
    ∃ stem, (base.text = stem ∨ base.text = stem ++ [separator]) ∧ IsStem base stem := by
  obtain ⟨front, last, text⟩ : ∃ front last, base.text = front ++ [last] := by
    rcases List.eq_nil_or_concat base.text with none | ⟨front, last, text⟩
    · exact absurd none inhabited
    · exact ⟨front, last, text.trans (List.concat_eq_append ..)⟩
  have ends : base.text.getLast? = some last := by rw [text, List.getLast?_concat]
  by_cases same : last = separator
  · refine ⟨front, .inr (same ▸ text), fun path relative => ?_⟩
    rw [append_of_getLast? relative ends, if_pos same, text, same, List.append_assoc,
      List.singleton_append]
  · refine ⟨base.text, .inl rfl, fun path relative => ?_⟩
    rw [append_of_getLast? relative ends, if_neg same]

theorem isAbsolute_of_head (same : path.text.head? = base.text.head?) :
    path.isAbsolute = base.isAbsolute := by
  rw [isAbsolute, isAbsolute, same]

/-- What is joined of relative paths is relative. -/
theorem not_isAbsolute_append (first : path.isAbsolute = false) (second : rest.isAbsolute = false) :
    (path ++ rest).isAbsolute = false := by
  rcases eq_or_ne path.text [] with empty | inhabited
  · rwa [append_of_text_eq_nil empty]
  · obtain ⟨stem, text, joined⟩ := exists_stem inhabited
    rw [joined rest second, ← first]
    apply isAbsolute_of_head
    rcases text with text | text
    · rw [text] at inhabited ⊢
      exact List.head?_append_of_ne_nil _ inhabited
    · rw [text, List.append_cons]
      exact List.head?_append_of_ne_nil _ (List.append_ne_nil_of_right_ne_nil _ (by simp))

theorem append_assoc (base path rest : Path) : base ++ path ++ rest = base ++ (path ++ rest) := by
  cases second : rest.isAbsolute with
  | true =>
    rw [append_of_isAbsolute second, append_of_isAbsolute second, append_of_isAbsolute second]
  | false =>
    cases first : path.isAbsolute with
    | true => rw [append_of_isAbsolute first, append_of_isAbsolute (isAbsolute_append first rest)]
    | false =>
      rcases eq_or_ne base.text [] with empty | inhabited
      · rw [append_of_text_eq_nil empty, append_of_text_eq_nil empty]
      · obtain ⟨stem, -, joined⟩ := exists_stem inhabited
        rw [joined _ first, joined _ (not_isAbsolute_append first second)]
        rcases List.eq_nil_or_concat path.text with none | ⟨front, last, text⟩
        · have ends : (stem ++ separator :: path.text).getLast? = some separator := by
            rw [none, List.getLast?_concat]
          rw [append_of_getLast? second ends, if_pos rfl, append_of_text_eq_nil none, none,
            List.append_assoc, List.singleton_append]
        · rw [List.concat_eq_append] at text
          have ends : path.text.getLast? = some last := by rw [text, List.getLast?_concat]
          have ends' : (stem ++ separator :: path.text).getLast? = some last := by
            rw [text, ← List.cons_append, ← List.append_assoc, List.getLast?_concat]
          rw [append_of_getLast? second ends, append_of_getLast? second ends']
          split <;> simp

/-- A separator at the end of a path is not seen below it. -/
theorem append_empty_append (base rest : Path) : base ++ empty ++ rest = base ++ rest := by
  have same : empty ++ rest = rest := append_of_text_eq_nil rfl rest
  rw [append_assoc, same]

/-- Below the root, different texts are different paths. -/
theorem separator_append_inj (first : path.isAbsolute = false) (second : rest.isAbsolute = false)
    (same : (⟨[separator]⟩ : Path) ++ path = ⟨[separator]⟩ ++ rest) : path = rest := by
  have ends : (⟨[separator]⟩ : Path).text.getLast? = some separator := rfl
  rw [append_of_getLast? first ends, append_of_getLast? second ends, if_pos rfl, if_pos rfl] at same
  exact congrArg Path.mk (List.append_cancel_left (congrArg Path.text same))

/-! ### Components -/

theorem below_of_text_eq_nil (empty : path.text = []) : path.below = [] := by
  rw [← filterMap_pieces, empty]
  rfl

/-- What stands behind the start of relative paths adds up. -/
theorem below_append (second : rest.isAbsolute = false) :
    (path ++ rest).below = path.below ++ rest.below := by
  rcases eq_or_ne path.text [] with empty | inhabited
  · rw [append_of_text_eq_nil empty, below_of_text_eq_nil empty, List.nil_append]
  · obtain ⟨stem, text, joined⟩ := exists_stem inhabited
    rw [joined rest second, ← filterMap_pieces, ← filterMap_pieces path, ← filterMap_pieces rest,
      pieces_append_separator, List.filterMap_append]
    rcases text with text | text
    · rw [text]
    · rw [text, pieces_append_separator, List.filterMap_append, pieces_nil,
        List.filterMap_cons_none rfl, List.filterMap_nil, List.append_nil]

/-- Whether a path goes down only is decided behind its start. -/
theorem isStraight_iff_below : path.IsStraight ↔ .parent ∉ path.below := by
  have start : .parent ∉ path.parts.lead.toList := by
    obtain ⟨s, -, parts⟩ | ⟨-, parts⟩ | ⟨s, -, parts⟩ | ⟨parts, -⟩ := parts_cases path <;>
      simp [parts]
  rw [IsStraight, components_eq_append, List.mem_append, not_or]
  exact and_iff_right start

theorem IsStraight.append (first : path.IsStraight) (second : rest.IsStraight)
    (relative : rest.isAbsolute = false) : (path ++ rest).IsStraight := by
  rw [isStraight_iff_below] at first second ⊢
  rw [below_append relative, List.mem_append, not_or]
  exact ⟨first, second⟩

/-- The pieces of a path that goes down only go down. -/
theorem IsStraight.pieces (straight : path.IsStraight) {piece : List Char}
    (among : piece ∈ Path.pieces path.text) : component? piece ≠ some .parent := by
  rw [isStraight_iff_below, ← filterMap_pieces] at straight
  exact fun up => straight (List.mem_filterMap.mpr ⟨piece, among, up⟩)

/-- Below a common path, one path lies below another if it does so without it. -/
theorem startsWith_append (inhabited : base.text ≠ []) (first : path.isAbsolute = false)
    (second : other.isAbsolute = false) :
    (base ++ path).startsWith (base ++ other) = other.below.isPrefixOf path.below := by
  rw [startsWith, components_append first inhabited, components_append second inhabited,
    Bool.eq_iff_iff, List.isPrefixOf_iff_prefix, List.isPrefixOf_iff_prefix,
    List.prefix_append_right_inj]

theorem components_append_empty (inhabited : base.text ≠ []) :
    (base ++ empty).components = base.components := by
  have none : empty.below = [] := below_of_text_eq_nil rfl
  rw [components_append rfl inhabited, none, List.append_nil]

/-- Where a path lies below another one is decided by the components of that. -/
theorem relativeTo?_congr (same : base.components = other.components) (path : Path) :
    path.relativeTo? base = path.relativeTo? other := by
  rw [relativeTo?, relativeTo?, startsWith, startsWith, same]

end Joining

end Path

end MessageCatalog
