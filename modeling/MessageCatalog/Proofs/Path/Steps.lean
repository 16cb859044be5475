import Mathlib.Data.List.Induction
import MessageCatalog.Path.Basic

/-!
# The steps of a path

The pieces of a path that stand for components are its steps. Two absolute paths have the
same components exactly if they have the same steps, and one lies below another exactly if
its steps go on from there; the silent pieces matter for the spelling only.

Operations on paths are stated by what they do to the steps: going below a path appends
steps, and the path that contains another one drops the last step.
-/

namespace MessageCatalog

namespace Path

/-- The pieces that stand for components. -/
def spoken (pieces : List (List Char)) : List (List Char) :=
  pieces.filter (!isSilent ·)

/-- The steps of a path behind what it starts with. -/
def steps (path : Path) : List (List Char) :=
  spoken path.parts.body

/-- Whether a path only goes down. -/
def IsStraight (path : Path) : Prop :=
  Component.parent ∉ path.components

instance (path : Path) : Decidable path.IsStraight :=
  inferInstanceAs (Decidable (_ ∉ _))

/-- Whether a path starts at the root and ends in a name. -/
def IsNamed (path : Path) : Prop :=
  ∃ front last, path.parts = ⟨some .root, front ++ [last]⟩ ∧
    component? last = some (.name last)

section Pieces

variable {s t piece : List Char} {pieces body others : List (List Char)} {path base : Path}

/-! ### Pieces and texts -/

theorem pieces_nil : Path.pieces [] = [[]] := rfl

theorem pieces_separator (s : List Char) : Path.pieces (separator :: s) = [] :: Path.pieces s := by
  simp [Path.pieces, cut]

theorem pieces_cons {c : Char} (plain : c ≠ separator) (s : List Char) :
    Path.pieces (c :: s) = (c :: (cut s).1) :: (cut s).2 := by
  simp [Path.pieces, cut, plain]

theorem pieces_append_separator (s t : List Char) :
    Path.pieces (s ++ separator :: t) = Path.pieces s ++ Path.pieces t := by
  induction s with
  | nil => exact pieces_separator t
  | cons c s ih =>
    rw [List.cons_append]
    by_cases same : c = separator
    · rw [same, pieces_separator, pieces_separator, ih, List.cons_append]
    · rw [pieces_cons same, pieces_cons same]
      rw [Path.pieces, Path.pieces, List.cons_append, List.cons.injEq] at ih
      rw [ih.1, ih.2, List.cons_append]

theorem separator_not_mem_of_mem_pieces (among : piece ∈ Path.pieces s) : separator ∉ piece := by
  induction s generalizing piece with
  | nil =>
    rw [pieces_nil, List.mem_singleton] at among
    rw [among]
    exact List.not_mem_nil
  | cons c s ih =>
    by_cases same : c = separator
    · rw [same, pieces_separator] at among
      rcases List.mem_cons.mp among with rfl | among
      · exact List.not_mem_nil
      · exact ih among
    · rw [pieces_cons same] at among
      rcases List.mem_cons.mp among with rfl | among
      · intro here
        rcases List.mem_cons.mp here with first | later
        · exact same first.symm
        · exact ih List.mem_cons_self later
      · exact ih (List.mem_cons_of_mem _ among)

theorem pieces_of_plain (plain : separator ∉ s) : Path.pieces s = [s] := by
  induction s with
  | nil => rfl
  | cons c s ih =>
    rw [List.mem_cons, not_or] at plain
    have rest := ih plain.2
    rw [Path.pieces, List.cons.injEq] at rest
    rw [pieces_cons (Ne.symm plain.1), rest.1, rest.2]

theorem pieces_join (plain : ∀ piece ∈ body, separator ∉ piece) (some : body ≠ []) :
    Path.pieces (join body) = body := by
  induction body with
  | nil => exact absurd rfl some
  | cons piece body ih =>
    have first := plain piece List.mem_cons_self
    cases body with
    | nil => exact pieces_of_plain first
    | cons next body =>
      have others := fun other among => plain other (List.mem_cons_of_mem piece among)
      rw [join, pieces_append_separator, pieces_of_plain first,
        ih others (List.cons_ne_nil next body), List.singleton_append]
      exact fun empty => List.cons_ne_nil next body empty

theorem length_pieces_le (s : List Char) : (Path.pieces s).length ≤ s.length + 1 := by
  induction s with
  | nil => exact Nat.le_refl _
  | cons c s ih =>
    by_cases same : c = separator
    · rw [same, pieces_separator, List.length_cons, List.length_cons]
      omega
    · rw [pieces_cons same, List.length_cons, List.length_cons]
      rw [Path.pieces, List.length_cons] at ih
      omega

/-- Text without separators goes on with the last piece. -/
theorem pieces_append_of_plain (s : List Char) (plain : separator ∉ t) :
    ∃ front last, Path.pieces (s ++ t) = front ++ [last ++ t] := by
  induction s with
  | nil => exact ⟨[], [], pieces_of_plain plain⟩
  | cons c s ih =>
    obtain ⟨front, last, cutting⟩ := ih
    rw [List.cons_append]
    by_cases same : c = separator
    · refine ⟨[] :: front, last, ?_⟩
      rw [same, pieces_separator, cutting, List.cons_append]
    · rw [Path.pieces] at cutting
      rw [pieces_cons same]
      cases front with
      | nil =>
        rw [List.nil_append, List.cons.injEq] at cutting
        exact ⟨[], c :: last, by rw [cutting.1, cutting.2]; rfl⟩
      | cons piece front =>
        rw [List.cons_append, List.cons.injEq] at cutting
        exact ⟨(c :: piece) :: front, last, by rw [cutting.1, cutting.2]; rfl⟩

/-! ### Spoken pieces -/

theorem isSilent_iff : isSilent piece = true ↔ component? piece = none := by
  rw [isSilent, Option.isNone_iff_eq_none]

theorem isSilent_nil : isSilent [] = true := rfl

/-- A piece that is not silent stands for a parent or for itself. -/
theorem component?_of_spoken (loud : isSilent piece = false) :
    component? piece = some .parent ∧ piece = ['.', '.'] ∨
      component? piece = some (.name piece) := by
  rw [isSilent, Option.isNone_eq_false_iff] at loud
  revert loud
  rw [component?.eq_def]
  split
  · exact fun none => absurd none (by simp)
  · exact fun none => absurd none (by simp)
  · exact fun _ => .inl ⟨rfl, rfl⟩
  · exact fun _ => .inr rfl

@[simp] theorem spoken_nil : spoken [] = [] := rfl

theorem spoken_append (pieces others : List (List Char)) :
    spoken (pieces ++ others) = spoken pieces ++ spoken others :=
  List.filter_append ..

theorem spoken_cons_silent (silent : isSilent piece = true) (pieces : List (List Char)) :
    spoken (piece :: pieces) = spoken pieces :=
  List.filter_cons_of_neg (by simp [silent])

theorem spoken_cons_spoken (loud : isSilent piece = false) (pieces : List (List Char)) :
    spoken (piece :: pieces) = piece :: spoken pieces :=
  List.filter_cons_of_pos (by simp [loud])

theorem isSilent_of_mem_spoken (among : piece ∈ spoken pieces) : isSilent piece = false := by
  simpa using (List.mem_filter.mp among).2

theorem mem_of_mem_spoken (among : piece ∈ spoken pieces) : piece ∈ pieces :=
  (List.mem_filter.mp among).1

theorem spoken_of_forall (loud : ∀ piece ∈ pieces, isSilent piece = false) :
    spoken pieces = pieces :=
  List.filter_eq_self.mpr fun piece among => by simp [loud piece among]

theorem filterMap_component?_spoken (pieces : List (List Char)) :
    (spoken pieces).filterMap component? = pieces.filterMap component? := by
  induction pieces with
  | nil => rfl
  | cons piece pieces ih =>
    cases silent : isSilent piece with
    | true =>
      rw [spoken_cons_silent silent, List.filterMap_cons_none (isSilent_iff.mp silent), ih]
    | false =>
      obtain ⟨component, stands⟩ : ∃ component, component? piece = some component := by
        rcases component?_of_spoken silent with ⟨up, -⟩ | down
        · exact ⟨_, up⟩
        · exact ⟨_, down⟩
      rw [spoken_cons_spoken silent, List.filterMap_cons_some stands,
        List.filterMap_cons_some stands, ih]

/-- The piece that stands for a component behind the start of a path. -/
def pieceOf : Component → List Char
  | .name text => text
  | .parent => ['.', '.']
  | _ => []

theorem map_pieceOf_filterMap (loud : ∀ piece ∈ pieces, isSilent piece = false) :
    (pieces.filterMap component?).map pieceOf = pieces := by
  induction pieces with
  | nil => rfl
  | cons piece pieces ih =>
    have others := fun other among => loud other (List.mem_cons_of_mem piece among)
    rcases component?_of_spoken (loud piece List.mem_cons_self) with ⟨up, rfl⟩ | down
    · rw [List.filterMap_cons_some up, List.map_cons, ih others, pieceOf]
    · rw [List.filterMap_cons_some down, List.map_cons, ih others, pieceOf]

theorem spoken_eq_map_pieceOf (pieces : List (List Char)) :
    spoken pieces = (pieces.filterMap component?).map pieceOf := by
  rw [← filterMap_component?_spoken, map_pieceOf_filterMap]
  exact fun piece among => isSilent_of_mem_spoken among

theorem filterMap_component?_names
    (names : ∀ piece ∈ pieces, component? piece = some (.name piece)) :
    pieces.filterMap component? = pieces.map .name := by
  induction pieces with
  | nil => rfl
  | cons piece pieces ih =>
    rw [List.filterMap_cons_some (names piece List.mem_cons_self), List.map_cons,
      ih fun other among => names other (List.mem_cons_of_mem piece among)]

/-! ### Dropping silent pieces -/

theorem trimEnd_concat_silent (silent : isSilent piece = true) (body : List (List Char)) :
    trimEnd (body ++ [piece]) = trimEnd body := by
  rw [trimEnd, List.reverse_concat, List.dropWhile_cons_of_pos silent, trimEnd]

theorem trimEnd_concat_spoken (loud : isSilent piece = false) (body : List (List Char)) :
    trimEnd (body ++ [piece]) = body ++ [piece] := by
  rw [trimEnd, List.reverse_concat, List.dropWhile_cons_of_neg (by simp [loud]),
    List.reverse_cons, List.reverse_reverse]

theorem trimEnd_isPrefix (body : List (List Char)) : trimEnd body <+: body := by
  rw [trimEnd, ← List.reverse_suffix, List.reverse_reverse]
  exact List.dropWhile_suffix _

theorem mem_of_mem_trimEnd (among : piece ∈ trimEnd body) : piece ∈ body :=
  (trimEnd_isPrefix body).subset among

theorem spoken_trimEnd (body : List (List Char)) : spoken (trimEnd body) = spoken body := by
  induction body using List.reverseRecOn with
  | nil => rfl
  | append_singleton body piece ih =>
    cases silent : isSilent piece with
    | true =>
      rw [trimEnd_concat_silent silent, ih, spoken_append, spoken_cons_silent silent,
        spoken_nil, List.append_nil]
    | false => rw [trimEnd_concat_spoken silent]

/-- A body without silent pieces at its end is empty or ends in a spoken one. -/
theorem trimEnd_cases (body : List (List Char)) :
    trimEnd body = [] ∨
      ∃ front last, trimEnd body = front ++ [last] ∧ isSilent last = false := by
  induction body using List.reverseRecOn with
  | nil => exact .inl rfl
  | append_singleton body piece ih =>
    cases silent : isSilent piece with
    | true =>
      rw [trimEnd_concat_silent silent]
      exact ih
    | false => exact .inr ⟨body, piece, trimEnd_concat_spoken silent body, silent⟩

theorem spoken_dropWhile (body : List (List Char)) :
    spoken (body.dropWhile isSilent) = spoken body := by
  induction body with
  | nil => rfl
  | cons piece body ih =>
    cases silent : isSilent piece with
    | true => rw [List.dropWhile_cons_of_pos silent, spoken_cons_silent silent, ih]
    | false => rw [List.dropWhile_cons_of_neg (by simp [silent])]

theorem spoken_dropComponents (n : Nat) (body : List (List Char)) :
    spoken (dropComponents n body) = (spoken body).drop n := by
  induction body generalizing n with
  | nil => cases n <;> rfl
  | cons piece body ih =>
    cases n with
    | zero => rw [dropComponents, List.drop_zero]
    | succ n =>
      rw [dropComponents]
      cases silent : isSilent piece with
      | true => rw [if_pos rfl, ih, spoken_cons_silent silent]
      | false => rw [if_neg (by simp), ih, spoken_cons_spoken silent, List.drop_succ_cons]

theorem dropComponents_suffix (n : Nat) (body : List (List Char)) :
    dropComponents n body <:+ body := by
  induction body generalizing n with
  | nil => cases n <;> exact List.suffix_refl _
  | cons piece body ih =>
    cases n with
    | zero => exact List.suffix_refl _
    | succ n =>
      rw [dropComponents]
      split
      · exact (ih (n + 1)).trans (List.suffix_cons piece body)
      · exact (ih n).trans (List.suffix_cons piece body)

/-! ### Paths from the root -/

theorem isAbsolute_iff : path.isAbsolute = true ↔ ∃ s, path.text = separator :: s := by
  rw [isAbsolute, decide_eq_true_iff]
  cases path.text with
  | nil => simp
  | cons c s => simp

theorem parts_of_text (text : path.text = separator :: s) :
    path.parts = ⟨some .root, Path.pieces s⟩ := by
  rw [parts, text]
  rfl

theorem isAbsolute_of_lead (lead : path.parts.lead = some .root) : path.isAbsolute = true := by
  rw [isAbsolute_iff]
  rw [parts] at lead
  split at lead
  · rename_i s text
    exact ⟨s, text⟩
  · exact absurd lead (by simp)
  · exact absurd lead (by simp)
  · exact absurd lead (by simp)

theorem lead_of_isAbsolute (absolute : path.isAbsolute = true) :
    path.parts.lead = some .root := by
  obtain ⟨s, text⟩ := isAbsolute_iff.mp absolute
  rw [parts_of_text text]

theorem IsNamed.isAbsolute (named : path.IsNamed) : path.isAbsolute = true := by
  obtain ⟨front, last, parts, -⟩ := named
  exact isAbsolute_of_lead (by rw [parts])

theorem separator_not_mem_of_mem_body (among : piece ∈ path.parts.body) :
    separator ∉ piece := by
  rw [parts] at among
  split at among
  · exact separator_not_mem_of_mem_pieces among
  · exact absurd among List.not_mem_nil
  · rcases List.mem_cons.mp among with rfl | among
    · exact List.not_mem_nil
    · exact separator_not_mem_of_mem_pieces among
  · exact separator_not_mem_of_mem_pieces among

theorem separator_not_mem_of_mem_steps (among : piece ∈ path.steps) : separator ∉ piece :=
  separator_not_mem_of_mem_body (mem_of_mem_spoken among)

theorem components_eq (path : Path) :
    path.components = path.parts.lead.toList ++ path.steps.filterMap component? := by
  rw [components, steps, filterMap_component?_spoken]

theorem components_of_isAbsolute (absolute : path.isAbsolute = true) :
    path.components = .root :: path.steps.filterMap component? := by
  rw [components_eq, lead_of_isAbsolute absolute]
  rfl

theorem steps_eq_map_pieceOf (path : Path) :
    path.steps = (path.parts.body.filterMap component?).map pieceOf :=
  spoken_eq_map_pieceOf _

/-- Absolute paths have the same components if they have the same steps. -/
theorem components_eq_iff (absolute : path.isAbsolute = true) (absolute' : base.isAbsolute = true) :
    path.components = base.components ↔ path.steps = base.steps := by
  refine ⟨fun same => ?_, fun same => ?_⟩
  · rw [components, components, lead_of_isAbsolute absolute, lead_of_isAbsolute absolute'] at same
    rw [steps_eq_map_pieceOf, steps_eq_map_pieceOf, List.append_cancel_left same]
  · rw [components_of_isAbsolute absolute, components_of_isAbsolute absolute', same]

theorem startsWith_iff (absolute : path.isAbsolute = true) (absolute' : base.isAbsolute = true) :
    path.startsWith base = true ↔ base.steps <+: path.steps := by
  rw [startsWith, List.isPrefixOf_iff_prefix]
  refine ⟨fun start => ?_, fun start => ?_⟩
  · rw [components, components, lead_of_isAbsolute absolute, lead_of_isAbsolute absolute',
      List.prefix_append_right_inj] at start
    rw [steps_eq_map_pieceOf, steps_eq_map_pieceOf]
    exact start.map pieceOf
  · rw [components_of_isAbsolute absolute, components_of_isAbsolute absolute',
      List.prefix_cons_inj]
    exact start.filterMap component?

theorem isStraight_iff (absolute : path.isAbsolute = true) :
    path.IsStraight ↔ ∀ piece ∈ path.steps, component? piece = some (.name piece) := by
  rw [IsStraight, components_of_isAbsolute absolute, List.mem_cons, List.mem_filterMap]
  refine ⟨fun straight piece among => ?_, fun straight climbs => ?_⟩
  · rcases component?_of_spoken (isSilent_of_mem_spoken among) with ⟨up, -⟩ | down
    · exact absurd (.inr ⟨piece, among, up⟩) straight
    · exact down
  · rcases climbs with root | ⟨piece, among, up⟩
    · exact absurd root (by simp)
    · rw [straight piece among] at up
      exact absurd up (by simp)

theorem IsStraight.component?_ne (straight : path.IsStraight) (among : piece ∈ path.parts.body) :
    component? piece ≠ some .parent := by
  intro up
  apply straight
  rw [components]
  exact List.mem_append_right _ (List.mem_filterMap.mpr ⟨piece, among, up⟩)

/-! ### Paths without a start -/

/-- A path whose first piece is spoken consists of its pieces. -/
theorem parts_of_pieces (cutting : Path.pieces s = piece :: body)
    (loud : isSilent piece = false) : (⟨s⟩ : Path).parts = ⟨none, piece :: body⟩ := by
  rw [parts]
  split
  · rename_i s' text
    change s = _ at text
    rw [text, show '/' = separator from rfl, pieces_separator, List.cons.injEq] at cutting
    exact absurd loud (by simp [← cutting.1, isSilent_nil])
  · rename_i text
    change s = _ at text
    rw [text, pieces_of_plain (by decide), List.cons.injEq] at cutting
    exact absurd loud (by rw [← cutting.1]; decide)
  · rename_i s' text
    change s = _ at text
    rw [text, show '/' = separator from rfl, ← List.singleton_append,
      pieces_append_separator, pieces_of_plain (by decide), List.singleton_append,
      List.cons.injEq] at cutting
    exact absurd loud (by rw [← cutting.1]; decide)
  · rw [cutting]

theorem parts_join (plain : ∀ other ∈ piece :: body, separator ∉ other)
    (loud : isSilent piece = false) :
    (⟨join (piece :: body)⟩ : Path).parts = ⟨none, piece :: body⟩ :=
  parts_of_pieces (pieces_join plain (List.cons_ne_nil piece body)) loud

theorem isEmpty_join (plain : ∀ other ∈ piece :: body, separator ∉ other)
    (loud : isSilent piece = false) : (join (piece :: body)).isEmpty = false := by
  rw [← Bool.not_eq_true, List.isEmpty_iff]
  intro empty
  have cutting := pieces_join plain (List.cons_ne_nil piece body)
  rw [empty, pieces_nil, List.cons.injEq] at cutting
  rw [← cutting.1] at loud
  exact absurd loud (by decide)

theorem parent?_join (plain : ∀ other ∈ piece :: body, separator ∉ other)
    (loud : isSilent piece = false) (trimmed : trimEnd (piece :: body) = piece :: body) :
    (⟨join (piece :: body)⟩ : Path).parent? =
      some ⟨join (trimEnd (piece :: body).dropLast)⟩ := by
  rw [parent?, parts_join plain loud]
  simp only [trimmed]
  rfl

theorem not_isAbsolute_join (plain : ∀ other ∈ piece :: body, separator ∉ other)
    (loud : isSilent piece = false) :
    (⟨join (piece :: body)⟩ : Path).isAbsolute = false := by
  rw [← Bool.not_eq_true]
  intro absolute
  have lead := lead_of_isAbsolute absolute
  rw [parts_join plain loud] at lead
  exact absurd lead (by simp)

/-- The path behind the root that some pieces spell. -/
theorem parts_root (plain : ∀ piece ∈ body, separator ∉ piece) :
    (Parts.path ⟨some .root, body⟩).parts =
      ⟨some .root, if body = [] then [[]] else body⟩ := by
  have text : (Parts.path ⟨some .root, body⟩).text = separator :: join body := rfl
  rw [parts_of_text text]
  split
  · rename_i empty
    rw [empty]
    rfl
  · rename_i some
    rw [pieces_join plain some]

/-! ### Below a path -/

theorem append_of_isAbsolute (absolute : path.isAbsolute = true) : base ++ path = path := by
  change append base path = path
  rw [append, if_pos absolute]

/-- Between two paths there is one separator. -/
theorem append_of_getLast? {c : Char} (relative : path.isAbsolute = false)
    (ends : base.text.getLast? = some c) :
    base ++ path = if c = separator then ⟨base.text ++ path.text⟩
      else ⟨base.text ++ separator :: path.text⟩ := by
  change append base path = _
  rewrite [append, if_neg (by simp [relative]), ends]
  rfl

/-- Behind a path, a relative one goes on with its pieces. A separator at the end of the
first path is not repeated, so that its last piece, which is empty, is gone. -/
theorem parts_append (absolute : base.isAbsolute = true) (relative : path.isAbsolute = false) :
    ∃ front, (base.parts.body = front ∨ base.parts.body = front ++ [[]]) ∧
      (base ++ path).parts = ⟨some .root, front ++ Path.pieces path.text⟩ := by
  obtain ⟨s, text⟩ := isAbsolute_iff.mp absolute
  rw [parts_of_text text]
  rcases List.eq_nil_or_concat s with rfl | ⟨front, last, rfl⟩
  · refine ⟨[], .inr rfl, ?_⟩
    have ends : base.text.getLast? = some separator := by rw [text, List.getLast?_singleton]
    rw [append_of_getLast? relative ends, if_pos rfl, text]
    exact parts_of_text rfl
  · rw [List.concat_eq_append] at text ⊢
    have ends : base.text.getLast? = some last := by
      rw [text, ← List.cons_append, List.getLast?_concat]
    rw [append_of_getLast? relative ends, text]
    by_cases same : last = separator
    · subst same
      refine ⟨Path.pieces front, .inr (pieces_append_separator front []), ?_⟩
      rw [if_pos rfl, ← pieces_append_separator]
      refine parts_of_text ?_
      simp
    · refine ⟨Path.pieces (front ++ [last]), .inl rfl, ?_⟩
      rw [if_neg same, ← pieces_append_separator]
      exact parts_of_text rfl

theorem isAbsolute_append (absolute : base.isAbsolute = true) (path : Path) :
    (base ++ path).isAbsolute = true := by
  cases relative : path.isAbsolute with
  | true => rwa [append_of_isAbsolute relative]
  | false =>
    obtain ⟨front, -, parts⟩ := parts_append absolute relative
    exact isAbsolute_of_lead (by rw [parts])

theorem steps_append (absolute : base.isAbsolute = true) (relative : path.isAbsolute = false) :
    (base ++ path).steps = base.steps ++ spoken (Path.pieces path.text) := by
  obtain ⟨front, body, parts⟩ := parts_append absolute relative
  rw [steps, parts, spoken_append, steps]
  rcases body with same | same
  · rw [same]
  · rw [same, spoken_append, spoken_cons_silent isSilent_nil, spoken_nil, List.append_nil]

/-! ### Above a path -/

theorem parent?_of_trimEnd {lead : Option Component} {front : List (List Char)}
    {last : List Char} (parts : path.parts = ⟨lead, body⟩)
    (ends : trimEnd body = front ++ [last]) :
    path.parent? = some (Parts.path ⟨lead, trimEnd front⟩) := by
  rw [parent?, parts]
  simp only [ends]
  cases whole : front ++ [last] with
  | nil => exact absurd whole (by simp)
  | cons piece pieces =>
    simp only
    rw [← whole, List.dropLast_concat]

/-- A path from the root whose last piece is spoken is contained in the path without it. -/
theorem parent?_of_parts {front : List (List Char)} {last : List Char}
    (parts : path.parts = ⟨some .root, front ++ [last]⟩) (loud : isSilent last = false) :
    path.parent? = some (Parts.path ⟨some .root, trimEnd front⟩) :=
  parent?_of_trimEnd parts (trimEnd_concat_spoken loud front)

end Pieces

end Path

end MessageCatalog
