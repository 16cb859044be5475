import MessageCatalog.Proofs.Path.Steps

/-!
# The components of a path

Whether a path is empty, absolute or ends in a name can be read off its components, and the
operations on paths can be stated by what they do to the components: for every path,
absolute or relative, spelled in whatever way.

Only the first component can be the root or the current directory. All others stand for
pieces, and a piece stands for a parent or a name.
-/

namespace MessageCatalog

namespace Path

/-- The components behind the start of a path. -/
def below (path : Path) : List Component :=
  path.parts.body.filterMap component?

section Components

variable {path base : Path} {s t piece name : List Char} {pieces body front : List (List Char)}
  {lead : Option Component} {component : Component}

/-! ### Pieces -/

/-- A piece stands for a parent, for itself, or for nothing. -/
theorem component?_eq_some (stands : component? piece = some component) :
    component = .parent ∨ component = .name piece := by
  have loud : isSilent piece = false := by rw [isSilent, stands, Option.isNone_some]
  rcases component?_of_spoken loud with ⟨up, -⟩ | down
  · exact .inl (Option.some.inj (stands.symm.trans up))
  · exact .inr (Option.some.inj (stands.symm.trans down))

theorem component?_eq_none (silent : component? piece = none) : piece = [] ∨ piece = ['.'] := by
  rw [component?.eq_def] at silent
  split at silent
  · exact .inl rfl
  · exact .inr rfl
  · exact absurd silent (by simp)
  · exact absurd silent (by simp)

theorem cut_fst_eq_nil (empty : (cut s).1 = []) : s = [] ∨ ∃ t, s = separator :: t := by
  cases s with
  | nil => exact .inl rfl
  | cons c s =>
      by_cases same : c = separator
      · exact .inr ⟨s, congrArg (· :: s) same⟩
      · simp [cut, same] at empty

theorem filterMap_trimEnd (body : List (List Char)) :
    (trimEnd body).filterMap component? = body.filterMap component? := by
  rw [← filterMap_component?_spoken, spoken_trimEnd, filterMap_component?_spoken]

theorem filterMap_dropWhile (body : List (List Char)) :
    (body.dropWhile isSilent).filterMap component? = body.filterMap component? := by
  rw [← filterMap_component?_spoken, spoken_dropWhile, filterMap_component?_spoken]

theorem filterMap_dropComponents (n : Nat) (body : List (List Char)) :
    (dropComponents n body).filterMap component? = (body.filterMap component?).drop n := by
  induction body generalizing n with
  | nil => cases n <;> rfl
  | cons piece body ih =>
      cases n with
      | zero => rw [dropComponents, List.drop_zero]
      | succ n =>
          rw [dropComponents]
          cases stands : component? piece with
          | none =>
              rw [if_pos (isSilent_iff.mpr stands), ih, List.filterMap_cons_none stands]
          | some component =>
              have loud : ¬ isSilent piece = true := by simp [isSilent, stands]
              rw [if_neg loud, ih, List.filterMap_cons_some stands, List.drop_succ_cons]

/-- The four ways in which a path can start. -/
theorem parts_cases (path : Path) :
    (∃ s, path.text = separator :: s ∧ path.parts = ⟨some .root, Path.pieces s⟩) ∨
      (path.text = ['.'] ∧ path.parts = ⟨some .current, []⟩) ∨
      (∃ s, path.text = '.' :: separator :: s ∧
        path.parts = ⟨some .current, [] :: Path.pieces s⟩) ∨
      path.parts = ⟨none, Path.pieces path.text⟩ ∧
        (path.text = [] ∨
          ∃ piece body, Path.pieces path.text = piece :: body ∧ isSilent piece = false) := by
  rw [parts]
  split
  · rename_i s text
    exact .inl ⟨s, text, rfl⟩
  · rename_i text
    exact .inr (.inl ⟨text, rfl⟩)
  · rename_i s text
    exact .inr (.inr (.inl ⟨s, text, rfl⟩))
  · rename_i rooted dot dotted
    refine .inr (.inr (.inr ⟨rfl, ?_⟩))
    cases text : path.text with
    | nil => exact .inl rfl
    | cons c s =>
        have plain : c ≠ separator := by
          rintro rfl
          exact rooted s text
        refine .inr ⟨_, _, pieces_cons plain s, ?_⟩
        rw [← Bool.not_eq_true, isSilent_iff]
        intro silent
        rcases component?_eq_none silent with none | single
        · exact List.cons_ne_nil _ _ none
        · obtain ⟨rfl, rest⟩ := List.cons.inj single
          rcases cut_fst_eq_nil rest with rfl | ⟨t, rfl⟩
          · exact dot text
          · exact dotted t text

/-! ### Components -/

theorem components_eq_append (path : Path) :
    path.components = path.parts.lead.toList ++ path.below :=
  rfl

theorem components_of_text_eq_nil (empty : path.text = []) : path.components = [] := by
  rw [components, parts, empty]
  rfl

/-- Only the empty path has no components. -/
theorem components_eq_nil_iff : path.components = [] ↔ path.text = [] := by
  refine ⟨?_, components_of_text_eq_nil⟩
  intro none
  rw [components] at none
  obtain ⟨s, -, parts⟩ | ⟨-, parts⟩ | ⟨s, -, parts⟩ |
    ⟨parts, empty | ⟨piece, body, cutting, loud⟩⟩ := parts_cases path
  · rw [parts] at none
    exact absurd none (List.cons_ne_nil _ _)
  · rw [parts] at none
    exact absurd none (List.cons_ne_nil _ _)
  · rw [parts] at none
    exact absurd none (List.cons_ne_nil _ _)
  · exact empty
  · rw [parts, cutting] at none
    rcases component?_of_spoken loud with ⟨stands, -⟩ | stands
    · simp [stands] at none
    · simp [stands] at none

theorem mem_below (among : component ∈ path.below) :
    component = .parent ∨ ∃ name, component = .name name := by
  obtain ⟨piece, -, stands⟩ := List.mem_filterMap.mp among
  exact (component?_eq_some stands).imp_right fun down => ⟨piece, down⟩

theorem isAbsolute_iff_head : path.isAbsolute = true ↔ path.components.head? = some .root := by
  constructor
  · intro absolute
    rw [components_of_isAbsolute absolute, List.head?_cons]
  · intro root
    apply isAbsolute_of_lead
    rw [components_eq_append] at root
    cases lead : path.parts.lead with
    | some start =>
        rw [lead] at root
        exact root
    | none =>
        rw [lead] at root
        rcases mem_below (List.mem_of_mem_head? root) with up | ⟨name, down⟩
        · exact absurd up (by simp)
        · exact absurd down (by simp)

/-- All pieces of a text, those of its start too, stand for the components behind it. -/
theorem filterMap_pieces (path : Path) :
    (Path.pieces path.text).filterMap component? = path.below := by
  rw [below]
  obtain ⟨s, text, parts⟩ | ⟨text, parts⟩ | ⟨s, text, parts⟩ | ⟨parts, -⟩ := parts_cases path
  · rw [parts, text, pieces_separator]
    rfl
  · rw [parts, text]
    rfl
  · rw [parts, text, ← List.singleton_append, pieces_append_separator]
    rfl
  · rw [parts]

theorem lead_ne_name (path : Path) (name : List Char) :
    path.parts.lead ≠ some (.name name) := by
  obtain ⟨s, -, parts⟩ | ⟨-, parts⟩ | ⟨s, -, parts⟩ | ⟨parts, -⟩ := parts_cases path <;>
    simp [parts]

/-- A name among the components is a piece that stands for itself. -/
theorem component?_of_name_mem (among : .name name ∈ path.components) :
    component? name = some (.name name) ∧ separator ∉ name := by
  rw [components_eq_append, List.mem_append] at among
  rcases among with start | behind
  · exact absurd (Option.mem_toList.mp start) (lead_ne_name path name)
  · obtain ⟨piece, inside, stands⟩ := List.mem_filterMap.mp behind
    rcases component?_eq_some stands with up | down
    · exact absurd up (by simp)
    · obtain rfl := Component.name.inj down
      exact ⟨stands, separator_not_mem_of_mem_body inside⟩

/-- What stands behind the root or the current directory. -/
theorem below_of_components {rest : List Component} (starts : path.components = component :: rest)
    (start : component = .root ∨ component = .current) : path.below = rest := by
  rw [components_eq_append] at starts
  cases lead : path.parts.lead with
  | some first =>
      rw [lead] at starts
      exact (List.cons.inj starts).2
  | none =>
      rw [lead] at starts
      have among : component ∈ path.below := by
        rw [show path.below = component :: rest from starts]
        exact List.mem_cons_self
      rcases mem_below among with rfl | ⟨name, rfl⟩ <;> simp at start

theorem below_eq_components (relative : path.components.head? ≠ some .root)
    (low : path.components.head? ≠ some .current) : path.below = path.components := by
  rw [components_eq_append] at relative low ⊢
  obtain ⟨s, -, parts⟩ | ⟨-, parts⟩ | ⟨s, -, parts⟩ | ⟨parts, -⟩ := parts_cases path
  · exact absurd (by rw [parts]; rfl) relative
  · exact absurd (by rw [parts]; rfl) low
  · exact absurd (by rw [parts]; rfl) low
  · rw [parts]
    rfl

/-! ### Texts that go on -/

/-- Behind a separator, a text has the components of its pieces. -/
theorem components_append_separator (inhabited : s ≠ []) (t : List Char) :
    (⟨s ++ separator :: t⟩ : Path).components =
      (⟨s⟩ : Path).components ++ (Path.pieces t).filterMap component? := by
  obtain ⟨s', text, parts⟩ | ⟨text, parts⟩ | ⟨s', text, parts⟩ |
    ⟨parts, empty | ⟨piece, body, cutting, loud⟩⟩ := parts_cases ⟨s⟩
  · change s = _ at text
    rw [components, components, parts, text, List.cons_append, parts_of_text rfl,
      pieces_append_separator, List.filterMap_append, List.append_assoc]
  · change s = _ at text
    rw [components, components, parts, text]
    rfl
  · change s = _ at text
    have whole : (⟨s ++ separator :: t⟩ : Path).parts =
        ⟨some .current, [] :: Path.pieces (s' ++ separator :: t)⟩ := by
      rw [text]
      rfl
    rw [components, components, parts, whole, pieces_append_separator]
    simp only [← List.cons_append, List.filterMap_append, List.append_assoc]
  · exact absurd empty inhabited
  · change Path.pieces s = _ at cutting
    have whole : Path.pieces (s ++ separator :: t) = piece :: (body ++ Path.pieces t) := by
      rw [pieces_append_separator, cutting, List.cons_append]
    rw [components, components, parts, parts_of_pieces whole loud, cutting]
    simp only [← List.cons_append, List.filterMap_append, List.append_assoc]

/-- A relative path below another one adds what stands behind its start. -/
theorem components_append (relative : path.isAbsolute = false) (inhabited : base.text ≠ []) :
    (base ++ path).components = base.components ++ path.below := by
  rw [← filterMap_pieces]
  obtain ⟨front, last, text⟩ : ∃ front last, base.text = front ++ [last] := by
    rcases List.eq_nil_or_concat base.text with none | ⟨front, last, text⟩
    · exact absurd none inhabited
    · exact ⟨front, last, text.trans (List.concat_eq_append ..)⟩
  have ends : base.text.getLast? = some last := by rw [text, List.getLast?_concat]
  rw [append_of_getLast? relative ends]
  split
  · rename_i same
    have start : base = ⟨front ++ [separator]⟩ := by
      rw [← same, ← text]
    rw [start, List.append_assoc, List.singleton_append]
    rcases eq_or_ne front [] with rfl | some
    · rw [List.nil_append, components, parts_of_text rfl]
      rfl
    · rw [components_append_separator some, components_append_separator some]
      rw [pieces_nil, List.append_assoc]
      rfl
  · exact components_append_separator inhabited path.text

/-- Below the empty path, a relative path stays what it is. -/
theorem append_of_text_eq_nil (empty : base.text = []) (path : Path) : base ++ path = path := by
  change append base path = path
  rw [append, empty]
  split <;> rfl

/-- A path that starts with a parent or a name adds all its components. -/
theorem components_append_of_low (relative : path.components.head? ≠ some .root)
    (low : path.components.head? ≠ some .current) (base : Path) :
    (base ++ path).components = base.components ++ path.components := by
  rcases eq_or_ne base.text [] with empty | inhabited
  · rw [append_of_text_eq_nil empty, components_of_text_eq_nil empty, List.nil_append]
  · have loose : path.isAbsolute = false :=
      Bool.eq_false_iff.mpr (mt isAbsolute_iff_head.mp relative)
    rw [components_append loose inhabited, below_eq_components relative low]

/-! ### Parts of paths -/

theorem components_path_root (plain : ∀ piece ∈ front, separator ∉ piece) :
    (Parts.path ⟨some .root, front⟩).components = .root :: front.filterMap component? := by
  rw [components, parts_root plain]
  split
  · rename_i none
    rw [none]
    rfl
  · rfl

/-- What is spelled behind the current directory stands behind a separator. -/
theorem components_path_current (plain : ∀ piece ∈ front, separator ∉ piece)
    (start : front <+: [] :: body) :
    (Parts.path ⟨some .current, front⟩).components = .current :: front.filterMap component? := by
  cases front with
  | nil => rfl
  | cons first front =>
      obtain ⟨rfl, -⟩ := List.cons_prefix_cons.mp start
      cases front with
      | nil => rfl
      | cons next front =>
          have others : ∀ piece ∈ next :: front, separator ∉ piece :=
            fun piece among => plain piece (List.mem_cons_of_mem [] among)
          have whole : (Parts.path ⟨some .current, [] :: next :: front⟩).parts =
              ⟨some .current, [] :: Path.pieces (join (next :: front))⟩ := rfl
          rw [components, whole, pieces_join others (List.cons_ne_nil next front)]
          rfl

theorem components_path_relative (plain : ∀ other ∈ piece :: front, separator ∉ other)
    (loud : isSilent piece = false) :
    (Parts.path ⟨none, piece :: front⟩).components =
      (piece :: front).filterMap component? := by
  have whole : (Parts.path ⟨none, piece :: front⟩).parts = ⟨none, piece :: front⟩ :=
    parts_join plain loud
  rw [components, whole]
  rfl

/-- The path that the first parts of a path spell has their components. -/
theorem components_of_isPrefix (parts : path.parts = ⟨lead, body⟩) (start : front <+: body) :
    (Parts.path ⟨lead, front⟩).components = lead.toList ++ front.filterMap component? := by
  have plain : ∀ piece ∈ front, separator ∉ piece := by
    intro piece among
    have inside : piece ∈ path.parts.body := by
      rw [parts]
      exact start.subset among
    exact separator_not_mem_of_mem_body inside
  obtain ⟨s, -, own⟩ | ⟨-, own⟩ | ⟨s, -, own⟩ | ⟨own, empty | ⟨piece, rest, cutting, loud⟩⟩ :=
    parts_cases path <;> obtain ⟨rfl, rfl⟩ := Parts.mk.inj (parts.symm.trans own)
  · exact components_path_root plain
  · rw [List.prefix_nil.mp start]
    rfl
  · exact components_path_current plain start
  · rw [empty, pieces_nil, List.prefix_cons_iff] at start
    obtain rfl | ⟨t, rfl, none⟩ := start
    · rfl
    · rw [List.prefix_nil.mp none]
      rfl
  · rw [cutting, List.prefix_cons_iff] at start
    obtain rfl | ⟨t, rfl, -⟩ := start
    · rfl
    · exact components_path_relative plain loud

/-- A path that ends in a name is contained in the path without it. -/
theorem exists_parent (last : path.components.getLast? = some (.name name)) :
    ∃ parent, path.parent? = some parent ∧ parent.components = path.components.dropLast := by
  cases form : path.parts with
  | mk lead body =>
  have trimmed : path.components = lead.toList ++ (trimEnd body).filterMap component? := by
    rw [components, form, filterMap_trimEnd]
  rcases trimEnd_cases body with none | ⟨front, piece, ends, loud⟩
  · rw [trimmed, none, List.filterMap_nil, List.append_nil] at last
    have start : path.parts.lead = some (.name name) := by
      rw [form]
      exact Option.mem_toList.mp (List.mem_of_getLast? last)
    exact absurd start (lead_ne_name path name)
  · obtain ⟨component, stands⟩ := Option.ne_none_iff_exists'.mp
      (mt isSilent_iff.mpr (Bool.eq_false_iff.mp loud))
    have start : trimEnd front <+: body :=
      ((trimEnd_isPrefix front).trans (List.prefix_append front [piece])).trans
        (ends ▸ trimEnd_isPrefix body)
    refine ⟨_, parent?_of_trimEnd form ends, ?_⟩
    rw [components_of_isPrefix form start, trimmed, ends, List.filterMap_append,
      List.filterMap_cons_some stands, List.filterMap_nil, ← List.append_assoc,
      List.dropLast_concat, filterMap_trimEnd]

end Components

end Path

end MessageCatalog
