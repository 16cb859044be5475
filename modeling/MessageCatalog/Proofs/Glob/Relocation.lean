import MessageCatalog.Proofs.FileTree.Relocation
import MessageCatalog.Proofs.Glob.Matching

/-!
# Patterns below copies of a directory

A pattern below a directory is the path of the directory with the pattern behind it, and is read
as a whole. If nothing in the path can be taken for a wildcard, its components are texts that
lead to the directory, and only what stands behind them is matched: the same in every copy of the
directory, as long as no component goes up.
-/

namespace MessageCatalog

namespace Glob

open FileTree (Aligned Hosts)
open MessageCatalog.Path (component? separator IsStem)

/-- Characters that do not stand for themselves in a pattern. -/
def wildcards : List Char := ['*', '?', '[']

/-- Whether a piece of a path stands for itself in a pattern. -/
structure IsLegible (piece : List Char) : Prop where
  inhabited : piece ≠ []
  plain : separator ∉ piece
  itself : ∀ c ∈ piece, c ∉ wildcards

instance (piece : List Char) : Decidable (IsLegible piece) :=
  decidable_of_iff
    (piece ≠ [] ∧ separator ∉ piece ∧ (piece.all fun c => decide (c ∉ wildcards)) = true)
    ⟨fun ⟨inhabited, plain, itself⟩ => ⟨inhabited, plain, fun c among =>
        of_decide_eq_true (List.all_eq_true.mp itself c among)⟩,
      fun legible => ⟨legible.inhabited, legible.plain, List.all_eq_true.mpr fun c among =>
        decide_eq_true (legible.itself c among)⟩⟩

/-- The path that goes on from another one by pieces. -/
def descend (path : Path) (pieces : List (List Char)) : Path :=
  pieces.foldl (fun path piece => path ++ ⟨piece⟩) path

/-- Whether an absolute path stands for itself in a pattern, with one separator in front of each
piece. -/
def Legible (path : Path) : Prop :=
  ∃ pieces : List (List Char), (∀ piece ∈ pieces, IsLegible piece) ∧
    path = descend ⟨[separator]⟩ pieces

/-- A relative pattern, read from the root. -/
def rooted (pattern : String) : Path := ⟨separator :: pattern.toList⟩

section Relocation

variable {tree tree' : FileTree} {entries : List (String × FileTree)}
  {root root' path path' found child : Path} {name : String} {component : Component}
  {rest components : List Component} {s text front piece : List Char} {pieces : List (List Char)}
  {before before' : Option Char} {token : Token}

/-! ### Reading -/

/-- Readers that agree but for their faults agree when they go on in the same way. -/
theorem toOption_bind {α β : Type} {x y : Except Fault α} {f g : α → Except Fault β}
    (same : x.toOption = y.toOption) (onward : ∀ a, (f a).toOption = (g a).toOption) :
    (x >>= f).toOption = (y >>= g).toOption := by
  cases x with
  | error fault =>
    cases y with
    | error fault' => rfl
    | ok b => exact absurd same (by simp [Except.toOption])
  | ok a =>
    cases y with
    | error fault' => exact absurd same (by simp [Except.toOption])
    | ok b =>
      obtain rfl : a = b := Option.some.inj same
      exact onward a

theorem toOption_readStars (same : before.all (· = '/') = before'.all (· = '/'))
    (count place place' : Nat) (s : List Char) :
    (readStars count before place s).toOption = (readStars count before' place' s).toOption := by
  rw [readStars.eq_def, readStars.eq_def, same]
  split
  · rfl
  · split
    · rfl
    · split
      · cases s with
        | nil => rfl
        | cons c s =>
          dsimp only
          split <;> rfl
      · rfl

/-- Where a text begins in a pattern only shows in faults. What stands in front of it matters
for double stars, which need a separator there or nothing. -/
theorem toOption_readTokens (total total' n : Nat)
    (same : before.all (· = '/') = before'.all (· = '/')) (s : List Char) :
    (readTokens total n before s).toOption = (readTokens total' n before' s).toOption := by
  induction n generalizing before before' s with
  | zero => rfl
  | succ n ih =>
    cases s with
    | nil => rfl
    | cons c s =>
      rw [readTokens, readTokens]
      dsimp only
      split
      · exact toOption_bind (ih rfl s) fun tokens => rfl
      · split
        · refine toOption_bind (toOption_readStars same _ _ _ _) fun result => ?_
          exact toOption_bind (ih rfl result.2) fun tokens => rfl
        · split
          · split
            · exact toOption_bind (ih rfl _) fun tokens => rfl
            · rfl
          · exact toOption_bind (ih rfl s) fun tokens => rfl

/-- Text without wildcards is read character by character. -/
theorem readTokens_append (total n : Nat) (itself : ∀ c ∈ front, c ∉ wildcards)
    (before : Option Char) (s : List Char) :
    readTokens total (front.length + n) before (front ++ s) =
      (readTokens total n (front.getLast?.or before) s).map (front.map .char ++ ·) := by
  induction front generalizing before with
  | nil =>
    rw [List.length_nil, Nat.zero_add]
    change readTokens total n before s = (readTokens total n before s).map id
    cases readTokens total n before s <;> rfl
  | cons c front ih =>
    obtain ⟨first, later⟩ := List.forall_mem_cons.mp itself
    simp only [wildcards, List.mem_cons, List.not_mem_nil, or_false, not_or] at first
    obtain ⟨star, mark, bracket⟩ := first
    have last : (c :: front).getLast?.or before = front.getLast?.or (some c) := by
      cases front with
      | nil => rfl
      | cons d front => simp [List.getLast?_cons]
    rw [List.length_cons, Nat.add_right_comm, List.cons_append, readTokens, if_neg mark,
      if_neg star, if_neg bracket, ih later, last]
    cases readTokens total n (front.getLast?.or (some c)) s <;> rfl

theorem parse_of_itself (itself : ∀ c ∈ piece, c ∉ wildcards) :
    parse (String.ofList piece) = .ok (piece.map .char) := by
  have read := readTokens_append piece.length 0 itself none []
  rw [List.append_nil, Nat.add_zero, readTokens] at read
  rw [parse, String.toList_ofList]
  exact read.trans (congrArg Except.ok (List.append_nil _))

/-- Behind a path that stands for itself, a pattern can be read if it can be read alone. -/
theorem toOption_parse_append (itself : ∀ c ∈ front, c ∉ wildcards) (s : List Char) :
    (parse (String.ofList (front ++ separator :: s))).toOption =
      (parse (String.ofList s)).toOption.map ((front ++ [separator]).map .char ++ ·) := by
  have itself' : ∀ c ∈ front ++ [separator], c ∉ wildcards := by
    intro c among
    rcases List.mem_append.mp among with inside | last
    · exact itself c inside
    · rw [List.mem_singleton.mp last]
      decide
  rw [parse, parse, String.toList_ofList, String.toList_ofList, List.append_cons,
    List.length_append, readTokens_append _ _ itself', List.getLast?_concat]
  have free : ((some separator).or none).all (· = '/') = (none : Option Char).all (· = '/') := rfl
  have same : (readTokens ((front ++ [separator]).length + s.length) s.length
      ((some separator).or none) s).toOption = (readTokens s.length s.length none s).toOption :=
    toOption_readTokens _ _ _ free s
  rw [← same]
  cases readTokens ((front ++ [separator]).length + s.length) s.length _ s <;> rfl

/-! ### Components -/

/-- Pieces with a separator in front of each. -/
def fenced (pieces : List (List Char)) : List Char :=
  pieces.flatMap (separator :: ·)

theorem pieces_append_fenced (plain : ∀ piece ∈ pieces, separator ∉ piece)
    (first : separator ∉ s) : Path.pieces (s ++ fenced pieces) = s :: pieces := by
  induction pieces generalizing s with
  | nil =>
    rw [fenced, List.flatMap_nil, List.append_nil]
    exact Path.pieces_of_plain first
  | cons piece pieces ih =>
    obtain ⟨next, later⟩ := List.forall_mem_cons.mp plain
    rw [fenced, List.flatMap_cons, List.cons_append, Path.pieces_append_separator,
      Path.pieces_of_plain first]
    exact congrArg (s :: ·) (ih later next)

theorem Legible.isAbsolute (legible : Legible path) : path.isAbsolute = true := by
  obtain ⟨pieces, -, rfl⟩ := legible
  have start : (⟨[separator]⟩ : Path).isAbsolute = true := rfl
  generalize (⟨[separator]⟩ : Path) = path at start
  induction pieces generalizing path with
  | nil => exact start
  | cons piece pieces ih => exact ih _ (Path.isAbsolute_append start _)

/-- The root stands for itself. -/
theorem legible_separator : Legible ⟨[separator]⟩ :=
  ⟨[], List.forall_mem_nil IsLegible, rfl⟩

theorem isStem_separator : IsStem ⟨[separator]⟩ [] := by
  intro rest relative
  have ends : (⟨[separator]⟩ : Path).text.getLast? = some separator := rfl
  rw [Path.append_of_getLast? relative ends, if_pos rfl]
  rfl

/-- A legible piece is put behind a separator, and what follows it behind another one. -/
theorem isStem_append (stems : IsStem path s) (legible : IsLegible piece) :
    IsStem (path ++ ⟨piece⟩) (s ++ separator :: piece) := by
  intro rest relative
  have ends : (s ++ separator :: piece).getLast? ≠ some separator := by
    obtain ⟨front, last, rfl⟩ := (List.eq_nil_or_concat' piece).resolve_left legible.inhabited
    rw [← List.cons_append, ← List.append_assoc, List.getLast?_concat]
    intro same
    exact legible.plain
      (Option.some.inj same ▸ List.mem_append_right _ (List.mem_singleton_self _))
  have inhabited : (⟨s ++ separator :: piece⟩ : Path).text ≠ [] := by simp
  rw [stems _ (FileTree.not_isAbsolute_of_plain legible.plain)]
  obtain ⟨stem, text | text, joined⟩ := Path.exists_stem inhabited
  · rw [joined rest relative, ← text]
  · rw [show s ++ separator :: piece = stem ++ [separator] from text,
      List.getLast?_concat] at ends
    exact absurd rfl ends

theorem isStem_descend (stems : IsStem path s) (legible : ∀ piece ∈ pieces, IsLegible piece) :
    IsStem (descend path pieces) (s ++ fenced pieces) := by
  induction pieces generalizing path s with
  | nil =>
    rw [fenced, List.flatMap_nil, List.append_nil]
    exact stems
  | cons piece pieces ih =>
    obtain ⟨first, later⟩ := List.forall_mem_cons.mp legible
    rw [fenced, List.flatMap_cons, ← List.append_assoc]
    exact ih (isStem_append stems first) later

/-- A pattern below a legible path. -/
theorem text_append_descend (legible : ∀ piece ∈ pieces, IsLegible piece)
    (relative : path.isAbsolute = false) :
    (descend ⟨[separator]⟩ pieces ++ path).text = fenced pieces ++ separator :: path.text := by
  rw [isStem_descend isStem_separator legible path relative, List.nil_append]

theorem componentTexts_fenced (plain : ∀ piece ∈ pieces, separator ∉ piece) (s : List Char) :
    componentTexts (fenced pieces ++ separator :: s) =
      pieces ++ componentTexts (separator :: s) := by
  have behind : Path.pieces ((fenced pieces ++ separator :: s).drop 1) =
      pieces ++ Path.pieces s := by
    cases pieces with
    | nil => rfl
    | cons piece pieces =>
      obtain ⟨first, later⟩ := List.forall_mem_cons.mp plain
      rw [fenced, List.flatMap_cons, List.cons_append, List.cons_append, List.drop_one,
        List.tail_cons, Path.pieces_append_separator]
      exact congrArg (· ++ Path.pieces s) (pieces_append_fenced later first)
  have some : Path.pieces s ≠ [] := List.cons_ne_nil _ _
  rw [componentTexts, componentTexts, behind, List.drop_one, List.tail_cons,
    List.getLast?_append_of_ne_nil _ some, List.dropLast_append_of_ne_nil some]
  split <;> rfl

theorem mapM_append_legible (legible : ∀ piece ∈ pieces, IsLegible piece)
    (texts : List (List Char)) :
    (pieces ++ texts).mapM (fun text => parse (String.ofList text)) =
      (texts.mapM fun text => parse (String.ofList text)).map
        (pieces.map (·.map .char) ++ ·) := by
  induction pieces with
  | nil =>
    change _ = (texts.mapM fun text => parse (String.ofList text)).map id
    rw [List.nil_append]
    cases texts.mapM fun text => parse (String.ofList text) <;> rfl
  | cons piece pieces ih =>
    obtain ⟨first, later⟩ := List.forall_mem_cons.mp legible
    rw [List.cons_append, List.mapM_cons, parse_of_itself first.itself, ih later]
    cases texts.mapM fun text => parse (String.ofList text) <;> rfl

/-! ### Going down to a directory -/

theorem literal?_map (text : List Char) : literal? (text.map .char) = some text := by
  induction text with
  | nil => rfl
  | cons c text ih =>
    rw [List.map_cons, literal?, ih]
    rfl

theorem leads_literal_iff (literal : literal? component = some text) :
    Leads tree (component :: rest) path found ↔
      tree.existsAt (path ++ ⟨text⟩) = true ∧ Leads tree rest (path ++ ⟨text⟩) found := by
  have single : isRecursive component ≠ true := fun recursive => by
    rw [literal?_of_recursive recursive] at literal
    exact absurd literal (by simp)
  constructor
  · intro leads
    cases leads with
    | literal plain there onward =>
      obtain rfl := Option.some.inj (literal.symm.trans plain)
      exact ⟨there, onward⟩
    | special wild => exact absurd (wild.symm.trans literal) (by simp)
    | entry wild => exact absurd (wild.symm.trans literal) (by simp)
    | directory recursive => exact absurd recursive single
    | skip recursive => exact absurd recursive single
    | descend recursive => exact absurd recursive single
  · rintro ⟨there, onward⟩
    exact .literal literal there onward

theorem existsAt_of_descend (plain : ∀ piece ∈ pieces, separator ∉ piece)
    (absolute : path.isAbsolute = true) (there : tree.existsAt (descend path pieces) = true) :
    tree.existsAt path = true := by
  induction pieces generalizing path with
  | nil => exact there
  | cons piece pieces ih =>
    obtain ⟨first, later⟩ := List.forall_mem_cons.mp plain
    exact existsAt_of_append absolute first (ih later (Path.isAbsolute_append absolute _) there)

/-- The pieces of a path lead to it, and the rest of a pattern goes on from there. -/
theorem leads_descend_iff (plain : ∀ piece ∈ pieces, separator ∉ piece)
    (absolute : path.isAbsolute = true) (there : tree.existsAt (descend path pieces) = true) :
    Leads tree (pieces.map (·.map .char) ++ components) path found ↔
      Leads tree components (descend path pieces) found := by
  induction pieces generalizing path with
  | nil => rfl
  | cons piece pieces ih =>
    obtain ⟨first, later⟩ := List.forall_mem_cons.mp plain
    have absolute' := Path.isAbsolute_append absolute (⟨piece⟩ : Path)
    rw [List.map_cons, List.cons_append, leads_literal_iff (literal?_map piece),
      ih later absolute' there]
    exact and_iff_right (existsAt_of_descend later absolute' there)

/-! ### Matching in a copy -/

theorem mem_childrenOf_aligned (aligned : Aligned root root' path path')
    (hosts : Hosts tree root entries) (hosts' : Hosts tree' root' entries)
    (among : (name, child) ∈ childrenOf tree path) :
    (name, path'.child name) ∈ childrenOf tree' path' ∧
      Aligned root root' child (path'.child name) := by
  have named := isName_of_mem_childrenOf hosts.proper among
  obtain rfl := mem_childrenOf among
  obtain ⟨entries', node, got, -⟩ := exists_get_of_mem_childrenOf hosts.proper among
  refine ⟨?_, aligned.child named⟩
  rw [childrenOf_of_get got] at among
  rw [childrenOf_of_get ((aligned.get_eq hosts hosts').symm.trans got)]
  obtain ⟨name', inside, same⟩ := List.mem_map.mp among
  exact List.mem_map.mpr ⟨name', inside, by rw [(Prod.mk.inj same).1]⟩

/-- What a pattern leads to in a directory, it leads to in a copy of it. -/
theorem Leads.aligned (leads : Leads tree components path found)
    (aligned : Aligned root root' path path') (hosts : Hosts tree root entries)
    (hosts' : Hosts tree' root' entries)
    (kinds : ∀ component ∈ components, IsPlain component ∧ Descends component) :
    ∃ found', Aligned root root' found found' ∧ Leads tree' components path' found' := by
  have kinds_dropWhile {rest : List Component}
      (later : ∀ component ∈ rest, IsPlain component ∧ Descends component) :
      ∀ component ∈ rest.dropWhile isRecursive, IsPlain component ∧ Descends component :=
    fun component among => later component ((List.dropWhile_suffix _).subset among)
  induction leads generalizing path' with
  | done path => exact ⟨path', aligned, .done path'⟩
  | literal plain there onward ih =>
    obtain ⟨⟨first, descends⟩, later⟩ := List.forall_mem_cons.mp kinds
    have onward' := aligned.onward (first _ plain) (descends.component?_ne plain)
    obtain ⟨found', aligned', leads⟩ := ih onward' later
    have there' := (onward'.existsAt_eq hosts hosts').symm.trans there
    exact ⟨found', aligned', .literal plain there' leads⟩
  | @special component rest path found text wild inside matched onward ih =>
    obtain ⟨⟨first, descends⟩, later⟩ := List.forall_mem_cons.mp kinds
    have down : component? text ≠ some .parent := by
      rcases eq_of_mem_specialNames matched with rfl | rfl
      · exact absurd matched descends
      · decide
    obtain ⟨found', aligned', leads⟩ :=
      ih (aligned.onward (plain_of_mem_specialNames matched) down) later
    exact ⟨found', aligned', .special wild
      ((aligned.isDirectoryAt_eq hosts hosts').symm.trans inside) matched leads⟩
  | entry wild single among matched onward ih =>
    obtain ⟨among', child⟩ := mem_childrenOf_aligned aligned hosts hosts' among
    obtain ⟨found', aligned', leads⟩ := ih child (List.forall_mem_cons.mp kinds).2
    exact ⟨found', aligned', .entry wild single among' matched leads⟩
  | directory recursive last among inside =>
    obtain ⟨among', child⟩ := mem_childrenOf_aligned aligned hosts hosts' among
    exact ⟨_, child, .directory recursive last among'
      ((child.isDirectoryAt_eq hosts hosts').symm.trans inside)⟩
  | skip recursive more among matched onward ih =>
    obtain ⟨among', child⟩ := mem_childrenOf_aligned aligned hosts hosts' among
    have later := forall_mem_dropWhile (List.forall_mem_cons.mp kinds).2 more
    obtain ⟨found', aligned', leads⟩ := ih child (List.forall_mem_cons.mp later).2
    exact ⟨found', aligned', .skip recursive more among' matched leads⟩
  | descend recursive among inside onward ih =>
    obtain ⟨among', child⟩ := mem_childrenOf_aligned aligned hosts hosts' among
    obtain ⟨first, later⟩ := List.forall_mem_cons.mp kinds
    obtain ⟨found', aligned', leads⟩ :=
      ih child (List.forall_mem_cons.mpr ⟨first, kinds_dropWhile later⟩)
    exact ⟨found', aligned', .descend recursive among'
      ((child.isDirectoryAt_eq hosts hosts').symm.trans inside) leads⟩

/-! ### Patterns -/

theorem componentTexts_rooted_ne_nil {pattern : String} (some : pattern ≠ "") :
    componentTexts (rooted pattern).text ≠ [] := by
  intro none
  rw [rooted, componentTexts, List.drop_one, List.tail_cons] at none
  have empty : Path.pieces pattern.toList = [[]] := by
    split at none
    · rename_i last
      rw [← List.dropLast_append_getLast? _ last, none, List.nil_append]
    · exact absurd none (List.cons_ne_nil _ _)
  rcases Path.cut_fst_eq_nil (List.cons.inj empty).1 with nothing | ⟨s, behind⟩
  · exact some (String.toList_eq_nil_iff.mp nothing)
  · rw [behind, Path.pieces_separator] at empty
    exact List.cons_ne_nil _ _ (List.cons.inj empty).2

theorem ne_nil_of_mapM {α β ε : Type} {f : α → Except ε β} {before : List α} {results : List β}
    (mapped : before.mapM f = .ok results) (some : before ≠ []) : results ≠ [] := by
  rintro rfl
  cases before with
  | nil => exact some rfl
  | cons a before =>
    rw [List.mapM_cons] at mapped
    cases first : f a with
    | error fault =>
      rw [first] at mapped
      exact absurd mapped (by simp [bind, Except.bind])
    | ok b =>
      cases later : before.mapM f with
      | error fault =>
        rw [first, later] at mapped
        exact absurd mapped (by simp [bind, Except.bind])
      | ok others =>
        rw [first, later] at mapped
        exact absurd (Except.ok.inj mapped) (List.cons_ne_nil b others)

/-- A pattern below a legible path can be read if it can be read alone. -/
theorem exists_parse_child_iff (legible : ∀ piece ∈ pieces, IsLegible piece) {pattern : String}
    (relative : (Path.ofString pattern).isAbsolute = false) :
    (∃ tokens, parse ((descend ⟨[separator]⟩ pieces).child pattern).toString = .ok tokens) ↔
      ∃ tokens, parse pattern = .ok tokens := by
  have text : ((descend ⟨[separator]⟩ pieces).child pattern).text =
      fenced pieces ++ separator :: pattern.toList := text_append_descend legible relative
  have itself : ∀ c ∈ fenced pieces, c ∉ wildcards := by
    intro c among
    obtain ⟨piece, inside, among⟩ := List.mem_flatMap.mp among
    rcases List.mem_cons.mp among with rfl | among
    · decide
    · exact (legible piece inside).itself c among
  have same := toOption_parse_append itself pattern.toList
  rw [String.ofList_toList] at same
  rw [Path.toString, text]
  cases whole : parse (String.ofList (fenced pieces ++ separator :: pattern.toList)) <;>
    cases alone : parse pattern <;> rw [whole, alone] at same <;>
    simp [Except.toOption] at same ⊢

/-- The components of a pattern below a legible path are the pieces of the path and the
components that the pattern has alone. -/
theorem components_child_iff (legible : ∀ piece ∈ pieces, IsLegible piece) {pattern : String}
    (relative : (Path.ofString pattern).isAbsolute = false) :
    (componentTexts ((descend ⟨[separator]⟩ pieces).child pattern).text).mapM
        (fun text => parse (String.ofList text)) = .ok components ↔
      ∃ behind, (componentTexts (rooted pattern).text).mapM
          (fun text => parse (String.ofList text)) = .ok behind ∧
        components = pieces.map (·.map .char) ++ behind := by
  have text : ((descend ⟨[separator]⟩ pieces).child pattern).text =
      fenced pieces ++ separator :: pattern.toList := text_append_descend legible relative
  rw [text, rooted, componentTexts_fenced fun piece among => (legible piece among).plain,
    mapM_append_legible legible]
  cases (componentTexts (separator :: pattern.toList)).mapM
      fun text => parse (String.ofList text) with
  | error fault => simp [Except.map]
  | ok behind => simp [Except.map, eq_comm]

/-- What a pattern below a legible path matches: what its components lead to from there. -/
theorem matches_child_iff (there : tree.existsAt root = true) (legible : Legible root)
    {pattern : String} (relative : (Path.ofString pattern).isAbsolute = false)
    (some : pattern ≠ "") :
    Matches tree (root.child pattern) found ↔ (∃ tokens, parse pattern = .ok tokens) ∧
      ∃ components, (componentTexts (rooted pattern).text).mapM
          (fun text => parse (String.ofList text)) = .ok components ∧
        Leads tree components root found := by
  obtain ⟨pieces, legible, rfl⟩ := legible
  have leads (components : List Component) :
      Leads tree (pieces.map (·.map .char) ++ components) ⟨[separator]⟩ found ↔
        Leads tree components (descend ⟨[separator]⟩ pieces) found :=
    leads_descend_iff (fun piece among => (legible piece among).plain) rfl there
  constructor
  · rintro ⟨read, components, -, readable, led⟩
    obtain ⟨behind, alone, rfl⟩ := (components_child_iff legible relative).mp readable
    exact ⟨(exists_parse_child_iff legible relative).mp read, behind, alone, (leads behind).mp led⟩
  · rintro ⟨read, components, alone, led⟩
    have inhabited := ne_nil_of_mapM alone (componentTexts_rooted_ne_nil some)
    exact ⟨(exists_parse_child_iff legible relative).mpr read, _,
      List.append_ne_nil_of_right_ne_nil _ inhabited,
      (components_child_iff legible relative).mpr ⟨components, alone, rfl⟩,
      (leads components).mpr led⟩

/-- What a pattern matches below a directory, it matches below a copy of it. -/
theorem Matches.aligned {pattern : String} (matched : Matches tree (root.child pattern) found)
    (hosts : Hosts tree root entries) (hosts' : Hosts tree' root' entries)
    (legible : Legible root) (legible' : Legible root')
    (relative : (Path.ofString pattern).isAbsolute = false) (some : pattern ≠ "")
    (down : GoesDown (rooted pattern)) :
    ∃ found', Aligned root root' found found' ∧ Matches tree' (root'.child pattern) found' := by
  obtain ⟨read, components, readable, leads⟩ := (matches_child_iff
    (FileTree.existsAt_of_get hosts.here) legible relative some).mp matched
  obtain ⟨found', aligned, leads'⟩ := leads.aligned .root hosts hosts' fun component among =>
    (of_mem_components readable among).imp id (· down)
  exact ⟨found', aligned, (matches_child_iff (FileTree.existsAt_of_get hosts'.here) legible'
    relative some).mpr ⟨read, components, readable, leads'⟩⟩

end Relocation

end Glob

end MessageCatalog
