import MessageCatalog.Glob.Expansion
import MessageCatalog.Proofs.Path.Steps

/-!
# What patterns are read as

Each character that a pattern asks for is one of its text. A component of a pattern is what
stands between two separators, so a component without wildcards has no separator in it.
-/

namespace MessageCatalog

namespace Glob

open MessageCatalog.Path (component? separator)

/-- Whether the text of a component has no separators, if the component is a text. -/
def IsPlain (component : Component) : Prop :=
  ∀ text, literal? component = some text → separator ∉ text

/-- Whether a component does not match the parent of a directory. -/
def Descends (component : Component) : Prop :=
  ['.', '.'] ∉ specialNames component

instance (component : Component) : Decidable (Descends component) :=
  inferInstanceAs (Decidable (_ ∉ _))

/-- Whether no component of a pattern matches the parent of a directory. -/
def GoesDown (pattern : Path) : Prop :=
  ∀ piece ∈ componentTexts pattern.text,
    ∀ component ∈ (parse (String.ofList piece)).toOption, Descends component

instance (pattern : Path) : Decidable (GoesDown pattern) :=
  inferInstanceAs (Decidable (∀ piece ∈ componentTexts pattern.text,
    ∀ component ∈ (parse (String.ofList piece)).toOption, Descends component))

section Reading

variable {s rest text : List Char} {token : Token} {tokens : List Token} {c : Char}
  {component : Component} {before : Option Char}

/-! ### Tokens -/

theorem readStars_subset {count place : Nat}
    (readable : readStars count before place s = .ok (token, rest)) :
    rest ⊆ s ∧ token ≠ .char c := by
  rw [readStars.eq_def] at readable
  split at readable
  · obtain ⟨rfl, rfl⟩ := Prod.mk.inj (Except.ok.inj readable)
    exact ⟨List.Subset.refl _, by simp⟩
  · split at readable
    · exact absurd readable (by simp)
    · split at readable
      · split at readable
        · obtain ⟨rfl, rfl⟩ := Prod.mk.inj (Except.ok.inj readable)
          exact ⟨List.Subset.refl _, by simp⟩
        · split at readable
          · obtain ⟨rfl, rfl⟩ := Prod.mk.inj (Except.ok.inj readable)
            exact ⟨List.subset_cons_self _ _, by simp⟩
          · exact absurd readable (by simp)
      · exact absurd readable (by simp)

theorem splitBracket_subset {listed : List Char}
    (closed : splitBracket s = some (listed, rest)) : rest ⊆ s := by
  cases s with
  | nil => exact absurd closed (by simp [splitBracket])
  | cons c s =>
    rw [splitBracket] at closed
    split at closed
    · exact absurd closed (by simp)
    · rename_i bracket rest' closing
      obtain ⟨-, rfl⟩ := Prod.mk.inj (Option.some.inj closed)
      have inside : bracket :: rest' ⊆ s := closing ▸ (List.dropWhile_suffix _).subset
      exact List.Subset.trans (List.subset_cons_self _ _)
        (List.Subset.trans inside (List.subset_cons_self _ _))

theorem readBracket?_subset (readable : readBracket? s = some (token, rest)) :
    rest ⊆ s ∧ token ≠ .char c := by
  rw [readBracket?.eq_def] at readable
  split at readable
  · obtain ⟨⟨listed, rest'⟩, found, same⟩ := Option.bind_eq_some_iff.mp readable
    obtain ⟨rfl, rfl⟩ := Prod.mk.inj (Option.some.inj same)
    exact ⟨List.Subset.trans (splitBracket_subset found) (List.subset_cons_self _ _), by simp⟩
  · obtain ⟨⟨listed, rest'⟩, found, same⟩ := Option.bind_eq_some_iff.mp readable
    obtain ⟨rfl, rfl⟩ := Prod.mk.inj (Option.some.inj same)
    exact ⟨splitBracket_subset found, by simp⟩

/-- A token that is put in front of what the rest of a text is read as, and that asks for
nothing, adds no character. -/
theorem mem_of_cons_readTokens {total n : Nat} {first : Token}
    (inside : rest ⊆ s ∧ first ≠ .char c)
    (later : ∀ {tokens : List Token}, readTokens total n before rest = .ok tokens →
      .char c ∈ tokens → c ∈ rest)
    (readable : (do return first :: (← readTokens total n before rest) :
      Except Fault (List Token)) = .ok tokens)
    (among : .char c ∈ tokens) : c ∈ s := by
  cases following : readTokens total n before rest with
  | error fault =>
    rw [following] at readable
    exact absurd readable (by simp [bind, Except.bind])
  | ok tokens' =>
    rw [following] at readable
    rw [← Except.ok.inj readable] at among
    rcases List.mem_cons.mp among with same | among
    · exact absurd same.symm inside.2
    · exact inside.1 (later following among)

/-- The characters that a pattern asks for are characters of its text. -/
theorem mem_of_readTokens {total n : Nat}
    (readable : readTokens total n before s = .ok tokens) (among : .char c ∈ tokens) :
    c ∈ s := by
  induction n generalizing before s tokens with
  | zero =>
    rw [readTokens] at readable
    rw [← Except.ok.inj readable] at among
    exact absurd among List.not_mem_nil
  | succ n ih =>
    cases s with
    | nil =>
      rw [readTokens] at readable
      rw [← Except.ok.inj readable] at among
      exact absurd among List.not_mem_nil
    | cons d s =>
      have whole := List.subset_cons_self d s
      rw [readTokens] at readable
      dsimp only at readable
      split at readable
      · exact mem_of_cons_readTokens ⟨whole, by simp⟩ ih readable among
      · split at readable
        · cases stars : readStars ((s.takeWhile (· = '*')).length + 1) before
            (total - (s.length + 1)) (s.drop (s.takeWhile (· = '*')).length) with
          | error fault =>
            rw [stars] at readable
            exact absurd readable (by simp [bind, Except.bind])
          | ok result =>
            rw [stars] at readable
            obtain ⟨inside, other⟩ := readStars_subset (c := c) stars
            have inside' :=
              List.Subset.trans (List.Subset.trans inside (List.drop_subset _ _)) whole
            exact mem_of_cons_readTokens ⟨inside', other⟩ ih readable among
        · split at readable
          · split at readable
            · obtain ⟨inside, other⟩ := readBracket?_subset (c := c) ‹_›
              exact mem_of_cons_readTokens ⟨List.Subset.trans inside whole, other⟩ ih readable among
            · exact absurd readable (by simp [throw, throwThe, MonadExceptOf.throw])
          · by_cases same : d = c
            · rw [same]
              exact List.mem_cons_self
            · exact mem_of_cons_readTokens ⟨whole, by simpa using same⟩ ih readable among

/-! ### Components -/

theorem eq_map_of_literal? (same : literal? component = some text) :
    component = text.map .char := by
  induction component generalizing text with
  | nil =>
    rw [literal?, Option.some.injEq] at same
    rw [← same, List.map_nil]
  | cons token tokens ih =>
    cases token with
    | char c =>
      rw [literal?] at same
      obtain ⟨rest, found, rfl⟩ := Option.map_eq_some_iff.mp same
      rw [List.map_cons, ih found]
    | anyChar => exact absurd same (by simp [literal?])
    | anyText => exact absurd same (by simp [literal?])
    | anyDirectories => exact absurd same (by simp [literal?])
    | oneOf ranges => exact absurd same (by simp [literal?])
    | noneOf ranges => exact absurd same (by simp [literal?])

theorem eq_of_mem_specialNames (among : text ∈ specialNames component) :
    text = ['.', '.'] ∨ text = ['.'] := by
  rw [specialNames.eq_def] at among
  split at among
  · rcases List.mem_cons.mp (List.mem_filter.mp among).1 with first | second
    · exact .inl first
    · exact .inr (List.mem_singleton.mp second)
  · exact absurd among List.not_mem_nil

theorem plain_of_mem_specialNames (among : text ∈ specialNames component) :
    separator ∉ text := by
  rcases eq_of_mem_specialNames among with rfl | rfl <;> decide

/-- A component that descends is not the parent of a directory itself. -/
theorem Descends.component?_ne (descends : Descends component)
    (same : literal? component = some text) : component? text ≠ some .parent := by
  intro up
  have loud : Path.isSilent text = false := by
    rw [Path.isSilent, up, Option.isNone_some]
  rcases Path.component?_of_spoken loud with ⟨-, rfl⟩ | down
  · apply descends
    rw [eq_map_of_literal? same]
    decide
  · rw [up] at down
    exact absurd down (by simp)

/-- The components of a pattern are plain. -/
theorem isPlain_of_parse {piece pattern : List Char} (among : piece ∈ componentTexts pattern)
    (readable : parse (String.ofList piece) = .ok component) : IsPlain component := by
  intro text same inside
  have spelled : .char separator ∈ component := by
    rw [eq_map_of_literal? same]
    exact List.mem_map.mpr ⟨_, inside, rfl⟩
  rw [parse, String.toList_ofList] at readable
  have cut : piece ∈ Path.pieces (pattern.drop 1) := by
    rw [componentTexts] at among
    split at among
    · exact List.dropLast_subset _ among
    · exact among
  exact Path.separator_not_mem_of_mem_pieces cut (mem_of_readTokens readable spelled)

theorem exists_of_mapM {α β ε : Type} {f : α → Except ε β} {before : List α} {results : List β}
    (mapped : before.mapM f = .ok results) : ∀ b ∈ results, ∃ a ∈ before, f a = .ok b := by
  induction before generalizing results with
  | nil =>
    rw [List.mapM_nil] at mapped
    rw [← Except.ok.inj mapped]
    exact fun b among => absurd among List.not_mem_nil
  | cons a before ih =>
    rw [List.mapM_cons] at mapped
    cases first : f a with
    | error fault =>
      rw [first] at mapped
      exact absurd mapped (by simp [bind, Except.bind])
    | ok b =>
      cases later : before.mapM f with
      | error fault =>
        rw [first, later] at mapped
        exact absurd mapped (by simp [bind, Except.bind])
      | ok others =>
        rw [first, later] at mapped
        rw [← Except.ok.inj mapped]
        intro b' among
        rcases List.mem_cons.mp among with rfl | among
        · exact ⟨a, List.mem_cons_self, first⟩
        · obtain ⟨a', inside, same⟩ := ih later b' among
          exact ⟨a', List.mem_cons_of_mem _ inside, same⟩

/-- What is known of the components of a pattern. -/
theorem of_mem_components {pattern : Path} {components : List Component}
    (readable : (componentTexts pattern.text).mapM (fun text => parse (String.ofList text)) =
      .ok components) (among : component ∈ components) :
    IsPlain component ∧ (GoesDown pattern → Descends component) := by
  obtain ⟨piece, inside, same⟩ := exists_of_mapM readable component among
  refine ⟨isPlain_of_parse inside same, fun down => down piece inside component ?_⟩
  rw [same]
  rfl

end Reading

end Glob

end MessageCatalog
