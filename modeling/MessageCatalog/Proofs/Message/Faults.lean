import Mathlib.Data.Set.Finite.List
import MessageCatalog.Proofs.Message.RoundTrip

/-!
# Faults in tokens

A reader that fails has read something that can be completed: if the rest that it could
not read is replaced by the right text, then a word of its kind begins there. This is shown
here for each reader of a token. The replacement is chosen so that no other reader takes
part of it, and so that what was read keeps its meaning.
-/

namespace MessageCatalog

namespace Message

open Text

/-- A chain of readers fails if one of them does. -/
theorem bind_eq_error_iff {ε α β : Type} {x : Except ε α} {f : α → Except ε β} {e : ε} :
    (x >>= f) = .error e ↔ x = .error e ∨ ∃ a, x = .ok a ∧ f a = .error e := by
  cases x with
  | error e' => simp [bind, Except.bind]
  | ok a => simp

@[simp] theorem unexpected_eq_error_iff {α : Type} {what : Expectation} {s : List Char}
    {fault : Fault} :
    (unexpected what s : Except Fault α) = .error fault ↔ fault = ⟨.expected what, s⟩ := by
  rw [unexpected, Except.error.injEq, eq_comm]

/-! ### Replacing what is unread -/

/-- The second text is the first one with another text in place of its rest. -/
def Resumes (s rest w : List Char) : Prop :=
  ∃ v t, s = v ++ rest ∧ w = v ++ t

section Resumes

variable {s rest u w : List Char} {c : Char}

theorem resumes_of_append (u rest t : List Char) : Resumes (u ++ rest) rest (u ++ t) :=
  ⟨u, t, rfl, rfl⟩

theorem resumes_prefix (u rest : List Char) : Resumes (u ++ rest) rest u :=
  ⟨u, [], rfl, (List.append_nil u).symm⟩

theorem resumes_here (rest t : List Char) : Resumes rest rest t :=
  resumes_of_append [] rest t

theorem Resumes.append_left (resumes : Resumes s rest w) (u : List Char) :
    Resumes (u ++ s) rest (u ++ w) := by
  obtain ⟨v, t, rfl, rfl⟩ := resumes
  exact ⟨u ++ v, t, by rw [List.append_assoc], by rw [List.append_assoc]⟩

theorem Resumes.cons (resumes : Resumes s rest w) (c : Char) :
    Resumes (c :: s) rest (c :: w) :=
  resumes.append_left [c]

theorem Resumes.append_right (resumes : Resumes s rest w) (u : List Char) :
    Resumes s rest (w ++ u) := by
  obtain ⟨v, t, rfl, rfl⟩ := resumes
  exact ⟨v, t ++ u, rfl, List.append_assoc ..⟩

end Resumes

/-! ### Runs -/

section Runs

variable {p : Char → Bool} {s rest : List Char} {what : Expectation} {fault : Fault}

/-- A run fails at its start only. -/
theorem takeRun1_eq_error_iff :
    takeRun1 p what s = .error fault ↔ Stops p s ∧ fault = ⟨.expected what, s⟩ := by
  rcases split : takeRun p s with ⟨run, rest⟩
  obtain ⟨rfl, member, stops⟩ := takeRun_eq_iff.mp split
  rw [takeRun1, split]
  cases run with
  | nil => simpa using fun _ => stops
  | cons c run => simp [member c List.mem_cons_self]

theorem run_singleton {c : Char} (member : p c = true) : Run p [c] :=
  ⟨List.cons_ne_nil c [], fun _ here => List.mem_singleton.mp here ▸ member⟩

theorem require_eq_error_iff {c : Char} :
    require c s = .error fault ↔ s.head? ≠ some c ∧ fault = ⟨.expected (.char c), s⟩ := by
  cases s with
  | nil => simp [require]
  | cons d s =>
      by_cases same : d = c
      · simp [require, same]
      · simp [require, same]

end Runs

/-! ### Text -/

section Texts

variable {inPlural : Bool} {s : List Char} {fault : Fault} {n : Nat}

/-- An escape that fails can be completed, from the backslash or from the letter of a numeric
escape on. -/
theorem exists_escape (inPlural : Bool) (failed : readEscape s = .error fault) :
    ∃ w c, Resumes s fault.rest w ∧ Glyph inPlural ('\\' :: w) c := by
  have backslash : Glyph inPlural ['\\', '\\'] '\\' := .escaped (by decide)
  have scalar : Glyph inPlural ['\\', 'u', '0', '0', '4', '1'] (Char.ofNat 65) :=
    .scalar rfl rfl rfl rfl rfl (by decide)
  rw [readEscape.eq_def] at failed
  split at failed
  · rename_i c rest
    split at failed
    · simp at failed
    split at failed
    · rename_i letter
      subst letter
      have start : fault.rest = rest := by
        rw [readHexEscape.eq_def] at failed
        split at failed
        · split at failed
          · split at failed
            · simp at failed
            · rw [← Except.error.inj failed]
          · rw [unexpected_eq_error_iff.mp failed]
        · rw [unexpected_eq_error_iff.mp failed]
      exact ⟨['u', '0', '0', '4', '1'], _, start ▸ (resumes_here rest _).cons 'u', scalar⟩
    · rw [unexpected_eq_error_iff.mp failed]
      exact ⟨['\\'], _, resumes_here _ _, backslash⟩
  · rw [unexpected_eq_error_iff.mp failed]
    exact ⟨['\\'], _, resumes_here _ _, backslash⟩

/-- Text that fails has a first character, which it keeps if it is completed. -/
theorem exists_text (failed : readText inPlural n s = .error fault) :
    ∃ w text, Resumes s fault.rest w ∧ w.head? = s.head? ∧ TextWord inPlural w text ∧
      text ≠ [] := by
  induction n generalizing s with
  | zero => exact absurd failed (by simp [readText])
  | succ n ih =>
      cases s with
      | nil => exact absurd failed (by simp [readText])
      | cons c s =>
          rw [readText] at failed
          split at failed
          · exact absurd failed (by simp)
          rename_i ordinary
          split at failed
          · rename_i backslash
            subst backslash
            rcases bind_eq_error_iff.mp failed with failed | ⟨⟨d, s'⟩, escape, failed⟩
            · obtain ⟨w, d, resumes, glyph⟩ := exists_escape inPlural failed
              refine ⟨'\\' :: w, [d], resumes.cons '\\', rfl, ?_, List.cons_ne_nil _ _⟩
              simpa using TextWord.cons glyph .nil
            · rcases bind_eq_error_iff.mp failed with later | ⟨_, -, failed⟩
              · obtain ⟨v, rfl, glyph⟩ := readEscape_eq_ok_iff.mp escape
                obtain ⟨w, text, resumes, -, word, -⟩ := ih later
                exact ⟨'\\' :: v ++ w, d :: text, resumes.append_left ('\\' :: v), rfl,
                  .cons glyph word, List.cons_ne_nil _ _⟩
              · exact absurd failed (by simp)
          · rename_i plain
            rcases bind_eq_error_iff.mp failed with later | ⟨_, -, failed⟩
            · obtain ⟨w, text, resumes, -, word, -⟩ := ih later
              have glyph := Glyph.of_plain (Bool.eq_false_iff.mpr ordinary) plain
              exact ⟨c :: w, c :: text, resumes.cons c, rfl, .cons glyph word,
                List.cons_ne_nil _ _⟩
            · exact absurd failed (by simp)

end Texts

/-! ### Selectors and clauses -/

section Clauses

variable {s : List Char} {fault : Fault}

/-- A style that fails is blank so far, and can be completed by anything visible. -/
theorem exists_style (failed : readStyle (skipBlanks s) = .error fault) :
    ∃ w style, Resumes s fault.rest w ∧ StyleClause w style := by
  obtain ⟨blanks, whole, blank⟩ := exists_blanks s
  rw [readStyle.eq_def] at failed
  split at failed
  · rename_i rest comma
    rcases split : takeRun (fun c => c != '{' && c != '}') rest with ⟨raw, rest'⟩
    obtain ⟨rfl, member, -⟩ := takeRun_eq_iff.mp split
    simp only [split] at failed
    split at failed
    · rw [unexpected_eq_error_iff.mp failed, whole, comma]
      have braceless : ∀ c ∈ raw ++ ['x'], c ≠ '{' ∧ c ≠ '}' := by
        intro c here
        rcases List.mem_append.mp here with here | here
        · simpa using member c here
        · obtain rfl := List.mem_singleton.mp here
          decide
      have visible : trimChars (raw ++ ['x']) ≠ [] :=
        trimChars_ne_nil (c := 'x') (by simp) (by decide)
      refine ⟨_, _, ?_, .present blank braceless visible⟩
      have resumes := resumes_of_append (blanks ++ ',' :: raw) rest' ['x']
      simpa using resumes
    · simp at failed
  · simp at failed

/-- An offset that fails can be completed by a number. -/
theorem exists_offset (failed : readOffset s = .error fault) :
    ∃ v, Resumes s fault.rest v ∧
      ∀ w, Stops isDigit w → OffsetClause v (digitsValue ['1']) w := by
  rw [readOffset] at failed
  split at failed
  · rename_i word
    obtain ⟨rest, rfl⟩ := List.isPrefixOf_iff_prefix.mp word
    obtain ⟨before, front, blank⟩ := exists_blanks rest
    rw [List.drop_left] at failed
    dsimp only at failed
    split at failed
    · rw [unexpected_eq_error_iff.mp failed]
      refine ⟨offsetWord ++ before ++ ['1'] ++ [], ?_, fun w stops => ?_⟩
      · have resumes := resumes_of_append (offsetWord ++ before) (skipBlanks rest) ['1']
        rw [List.append_assoc, ← front] at resumes
        simpa using resumes
      · exact .present blank (run_singleton (by decide)) (by decide) blanks_nil stops
    · simp at failed
  · simp at failed

/-- There are always more numbers than have been seen. -/
theorem exists_fresh_number (seen : List String) :
    ∃ digits, Run isDigit digits ∧ String.ofList ('=' :: digits) ∉ seen := by
  by_contra all
  have every (n : Nat) : String.ofList ('=' :: List.replicate (n + 1) '0') ∈ seen := by
    by_contra new
    exact all ⟨_, ⟨by simp, fun c here => by rw [List.eq_of_mem_replicate here]; rfl⟩, new⟩
  have injective : Function.Injective fun n : Nat =>
      String.ofList ('=' :: List.replicate (n + 1) '0') := by
    intro m n same
    simpa using congrArg List.length (String.ofList_injective same)
  exact Set.infinite_of_injective_forall_mem injective every seen.finite_toSet

/-- A selector fails at its start, or it is an exact number without digits. -/
theorem exists_number (failed : readSelector s = .error fault) (seen : List String) :
    fault.rest = s ∨ ∃ digits, Resumes s fault.rest ('=' :: digits) ∧ Run isDigit digits ∧
      String.ofList ('=' :: digits) ∉ seen := by
  rw [readSelector.eq_def] at failed
  split at failed
  · rcases bind_eq_error_iff.mp failed with failed | ⟨_, -, failed⟩
    · obtain ⟨-, rfl⟩ := takeRun1_eq_error_iff.mp failed
      obtain ⟨digits, number, new⟩ := exists_fresh_number seen
      exact .inr ⟨digits, (resumes_here _ _).cons '=', number, new⟩
    · simp at failed
  · obtain ⟨-, rfl⟩ := takeRun1_eq_error_iff.mp failed
    exact .inl rfl

end Clauses

end Message

end MessageCatalog
