import Mathlib.Data.List.Induction
import MessageCatalog.Proofs.Constant.Meaning

/-!
# Templates as sums

A template is evaluated in one pass over its texts and substitutions. The same text can be put
together by the operator `+`, as in `"q₀" + (e₁) + "q₁" + … + (eₙ) + "qₙ"`, which is evaluated
one operator at a time by rules that depend on the values.

The first operand is a text, so every partial sum is one, and `+` joins texts wherever it occurs
here: whatever the substitutions are, no two numbers meet. Both ways of writing therefore have
the same value, and neither has one if a substitution has none.
-/

namespace MessageCatalog

namespace Constant

open Syntax Binding

/-- The template whose texts are a first one and that of each piece, with the expression of the
piece as the substitution before it. -/
def templateOf (span : Span) (first : String) (pieces : List (Node × String)) : Node :=
  .mk (.template (some first :: pieces.map fun piece => some piece.2)) span (pieces.map Prod.fst)

/-- An expression is the sum of a first text and pieces, each an expression in parentheses and
a text behind it. The operator groups to the left, and extents make no difference. -/
inductive IsSum : String → List (Node × String) → Node → Prop
  | text (first : String) (span : Span) (parts : List Node) :
      IsSum first [] (.mk (.string first) span parts)
  | piece {first : String} {pieces : List (Node × String)} {before : Node}
      (sum : IsSum first pieces before) (e : Node) (text : String)
      (outer inner parentheses literal : Span) (parts : List Node) :
      IsSum first (pieces ++ [(e, text)])
        (.mk .plus outer
          [.mk .plus inner [before, .mk .parenthesized parentheses [e]],
            .mk (.string text) literal parts])

section Sums

variable {lookup : String → Option Value} {first text : String} {pieces : List (Node × String)}
  {e before : Node}

/-- The text of a template, if all its substitutions have values. -/
def templateText (lookup : String → Option Value) (first : String)
    (pieces : List (Node × String)) : Option String :=
  interleave (some first :: pieces.map fun piece => some piece.2)
    (evaluateEach lookup (pieces.map Prod.fst))

theorem evaluateWith_templateOf (span : Span) :
    evaluateWith lookup (templateOf span first pieces) =
      (templateText lookup first pieces).map .text :=
  evaluateWith_template rfl

@[simp] theorem templateText_nil : templateText lookup first [] = some first := by
  simp [templateText, evaluateEach, interleave]

theorem templateText_cons :
    templateText lookup first ((e, text) :: pieces) =
      (evaluateWith lookup e).bind fun value =>
        (templateText lookup text pieces).map (first ++ value.toText ++ ·) :=
  interleave_cons

/-- A template is read from the front, but a piece can as well be added at its end. -/
theorem templateText_concat :
    templateText lookup first (pieces ++ [(e, text)]) =
      (templateText lookup first pieces).bind fun whole =>
        (evaluateWith lookup e).map fun value => whole ++ value.toText ++ text := by
  induction pieces generalizing first with
  | nil =>
      rw [List.nil_append, templateText_cons, templateText_nil, templateText_nil]
      cases evaluateWith lookup e <;> rfl
  | cons piece pieces ih =>
      obtain ⟨e', text'⟩ := piece
      rw [List.cons_append, templateText_cons, templateText_cons, ih]
      cases evaluateWith lookup e' with
      | none => rfl
      | some value =>
          cases templateText lookup text' pieces with
          | none => rfl
          | some whole =>
              cases evaluateWith lookup e with
              | none => rfl
              | some value' => simp [String.append_assoc]

/-- Adding a piece to a sum that is a text, if it has a value at all, joins texts twice. -/
theorem evaluateWith_sum_piece {whole : Option String}
    (known : evaluateWith lookup before = whole.map .text)
    (outer inner parentheses literal : Span) (parts : List Node) :
    evaluateWith lookup
        (.mk .plus outer
          [.mk .plus inner [before, .mk .parenthesized parentheses [e]],
            .mk (.string text) literal parts]) =
      (whole.bind fun whole =>
        (evaluateWith lookup e).map fun value => whole ++ value.toText ++ text).map .text := by
  have wrapped : evaluateWith lookup (.mk .parenthesized parentheses [e]) =
      evaluateWith lookup e := evaluateWith_wrapped rfl
  have literal : evaluateWith lookup (.mk (.string text) literal parts) = some (.text text) :=
    evaluateWith_literal rfl
  rw [evaluateWith_sum rfl, evaluateWith_sum rfl, known, wrapped, literal]
  cases whole with
  | none => rfl
  | some whole =>
      cases evaluateWith lookup e with
      | none => rfl
      | some value =>
          change some (((Value.text whole).add value).add (.text text)) = _
          rw [Value.add_text_left, Value.add_text_left]
          rfl

/-- However names are looked up, a sum has the text of the template as its value. -/
theorem IsSum.evaluateWith_eq {sum : Node} (written : IsSum first pieces sum) :
    evaluateWith lookup sum = (templateText lookup first pieces).map .text := by
  induction written with
  | text span parts =>
      rw [templateText_nil]
      exact evaluateWith_literal rfl
  | piece _ e text outer inner parentheses literal parts ih =>
      rw [templateText_concat]
      exact evaluateWith_sum_piece ih outer inner parentheses literal parts

end Sums

/-- A template has the same value as the sum of its texts and substitutions, or neither has a
value: for any number of substitutions, whatever expressions they are, and for any constants. -/
theorem template_eq_sum (constants : Constants) (span : Span) {first : String}
    {pieces : List (Node × String)} {sum : Node} (written : IsSum first pieces sum) :
    evaluate constants (templateOf span first pieces) = evaluate constants sum := by
  rw [evaluate, evaluate, evaluateWith_templateOf]
  exact written.evaluateWith_eq.symm

/-- The sum of a first text and pieces, with one extent for all its nodes. -/
def sumOf (span : Span) (first : String) (pieces : List (Node × String)) : Node :=
  pieces.foldl (fun before piece =>
      .mk .plus span
        [.mk .plus span [before, .mk .parenthesized span [piece.1]],
          .mk (.string piece.2) span []])
    (.mk (.string first) span [])

/-- Every template can be written as a sum. -/
theorem isSum_sumOf (span : Span) (first : String) (pieces : List (Node × String)) :
    IsSum first pieces (sumOf span first pieces) := by
  induction pieces using List.reverseRecOn with
  | nil => exact .text first span []
  | append_singleton pieces piece ih =>
      rw [sumOf, List.foldl_append, ← sumOf]
      exact ih.piece piece.1 piece.2 span span span span []

/-- A truth value and nothing side by side are joined as texts in both, although `+` would add
them as numbers, and a call has no value in either. -/
theorem template_eq_sum_boolean :
    let truth : Node := .mk (.boolean true) ⟨0, 0⟩ []
    let nothing : Node := .mk .null ⟨0, 0⟩ []
    let call : Node := .mk .call ⟨0, 0⟩ [.mk (.identifier "f") ⟨0, 0⟩ []]
    evaluate .empty (sumOf ⟨0, 0⟩ "" [(truth, ""), (nothing, "!")]) = some (.text "truenull!") ∧
      evaluate .empty (sumOf ⟨0, 0⟩ "a" [(truth, "b"), (call, "c")]) = none := by
  intro truth nothing call
  have joined : evaluate .empty (templateOf ⟨0, 0⟩ "" [(truth, ""), (nothing, "!")]) =
      some (.text "truenull!") := rfl
  have unknown : evaluate .empty (templateOf ⟨0, 0⟩ "a" [(truth, "b"), (call, "c")]) = none := rfl
  exact ⟨(template_eq_sum .empty _ (isSum_sumOf _ _ _)).symm.trans joined,
    (template_eq_sum .empty _ (isSum_sumOf _ _ _)).symm.trans unknown⟩

end Constant

end MessageCatalog
