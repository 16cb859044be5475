import MessageCatalog.Proofs.Issue.Order
import MessageCatalog.Report.Issues

/-!
# Reports and the order of arrival

A report shows each issue by itself, at its turn; only the margin and the count depend on the
others, and on these as a whole. So the order in which issues arrive can only show where the
order of reports does not tell issues apart: there they stay in the order of arrival.

Severity and hint of an issue are those of its rule. Its details and its line of text are not
part of its rank. If issues that tie agree in these two, they are shown alike, and the order of
arrival is lost.
-/

namespace MessageCatalog

namespace Rule

/-- How bad an issue of a rule is. -/
def severity : Rule → Severity
  | unsupportedComponent => .warning
  | _ => .error

/-- What can be done about an issue of a rule. -/
def hint? : Rule → Option String
  | staticEvaluation => some "use string literals, or `const` bindings of string literals"
  | duplicateId => some "give one of the messages a different `id`"
  | _ => none

end Rule

namespace Issue

variable {a b : Issue}

theorem severity_eq (issue : Issue) : issue.severity = issue.rule.severity := by
  cases issue with
  | rejected failure => rw [rule]; cases failure.problem <;> rfl
  | unsupported | malformed | inaccessible => rfl

theorem hint_eq (issue : Issue) : issue.hint? = issue.rule.hint? := by
  cases issue with
  | rejected failure => rw [rule, hint?]; cases failure.problem <;> rfl
  | unsupported | malformed | inaccessible => rfl

/-- Two issues that tie and also agree in what their rank leaves out. -/
structure Alike (a b : Issue) : Prop extends Ties a b where
  sourceLine : a.place.sourceLine? = b.place.sourceLine?
  details : a.details? = b.details?

theorem alike_iff : a.Alike b ↔
    a.Ties b ∧ a.place.sourceLine? = b.place.sourceLine? ∧ a.details? = b.details? :=
  ⟨fun alike => ⟨alike.toTies, alike.sourceLine, alike.details⟩,
    fun ⟨tie, sourceLine, details⟩ => ⟨tie, sourceLine, details⟩⟩

instance : Decidable (a.Alike b) :=
  decidable_of_iff _ alike_iff.symm

end Issue

namespace Report

open Issue (sort sort_perm)

/-! ### The text of an issue -/

/-- The text that shows an issue. -/
def issueText (coloured : Bool) (width : Nat) (issue : Issue) : String :=
  unlines (issueLines coloured width issue)

section Texts

variable (coloured : Bool) (width : Nat)

theorem unlines_append (lines others : List String) :
    unlines (lines ++ others) = unlines lines ++ unlines others := by
  rw [unlines, List.map_append, String.join_append, unlines, unlines]

theorem unlines_flatMap (issues : List Issue) :
    unlines (issues.flatMap (issueLines coloured width)) =
      String.join (issues.map (issueText coloured width)) := by
  induction issues with
  | nil => rfl
  | cons issue issues ih =>
    rw [List.flatMap_cons, unlines_append, ih, List.map_cons, String.join_cons, issueText]

/-- The lines that quote the text at a place, if the place is shown. -/
def quoteLines (severity : Severity) : Place → List String
  | .shown context => shownLines coloured width severity context
  | _ => []

theorem placeLine_congr {p q : Place} (file : p.fileName = q.fileName) (line : p.line = q.line)
    (column : p.column = q.column) : placeLine coloured p = placeLine coloured q := by
  rw [placeLine, placeLine, file, line, column]

theorem quoteLines_congr {p q : Place} (file : p.fileName = q.fileName) (line : p.line = q.line)
    (column : p.column = q.column) (text : p.sourceLine? = q.sourceLine?)
    (severity : Severity) :
    quoteLines coloured width severity p = quoteLines coloured width severity q := by
  cases p with
  | shown context =>
    cases q with
    | shown context' =>
      obtain ⟨file', ⟨line', column'⟩, text'⟩ := context
      obtain rfl : file' = context'.file := file
      obtain rfl : line' = context'.position.line := line
      obtain rfl : column' = context'.position.column := column
      obtain rfl : text' = context'.sourceLine := Option.some.inj text
      rfl
    | position | anywhere => nomatch text
  | position | anywhere =>
    cases q with
    | shown context => nomatch text
    | position | anywhere => rfl

/-- A line of the margin with a note. -/
def noteLine (styles : List Style) (word text : String) : String :=
  marginLine coloured width "" "=" (" " ++ styled coloured styles word ++ " " ++ text)

theorem issueLines_eq (issue : Issue) :
    issueLines coloured width issue =
      (styled coloured [.bold, severityStyle issue.severity] issue.severity.word ++ ": " ++
        issue.message ++ "  " ++ styled coloured [.dimmed, .cyan] issue.rule.name) ::
      placeLine coloured issue.place ::
      quoteLines coloured width issue.severity issue.place ++
      (issue.details?.map (noteLine coloured width [.bold] "note:")).toList ++
      (issue.hint?.map (noteLine coloured width [.bold, .cyan] "hint:")).toList ++ [""] := rfl

/-- Issues that are alike are shown by the same lines. -/
theorem issueLines_congr {a b : Issue} (alike : a.Alike b) :
    issueLines coloured width a = issueLines coloured width b := by
  have severity : a.severity = b.severity := by
    rw [Issue.severity_eq, Issue.severity_eq, alike.rule]
  have hint : a.hint? = b.hint? := by rw [Issue.hint_eq, Issue.hint_eq, alike.rule]
  have place := placeLine_congr coloured alike.file alike.line alike.column
  have quote := quoteLines_congr coloured width alike.file alike.line alike.column
    alike.sourceLine b.severity
  rw [issueLines_eq, issueLines_eq, severity, hint, place, quote, alike.message, alike.rule,
    alike.details]

end Texts

/-! ### Reports as a whole -/

section Reports

variable (coloured : Bool) {found found' : List Issue}

theorem marginWidth_perm (same : found'.Perm found) : marginWidth found' = marginWidth found := by
  have largest := (same.map (·.place.line)).foldl_eq' (f := max)
    (fun x _ y _ z => Nat.max_right_comm z x y) 0
  rw [marginWidth, marginWidth, largest]

theorem countLine_perm (same : found'.Perm found) :
    countLine coloured found' = countLine coloured found := by
  rw [countLine, countLine, Issue.errorCount, Issue.errorCount, same.countP_eq, same.length_eq]

/-- A report consists of the texts of its issues and of the count. -/
theorem issues_eq (found : List Issue) :
    issues coloured found = if found = [] then "" else
      String.join ((sort found).map (issueText coloured (marginWidth found))) ++
        unlines [countLine coloured found] := by
  have none : (sort found).isEmpty = true ↔ found = [] := by
    rw [List.isEmpty_iff]
    constructor
    · intro empty
      exact (empty ▸ sort_perm found).symm.eq_nil
    · rintro rfl
      exact List.mergeSort_nil
  rw [issues]
  simp only [none]
  rw [marginWidth_perm (sort_perm found), countLine_perm coloured (sort_perm found),
    unlines_append, unlines_flatMap]

/-- The report of sorted issues has their texts in the given order. -/
theorem issues_eq_of_pairwise (some : found' ≠ []) (same : found'.Perm found)
    (sorted : found'.Pairwise fun a b => a.precedes b = true) :
    issues coloured found' =
      String.join (found'.map (issueText coloured (marginWidth found))) ++
        unlines [countLine coloured found] := by
  rw [issues_eq, if_neg some, sort, List.mergeSort_of_pairwise sorted, marginWidth_perm same,
    countLine_perm coloured same]

end Reports

/-! ### Texts that can be exchanged -/

section Exchange

variable {text : Issue → String} {a b : Issue} {issues others : List Issue}

/-- Two texts that can stand in either order. -/
def Commutes (s t : String) : Prop :=
  s ++ t = t ++ s

theorem commutes_join (each : ∀ b ∈ issues, Commutes (text a) (text b)) :
    Commutes (text a) (String.join (issues.map text)) := by
  induction issues with
  | nil => exact String.append_empty.trans String.empty_append.symm
  | cons b issues ih =>
    have first : text a ++ text b = text b ++ text a := each b List.mem_cons_self
    have later : text a ++ _ = _ := ih fun c here => each c (List.mem_cons_of_mem _ here)
    rw [Commutes, List.map_cons, String.join_cons, ← String.append_assoc, first,
      String.append_assoc, later, String.append_assoc]

/-- Two sorted arrangements of the same issues have the same text, if the texts of issues that
tie can be exchanged. The first issue of one arrangement ties with all that are in front of it in
the other. -/
theorem join_sorted (same : others.Perm issues)
    (sorted : issues.Pairwise fun a b => a.precedes b = true)
    (sorted' : others.Pairwise fun a b => a.precedes b = true)
    (free : ∀ a ∈ issues, ∀ b ∈ issues, a.Ties b → Commutes (text a) (text b)) :
    String.join (others.map text) = String.join (issues.map text) := by
  induction issues generalizing others with
  | nil => rw [same.eq_nil]
  | cons a issues ih =>
    obtain ⟨earlier, later, rfl⟩ := List.append_of_mem (same.mem_iff.mpr List.mem_cons_self)
    have rest : (earlier ++ later).Perm issues := (List.perm_middle.symm.trans same).cons_inv
    obtain ⟨least, sorted⟩ := List.pairwise_cons.mp sorted
    have ahead (b : Issue) (here : b ∈ earlier) : Commutes (text a) (text b) := by
      have among : b ∈ issues := rest.mem_iff.mp (List.mem_append_left _ here)
      have before : b.precedes a = true :=
        (List.pairwise_append.mp sorted').2.2 b here a List.mem_cons_self
      exact free a List.mem_cons_self b (List.mem_cons_of_mem _ among)
        (Issue.ties_iff_precedes.mpr ⟨least b among, before⟩)
    have step := ih rest sorted
      (sorted'.sublist (List.Sublist.append_left (List.sublist_cons_self a later) earlier))
      fun b here c there => free b (List.mem_cons_of_mem _ here) c (List.mem_cons_of_mem _ there)
    have front : text a ++ String.join (earlier.map text) = _ := commutes_join ahead
    rw [List.map_append, String.join_append] at step ⊢
    rw [List.map_cons, List.map_cons, String.join_cons, String.join_cons, ← step,
      ← String.append_assoc, ← String.append_assoc, front]

end Exchange

section Arrival

variable (coloured : Bool) {found : List Issue}

theorem issues_perm {found' : List Issue} (same : found'.Perm found)
    (free : ∀ a ∈ found, ∀ b ∈ found, a.Ties b →
      Commutes (issueText coloured (marginWidth found) a)
        (issueText coloured (marginWidth found) b)) :
    issues coloured found' = issues coloured found := by
  have sorted : (sort found').Perm (sort found) :=
    ((sort_perm found').trans same).trans (sort_perm found).symm
  have texts := join_sorted sorted (Issue.sort_pairwise found) (Issue.sort_pairwise found')
    fun a here b there => free a ((sort_perm found).mem_iff.mp here) b
      ((sort_perm found).mem_iff.mp there)
  have empty : found' = [] ↔ found = [] :=
    ⟨fun none => (none ▸ same).symm.eq_nil, fun none => (none ▸ same).eq_nil⟩
  rw [issues_eq, issues_eq, marginWidth_perm same, countLine_perm coloured same, texts]
  simp only [empty]

/-- If no arrival changes the report, the texts of two issues that tie can be exchanged: put the
two next to each other where they belong, in both orders. -/
theorem commutes_of_issues_perm {a b : Issue}
    (same : ∀ found', found'.Perm found → issues coloured found' = issues coloured found)
    (here : a ∈ found) (there : b ∈ found) (tie : a.Ties b) :
    Commutes (issueText coloured (marginWidth found) a)
      (issueText coloured (marginWidth found) b) := by
  by_cases equal : a = b
  · rw [equal]
    exact rfl
  obtain ⟨rest, split⟩ : ∃ rest, found.Perm (a :: b :: rest) :=
    ⟨(found.erase a).erase b, (List.perm_cons_erase here).trans
      ((List.perm_cons_erase ((List.mem_erase_of_ne (Ne.symm equal)).mpr there)).cons a)⟩
  obtain ⟨earlier, later, perm, sorted⟩ := Issue.exists_sorted_adjacent tie split
  have swap : (earlier ++ b :: a :: later).Perm (earlier ++ a :: b :: later) :=
    (List.Perm.swap a b later).append_left earlier
  have texts := (same _ (swap.trans perm.symm)).trans (same _ perm.symm).symm
  rw [issues_eq_of_pairwise coloured (by simp) (swap.trans perm.symm) (tie.pairwise_swap sorted),
    issues_eq_of_pairwise coloured (by simp) perm.symm sorted] at texts
  simp only [List.map_append, List.map_cons, String.join_append, String.join_cons,
    String.append_assoc, String.append_right_inj] at texts
  exact ((String.append_left_inj _).mp
    (String.append_assoc.trans (texts.trans String.append_assoc.symm))).symm

end Arrival

/-- The order of reports is total and has as ties exactly the issues with the same file, line,
column, rule and message. The order of arrival does not change a report if those of its issues
that tie are also alike, and does not change it exactly if the texts of those that tie can be
exchanged. -/
theorem arrival_irrelevant_iff (coloured : Bool) (found : List Issue) :
    let text := issueText coloured (marginWidth found)
    (∀ a b : Issue, a.precedes b = true ∨ b.precedes a = true) ∧
      (∀ a b c : Issue, a.precedes b = true → b.precedes c = true → a.precedes c = true) ∧
      (∀ a b : Issue, a.precedes b = true ∧ b.precedes a = true ↔ a.Ties b) ∧
      (∀ a b : Issue, a.Alike b → text a = text b) ∧
      ((∀ a ∈ found, ∀ b ∈ found, a.Ties b → a.Alike b) →
        ∀ found', found'.Perm found → issues coloured found' = issues coloured found) ∧
      ((∀ found', found'.Perm found → issues coloured found' = issues coloured found) ↔
        ∀ a ∈ found, ∀ b ∈ found, a.Ties b → Commutes (text a) (text b)) := by
  intro text
  have alike (a b : Issue) (same : a.Alike b) : text a = text b :=
    congrArg unlines (issueLines_congr coloured (marginWidth found) same)
  refine ⟨fun a b => (Bool.or_eq_true _ _).mp (Issue.precedes_total a b),
    fun a b c => Issue.precedes_trans, fun a b => Issue.ties_iff_precedes.symm, alike,
    ?_, ?_, ?_⟩
  · intro told found' same
    refine issues_perm coloured same fun a here b there tie => ?_
    change text a ++ text b = text b ++ text a
    rw [alike a b (told a here b there tie)]
  · intro same a here b there tie
    exact commutes_of_issues_perm coloured same here there tie
  · intro free found' same
    exact issues_perm coloured same free

/-- A warning, an error behind it in the same file, and an error in another file. -/
theorem arrival_irrelevant_three :
    let found : List Issue :=
      [.rejected ⟨.missingDescription, ⟨"src/app.tsx", ⟨10, 1⟩, "t(\"a\");"⟩⟩,
        .unsupported ⟨"FormattedPlural", ⟨"src/app.tsx", ⟨2, 1⟩, "<FormattedPlural />"⟩⟩,
        .inaccessible "src/a.tsx" "denied"]
    (∀ a ∈ found, ∀ b ∈ found, a.Ties b → a.Alike b) ∧
      ∀ found', found'.Perm found → issues false found' = issues false found := by
  intro found
  have told : ∀ a ∈ found, ∀ b ∈ found, a.Ties b → a.Alike b := by decide +kernel
  exact ⟨told, (arrival_irrelevant_iff false found).2.2.2.2.1 told⟩

/-- A problem with a message text in a call, with the diagnostic of one of its faults. -/
def syntaxIssue (message : String) : Issue :=
  .rejected ⟨.malformedMessage ⟨message, 1, 1, 2⟩, ⟨"src/app.tsx", ⟨1, 1⟩, "t(\"\x7b\");"⟩⟩

/-- Two faults of one message text: the place, the rule and the message do not tell them apart,
and the first to arrive is shown first. -/
theorem arrival_shown :
    let a := syntaxIssue "A"
    let b := syntaxIssue "B"
    [b, a].Perm [a, b] ∧ (a.precedes b = true ∧ b.precedes a = true) ∧
      issueText false 1 a ≠ issueText false 1 b ∧
      issues false [b, a] ≠ issues false [a, b] := by
  intro a b
  have tie : a.Ties b := ⟨rfl, rfl, rfl, rfl, by decide +kernel⟩
  obtain ⟨first, second⟩ := Issue.ties_iff_precedes.mp tie
  have swap : [b, a].Perm [a, b] := List.Perm.swap a b []
  have differ : String.join ([b, a].map (issueText false 1)) ≠
      String.join ([a, b].map (issueText false 1)) := by decide +kernel
  refine ⟨swap, ⟨first, second⟩, fun same => differ ?_, fun same => differ ?_⟩
  · rw [List.map_cons, List.map_singleton, List.map_cons, List.map_singleton, same]
  · have width : marginWidth [a, b] = 1 := by decide +kernel
    rwa [issues_eq_of_pairwise false (List.cons_ne_nil _ _) swap (List.pairwise_pair.mpr second),
      issues_eq_of_pairwise false (List.cons_ne_nil _ _) (.refl _) (List.pairwise_pair.mpr first),
      String.append_left_inj, width] at same

end Report

end MessageCatalog
