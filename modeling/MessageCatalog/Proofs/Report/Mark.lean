import MessageCatalog.Report.Issues
import MessageCatalog.Proofs.Text.Line

/-!
# The mark under a place

A report quotes the line of an issue and puts a mark below it. The mark is moved to the right
by the width of a start of the line, which has as many characters as the column of the place
says. But a column counts the columns in front of the place and not its characters, so the mark
stands under the place only if the two numbers agree, or if what lies between them takes no
columns.
-/

namespace MessageCatalog

namespace Report

open MessageCatalog.Text (between columns displayWidth Context Seamless Source)

section Mark

variable (coloured : Bool)

/-- The columns between the margin and the mark under a line. -/
def markIndent (context : Context) : Nat :=
  displayWidth (beforeColumn context.sourceLine context.position.column)

/-- A line of the margin with a mark behind some columns. -/
def markLine (width : Nat) (severity : Severity) (indent : Nat) : String :=
  marginLine coloured width "" "|"
    (" " ++ blanks indent ++ styled coloured [severityStyle severity] "^")

/-- Whether a report shows an issue in its line, with a mark behind some columns of the line
below: at its turn in the order of the report stand its title and its place, the line in the
margin, the mark, and whatever there is to note. -/
def Shows (found : List Issue) (issue : Issue) (context : Context) (indent : Nat) : Prop :=
  ∃ (earlier later : List Issue) (title : String) (notes : List String),
    Issue.sort found = earlier ++ issue :: later ∧
      let width := marginWidth (Issue.sort found)
      issues coloured found = unlines (earlier.flatMap (issueLines coloured width) ++
        ([title, placeLine coloured issue.place, marginLine coloured width "" "|" "",
          marginLine coloured width (toString context.position.line) "|"
            (" " ++ context.sourceLine),
          markLine coloured width issue.severity indent] ++ notes) ++
        (later.flatMap (issueLines coloured width) ++ [countLine coloured (Issue.sort found)]))

variable {found : List Issue} {issue : Issue} {context : Context}

theorem shownLines_eq (width : Nat) (severity : Severity) (context : Context) :
    shownLines coloured width severity context =
      [marginLine coloured width "" "|" "",
        marginLine coloured width (toString context.position.line) "|"
          (" " ++ context.sourceLine),
        markLine coloured width severity (markIndent context)] := rfl

theorem exists_issueLines (width : Nat) (shown : issue.place = .shown context) :
    ∃ title notes, issueLines coloured width issue =
      title :: placeLine coloured issue.place ::
        (shownLines coloured width issue.severity context ++ notes) := by
  rw [issueLines, shown]
  dsimp only
  rw [List.append_assoc, List.append_assoc]
  exact ⟨_, _, rfl⟩

/-- Every issue with a line is shown in it. -/
theorem shows_of_mem (among : issue ∈ found) (shown : issue.place = .shown context) :
    Shows coloured found issue context (markIndent context) := by
  have sorted : issue ∈ Issue.sort found := (List.mergeSort_perm found _).mem_iff.mpr among
  obtain ⟨earlier, later, split⟩ := List.append_of_mem sorted
  obtain ⟨title, notes, lines⟩ :=
    exists_issueLines coloured (marginWidth (Issue.sort found)) shown
  refine ⟨earlier, later, title, notes, split, ?_⟩
  have some : (Issue.sort found).isEmpty = false := by
    rw [split]
    cases earlier <;> rfl
  rw [issues]
  dsimp only
  rw [some, if_neg Bool.false_ne_true]
  generalize marginWidth (Issue.sort found) = width at lines ⊢
  generalize countLine coloured (Issue.sort found) = count
  rw [split, List.flatMap_append, List.flatMap_cons, lines, shownLines_eq]
  simp only [List.append_assoc, List.cons_append, List.nil_append]

end Mark

section Place

variable {source : Source} {place : Nat}

theorem markIndent_context (source : Source) (file : String) (place : Nat) :
    markIndent (source.context file place) =
      displayWidth ((source.quotedLine place).take (columns (source.before place))) := by
  rw [markIndent, beforeColumn]
  change displayWidth ((String.ofList (source.quotedLine place)).toList.take _) = _
  rw [String.toList_ofList]
  rfl

end Place

/-- A report shows each issue of a place in its line. If there are as many characters as columns
on the line in front of the place, the mark stands right under it. Otherwise it does so exactly
if the characters between the two numbers, where they do not join with those before, take no
columns. -/
theorem mark_under_place_iff (coloured : Bool) (source : Source) (file : String) (place : Nat)
    {found : List Issue} {issue : Issue} (among : issue ∈ found)
    (shown : issue.place = .shown (source.context file place)) :
    let context := source.context file place
    let before := source.before place
    let gap := between before.length (columns before) (source.quotedLine place)
    Shows coloured found issue context (markIndent context) ∧
      (columns before = before.length → markIndent context = displayWidth before) ∧
      (Seamless gap → (markIndent context = displayWidth before ↔ displayWidth gap = 0)) := by
  intro context before gap
  have start : (source.quotedLine place).take before.length = before := source.take_quotedLine place
  refine ⟨shows_of_mem coloured among shown, ?_, ?_⟩
  · intro single
    rw [markIndent_context, single, start]
  · intro seamless
    rw [markIndent_context, ← Text.displayWidth_take_eq_iff seamless, start]

/-- A message whose text is not known, declared at a place of a unit. -/
def unknownAt (text : String) (place : Nat) : Issue :=
  .rejected ⟨.dynamicValue "id", (Source.ofString text).context "app.tsx" place⟩

/-- Behind a wide character there are more columns than characters, and the first character
behind the place takes one of them. -/
theorem mark_under_place_iff_wide :
    let source := Source.ofString "日; t(x);"
    let gap := between (source.before 5).length (columns (source.before 5)) (source.quotedLine 5)
    unknownAt "日; t(x);" 5 ∈ [unknownAt "日; t(x);" 5] ∧
      (unknownAt "日; t(x);" 5).place = .shown (source.context "app.tsx" 5) ∧
      Seamless gap ∧ displayWidth gap = 1 ∧
      markIndent (source.context "app.tsx" 5) ≠ displayWidth (source.before 5) := by
  intro source gap
  have among : unknownAt "日; t(x);" 5 ∈ [unknownAt "日; t(x);" 5] := List.mem_singleton_self _
  have seamless : Seamless gap := by decide +kernel
  have one : displayWidth gap = 1 := by decide +kernel
  refine ⟨among, rfl, seamless, one, fun right => ?_⟩
  have none := ((mark_under_place_iff false source "app.tsx" 5 among rfl).2.2 seamless).mp right
  exact absurd (one.symm.trans none) (by decide)

/-- The mark stands behind seven columns, but the place is behind six. -/
theorem mark_misplaced :
    let source := Source.ofString "日; t(x);"
    displayWidth (source.before 5) = 6 ∧
      Shows false [unknownAt "日; t(x);" 5] (unknownAt "日; t(x);" 5)
        (source.context "app.tsx" 5) 7 := by
  intro source
  have seven : markIndent (source.context "app.tsx" 5) = 7 := by decide +kernel
  exact ⟨by decide +kernel, seven ▸ shows_of_mem false (List.mem_singleton_self _) rfl⟩

end Report

end MessageCatalog
