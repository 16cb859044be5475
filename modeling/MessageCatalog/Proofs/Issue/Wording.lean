import MessageCatalog.Issue.Basic

/-!
# The wording of issues

What is wrong with a descriptor is worded as one text and shown in two parts: the message of
the issue is the text up to its first line feed, and the details are what follows. Only the
diagnostic of a message text is meant to stand behind a line feed. But a name that is quoted
in the wording is the author's, and a line feed in it divides the text at that place.
-/

namespace MessageCatalog

namespace Extraction.Problem

/-- The diagnostic of the message text, if that is what is wrong. -/
def diagnostic? : Problem → Option Message.Diagnostic
  | malformedMessage diagnostic => some diagnostic
  | malformedAttribute diagnostic => some diagnostic
  | _ => none

/-- The name that the wording quotes. A problem of a message text or of a description quotes
none. -/
def quotedName : Problem → String
  | dynamicValue property => property
  | missingField field => field.name
  | conflict key => key
  | _ => ""

/-- A diagnostic has its lines to itself, behind a line that says what it is about. -/
theorem message_of_diagnostic {problem : Problem} {diagnostic : Message.Diagnostic}
    (carries : problem.diagnostic? = some diagnostic) :
    ∃ line : List Char, '\n' ∉ line ∧
      problem.message.toList = line ++ '\n' :: diagnostic.display.toList := by
  cases problem with
  | malformedMessage diagnostic' =>
    obtain rfl := Option.some.inj carries
    refine ⟨("Message failed to parse. " ++
      "See: https://formatjs.io/docs/core-concepts/icu-syntax").toList, by decide +kernel, ?_⟩
    simp only [message.eq_def, String.toList_append]
    rw [List.append_cons]
    exact congrArg (· ++ diagnostic'.display.toList) (by decide +kernel)
  | malformedAttribute diagnostic' =>
    obtain rfl := Option.some.inj carries
    refine ⟨("Message failed to parse. It looks like `\\`s were used for escaping, " ++
      "this won't work with JSX string literals. Wrap with `\x7b\x7d`. See: " ++
      "http://facebook.github.io/react/docs/jsx-gotchas.html").toList, by decide +kernel, ?_⟩
    simp only [message.eq_def, String.toList_append]
    rw [List.append_cons]
    exact congrArg (· ++ diagnostic'.display.toList) (by decide +kernel)
  | dynamicValue | missingField | missingDescription | conflict => contradiction

/-- Without a diagnostic, all line feeds of the wording are those of the quoted name. -/
theorem lineFeed_mem_message_iff {problem : Problem} (plain : problem.diagnostic? = none) :
    '\n' ∈ problem.message.toList ↔ '\n' ∈ problem.quotedName.toList := by
  cases problem with
  | dynamicValue | missingField | missingDescription | conflict =>
    simp [message.eq_def, quotedName]
  | malformedMessage | malformedAttribute => contradiction

end Extraction.Problem

namespace Issue

open Extraction (Failure)

section Lines

variable {s t : List Char}

theorem lineFeed_not_mem_cutLine (s : List Char) : '\n' ∉ (cutLine s).1 := by
  induction s with
  | nil => exact List.not_mem_nil
  | cons c s ih =>
    rw [cutLine]
    split
    · exact List.not_mem_nil
    · rename_i inside
      exact by rw [List.mem_cons, not_or]; exact ⟨Ne.symm inside, ih⟩

theorem cutLine_of_plain (plain : '\n' ∉ s) : cutLine s = (s, none) := by
  induction s with
  | nil => rfl
  | cons c s ih =>
    rw [List.mem_cons, not_or] at plain
    obtain ⟨inside, plain⟩ := plain
    rw [cutLine, if_neg (Ne.symm inside), ih plain]

theorem cutLine_append (plain : '\n' ∉ s) (t : List Char) :
    cutLine (s ++ '\n' :: t) = (s, some t) := by
  induction s with
  | nil => rfl
  | cons c s ih =>
    rw [List.mem_cons, not_or] at plain
    obtain ⟨inside, plain⟩ := plain
    rw [List.cons_append, cutLine, if_neg (Ne.symm inside), ih plain]

/-- The two parts of a text make up the text. -/
theorem cutLine_join (s : List Char) :
    (cutLine s).1 ++ ((cutLine s).2.map ('\n' :: ·)).getD [] = s := by
  by_cases divided : '\n' ∈ s
  · obtain ⟨line, rest, rfl, plain⟩ := List.eq_append_cons_of_mem divided
    rw [cutLine_append plain]
    rfl
  · rw [cutLine_of_plain divided, Option.map_none, Option.getD_none, List.append_nil]

theorem cutLine_snd_eq_none_iff : (cutLine s).2 = none ↔ '\n' ∉ s := by
  constructor
  · intro whole divided
    obtain ⟨line, rest, rfl, plain⟩ := List.eq_append_cons_of_mem divided
    rw [cutLine_append plain] at whole
    contradiction
  · intro plain
    rw [cutLine_of_plain plain]

end Lines

/-- Whether an issue of a descriptor is divided where its wording is: the message is one line,
the details are the diagnostic of the message text, and without one the message says it all. -/
structure Divided (failure : Failure) : Prop where
  line : '\n' ∉ (message (.rejected failure)).toList
  details : details? (.rejected failure) =
    failure.problem.diagnostic?.map Message.Diagnostic.display
  whole : failure.problem.diagnostic? = none →
    message (.rejected failure) = failure.problem.message

section Wording

variable {failure : Failure}

theorem message_rejected (failure : Failure) :
    (message (.rejected failure)).toList = (cutLine failure.problem.message.toList).1 := by
  rw [message, String.toList_ofList]

theorem details?_rejected (failure : Failure) :
    details? (.rejected failure) =
      (cutLine failure.problem.message.toList).2.map String.ofList := rfl

theorem lineFeed_not_mem_message (failure : Failure) :
    '\n' ∉ (message (.rejected failure)).toList := by
  rw [message_rejected]
  exact lineFeed_not_mem_cutLine _

/-- The message and the details make up the wording. -/
theorem message_append_details (failure : Failure) :
    message (.rejected failure) ++ ((details? (.rejected failure)).map ("\n" ++ ·)).getD "" =
      failure.problem.message := by
  apply String.toList_injective
  rw [String.toList_append, message_rejected, details?_rejected]
  conv => rhs; rw [← cutLine_join failure.problem.message.toList]
  cases (cutLine failure.problem.message.toList).2 with
  | none => rfl
  | some rest =>
    rw [Option.map_some, Option.map_some, Option.map_some, Option.getD_some, Option.getD_some,
      String.toList_append, String.toList_ofList]
    simp

/-- A wording with a diagnostic is divided in front of it. -/
theorem divided_of_diagnostic {diagnostic : Message.Diagnostic}
    (carries : failure.problem.diagnostic? = some diagnostic) : Divided failure := by
  refine ⟨lineFeed_not_mem_message failure, ?_,
    fun none => absurd (carries.symm.trans none) (by simp)⟩
  obtain ⟨line, plain, text⟩ := Extraction.Problem.message_of_diagnostic carries
  rw [details?_rejected, text, cutLine_append plain, Option.map_some, String.ofList_toList,
    carries, Option.map_some]

/-- A wording without a diagnostic is divided by a line feed in the quoted name, and by nothing
else. -/
theorem divided_iff_of_plain (plain : failure.problem.diagnostic? = none) :
    Divided failure ↔ '\n' ∉ failure.problem.quotedName.toList := by
  rw [← Extraction.Problem.lineFeed_mem_message_iff plain]
  constructor
  · intro divided
    have whole := divided.details
    rw [details?_rejected, plain, Option.map_none, Option.map_eq_none_iff] at whole
    exact cutLine_snd_eq_none_iff.mp whole
  · intro single
    refine ⟨lineFeed_not_mem_message failure, ?_, fun _ => ?_⟩
    · rw [details?_rejected, cutLine_of_plain single, plain]
      rfl
    · rw [message, cutLine_of_plain single, String.ofList_toList]

end Wording

/-- For whatever is wrong with a descriptor, the message of its issue is one line, and together
with the details it is the whole wording. The details are the diagnostic of a message text and
nothing else exactly if there is no line feed in the name that the wording quotes. -/
theorem wording_divided_iff (failure : Failure) :
    '\n' ∉ (message (.rejected failure)).toList ∧
      message (.rejected failure) ++ ((details? (.rejected failure)).map ("\n" ++ ·)).getD "" =
        failure.problem.message ∧
      (Divided failure ↔ '\n' ∉ failure.problem.quotedName.toList) := by
  refine ⟨lineFeed_not_mem_message failure, message_append_details failure, ?_⟩
  cases carried : failure.problem.diagnostic? with
  | none => exact divided_iff_of_plain carried
  | some diagnostic =>
    refine iff_of_true (divided_of_diagnostic carried) ?_
    cases problem : failure.problem with
    | malformedMessage | malformedAttribute => exact List.not_mem_nil
    | dynamicValue | missingField | missingDescription | conflict =>
      rw [problem] at carried
      contradiction

/-- A key with a line feed is cut: its second line and what follows it are taken for a
diagnostic. -/
theorem wording_divided_in_key :
    let failure : Failure := ⟨.conflict "a\nb", ⟨"app.tsx", ⟨1, 1⟩, "t(\"a\\nb\");"⟩⟩
    message (.rejected failure) = "Duplicate message id: \"a" ∧
      details? (.rejected failure) =
        some "b\", but the `description` and/or `defaultMessage` are different." ∧
      ¬ Divided failure := by
  intro failure
  refine ⟨by decide +kernel, by decide +kernel, fun divided => ?_⟩
  exact absurd divided.details (by decide +kernel)

end Issue

end MessageCatalog
