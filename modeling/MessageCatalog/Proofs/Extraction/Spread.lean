import MessageCatalog.Proofs.Catalog.Location
import MessageCatalog.Proofs.Descriptor.Resolution
import MessageCatalog.Proofs.Extraction.Passage
import MessageCatalog.Proofs.Extraction.Rewalk

/-!
# Spread arguments

What is spread into a shorthand call is not looked into. A call that stores a message has
its message in front of everything that is spread, so that no expansion moves it. The comment
is the third argument as it is written; what is spread there, or before it with nothing behind,
counts as no comment. So an expansion stores the same message exactly if it has the same
comment.
-/

namespace MessageCatalog

namespace Extraction

open Catalog Descriptor Syntax

/-! ### Expansions -/

/-- The second list has arguments that are not spread in the place of every spread argument
of the first list. -/
inductive Expands : List Node → List Node → Prop
  | nil : Expands [] []
  | keep {e : Node} {arguments expanded : List Node} (plain : e.form ≠ .spread)
      (rest : Expands arguments expanded) : Expands (e :: arguments) (e :: expanded)
  | replace {e : Node} {elements arguments expanded : List Node} (spread : e.form = .spread)
      (plain : ∀ x ∈ elements, x.form ≠ .spread) (rest : Expands arguments expanded) :
      Expands (e :: arguments) (elements ++ expanded)

/-- A third argument that is not spread stands behind one that is. -/
def Displaced (arguments : List Node) : Prop :=
  (∃ c ∈ arguments[2]?, c.form ≠ .spread) ∧ ∃ x ∈ arguments.take 2, x.form = .spread

/-- The comment is the trimmed text of the third argument. There is none if there is no such
argument, if it is spread, or if it is blank. -/
def HasComment (evaluator : Evaluator) (arguments : List Node) (comment : Option String) : Prop :=
  match Draft.argument? arguments 2 with
  | none => comment = none
  | some c => ∃ value, evaluator c = some value ∧
      comment = if Text.trim value.toText = "" then none else some (Text.trim value.toText)

section Expansions

variable {evaluator : Evaluator} {arguments expanded : List Node} {c : Node} {position : Nat}
  {comment : Option String} {content : Content}

/-- Arguments in front of everything that is spread stay where they are. -/
theorem Expands.getElem?_eq (expands : Expands arguments expanded)
    (plain : ∀ x ∈ arguments.take (position + 1), x.form ≠ .spread) :
    expanded[position]? = arguments[position]? := by
  induction expands generalizing position with
  | nil => rfl
  | keep _ _ ih =>
      cases position with
      | zero => rfl
      | succ position =>
          apply ih
          intro x here
          exact plain x (List.mem_cons_of_mem _ here)
  | replace spread => exact absurd spread (plain _ List.mem_cons_self)

theorem Expands.argument?_eq (expands : Expands arguments expanded)
    (plain : ∀ x ∈ arguments.take (position + 1), x.form ≠ .spread) :
    Draft.argument? expanded position = Draft.argument? arguments position := by
  rw [Draft.argument?, Draft.argument?, expands.getElem?_eq plain]

theorem Expands.first_eq (expands : Expands arguments expanded)
    (first : Draft.argument? arguments 0 = some c) : Draft.argument? expanded 0 = some c := by
  rw [expands.argument?_eq, first]
  obtain ⟨here, plain⟩ := argument?_eq_some_iff.mp first
  cases arguments with
  | nil => exact absurd here nofun
  | cons e arguments =>
      obtain rfl := Option.some.inj here
      simpa using plain

/-- If something is spread into the first three arguments and the third is not displaced,
then there is no comment. -/
theorem argument?_eq_none_of_spread (settled : ¬ Displaced arguments)
    (spread : ∃ x ∈ arguments.take 3, x.form = .spread) : Draft.argument? arguments 2 = none := by
  cases third : Draft.argument? arguments 2 with
  | none => rfl
  | some c =>
      exfalso
      obtain ⟨here, plain⟩ := argument?_eq_some_iff.mp third
      obtain ⟨x, among, spread⟩ := spread
      rw [List.take_add_one, here, List.mem_append] at among
      cases among with
      | inl before => exact settled ⟨⟨c, here, plain⟩, x, before, spread⟩
      | inr last =>
          obtain rfl := List.mem_singleton.mp last
          exact plain spread

/-! ### The content of a call -/

theorem fieldText_comment_eq_ok_iff :
    fieldText evaluator .comment (.expression c) = .ok comment ↔
      ∃ value, evaluator c = some value ∧
        comment = if Text.trim value.toText = "" then none else some (Text.trim value.toText) := by
  rw [fieldText, Holder.text, Holder.value]
  cases evaluator c with
  | none => simp [bind, Except.bind]
  | some value =>
      simp only [bind, Except.bind, pure, Except.pure, String.isEmpty_iff, Except.ok.injEq,
        Option.some.injEq, exists_eq_left']
      exact eq_comm

/-- The first argument is name and message, and the third one decides on the comment. -/
theorem resolve_ofArguments_iff {e : Node} (first : Draft.argument? arguments 0 = some e) :
    (Draft.ofArguments arguments).resolve evaluator = .ok content ↔
      fieldText evaluator .id (.expression e) = .ok content.id ∧
        content.description = none ∧
        fieldText evaluator .defaultMessage (.expression e) = .ok content.defaultMessage ∧
        HasComment evaluator arguments content.comment := by
  obtain ⟨id, description, message, comment⟩ := content
  rw [Draft.ofArguments, first, HasComment, Draft.resolve]
  cases Draft.argument? arguments 2 with
  | none =>
      simp only [resolveOnto_cons_eq_ok_iff]
      constructor
      · rintro ⟨id, named, message, said, rest⟩
        cases rest
        exact ⟨named, rfl, said, rfl⟩
      · rintro ⟨named, rfl, said, rfl⟩
        exact ⟨_, named, _, said, rfl⟩
  | some c =>
      simp only [← fieldText_comment_eq_ok_iff]
      change Draft.resolveOnto evaluator .empty
        [(.id, .expression e), (.defaultMessage, .expression e), (.comment, .expression c)] = _ ↔ _
      simp only [resolveOnto_cons_eq_ok_iff]
      constructor
      · rintro ⟨id, named, message, said, comment, commented, rest⟩
        cases rest
        exact ⟨named, rfl, said, commented⟩
      · rintro ⟨named, rfl, said, commented⟩
        exact ⟨_, named, _, said, _, commented, rfl⟩

/-- A call without a first argument, or with one that is spread, names no message. -/
theorem id_eq_none (missing : Draft.argument? arguments 0 = none)
    (resolved : (Draft.ofArguments arguments).resolve evaluator = .ok content) :
    content.id = none := by
  have absent : Field.id ∉ (Draft.ofArguments arguments).map Prod.fst := by
    rw [Draft.ofArguments, missing]
    cases Draft.argument? arguments 2 with
    | none => exact List.not_mem_nil
    | some c => simp [Draft.insert]
  have kept : content.get .id = Content.empty.get .id := get_of_absent resolved absent
  exact kept

end Expansions

/-! ### Calls that store -/

/-- The call `t(arguments)`. -/
def callOf (span name : Span) (arguments : List Node) : Node :=
  .mk .call span (.mk (.identifier shorthandCallee) name [] :: arguments)

/-- Visiting the call stores the entry: it was not processed before, it does not fail, and the
catalog accepts the entry that its arguments make. -/
structure Setting.Stores (s : Setting) (p : Progress) (span name : Span) (arguments : List Node)
    (e : Entry) : Prop where
  fresh : ⟨.call, span⟩ ∉ p.processed
  fine : (s.visit p (callOf span name arguments)).failure = none
  made : ∃ content, (Draft.ofArguments arguments).resolve s.evaluator = .ok content ∧
    p.catalog.insert content (s.location span.start) =
      .ok ((s.visit p (callOf span name arguments)).progress.catalog, e)

/-- Visiting the call stores this entry, at whatever location. -/
def Setting.StoresSame (s : Setting) (p : Progress) (span name : Span) (arguments : List Node)
    (e : Entry) : Prop :=
  ∃ e', s.Stores p span name arguments e' ∧ e'.unlocated = e.unlocated

section Calls

variable {s : Setting} {p : Progress} {span span' name : Span}
  {arguments expanded : List Node} {e : Entry} {catalog catalog' : Catalog} {content : Content}
  {location : Option Location}

theorem visit_callOf (fresh : ⟨.call, span⟩ ∉ p.processed) (name : Span)
    (arguments : List Node) : s.visit p (callOf span name arguments) =
      s.visitShorthand p span (.mk (.identifier shorthandCallee) name []) arguments := by
  rw [callOf, Setting.visit]
  exact visitCall_shorthand fresh rfl

theorem stores_iff (fresh : ⟨.call, span⟩ ∉ p.processed) :
    s.Stores p span name arguments e ↔ ∃ content catalog,
      (Draft.ofArguments arguments).resolve s.evaluator = .ok content ∧
        p.catalog.insert content (s.location span.start) = .ok (catalog, e) := by
  constructor
  · rintro ⟨-, -, content, resolved, inserted⟩
    exact ⟨content, _, resolved, inserted⟩
  · rintro ⟨content, catalog, resolved, inserted⟩
    have visited : s.visit p (callOf span name arguments) =
        ⟨callOf span name arguments, Progress.mark { p with catalog } ⟨.call, span⟩,
          none⟩ := by
      rw [visit_callOf fresh, Setting.visitShorthand, resolved]
      simp only [store_eq, inserted]
      rfl
    refine ⟨fresh, ?_, content, resolved, ?_⟩
    · rw [visited]
    · rw [visited]
      exact inserted

/-- A catalog that accepts an entry accepts it at every location. -/
theorem insert_elsewhere (inserted : catalog.insert content location = .ok (catalog', e))
    (location' : Option Location) : ∃ catalog'' e',
      catalog.insert content location' = .ok (catalog'', e') ∧ e'.unlocated = e.unlocated := by
  have first := insert_unlocated catalog content location
  have second := insert_unlocated catalog content location'
  rw [first, inserted] at second
  cases inserted' : catalog.insert content location' with
  | error problem => exact absurd (inserted' ▸ second) nofun
  | ok result =>
      rw [inserted'] at second
      exact ⟨result.1, result.2, rfl, (congrArg Prod.snd (Except.ok.inj second)).symm⟩

theorem comment_of_insert (inserted : catalog.insert content location = .ok (catalog', e)) :
    content.comment = e.comment :=
  (entry_eq_ok_iff.mp (insert_eq_ok_iff.mp inserted).1).2.comment

/-- The message of a call that stores an entry is not spread. -/
theorem Setting.Stores.exists_first (stores : s.Stores p span name arguments e) :
    ∃ first, Draft.argument? arguments 0 = some first := by
  obtain ⟨content, resolved, inserted⟩ := stores.made
  cases found : Draft.argument? arguments 0 with
  | some first => exact ⟨first, rfl⟩
  | none =>
      have complete := (entry_eq_ok_iff.mp (insert_eq_ok_iff.mp inserted).1).1
      exact absurd (id_eq_none found resolved) complete.id

/-- The comment of a stored entry is that of the call. -/
theorem Setting.Stores.hasComment (stores : s.Stores p span name arguments e) :
    HasComment s.evaluator arguments e.comment := by
  obtain ⟨first, here⟩ := stores.exists_first
  obtain ⟨content, resolved, inserted⟩ := stores.made
  have comments := ((resolve_ofArguments_iff here).mp resolved).2.2.2
  rwa [comment_of_insert inserted] at comments

/-- A third argument that stands behind a spread one is the comment as it is written, wherever
an expansion moves it. -/
theorem Setting.Stores.comment_of_displaced (stores : s.Stores p span name arguments e)
    (displaced : Displaced arguments) :
    ∃ c value, arguments[2]? = some c ∧ c.form ≠ .spread ∧ s.evaluator c = some value ∧
      e.comment =
        if Text.trim value.toText = "" then none else some (Text.trim value.toText) := by
  obtain ⟨⟨c, here, plain⟩, -⟩ := displaced
  have comments := stores.hasComment
  rw [HasComment, argument?_eq_some_iff.mpr ⟨here, plain⟩] at comments
  obtain ⟨value, known, commented⟩ := comments
  exact ⟨c, value, here, plain, known, commented⟩

/-- An expansion stores the same entry exactly if it has the same comment. -/
theorem Setting.Stores.same_iff (stores : s.Stores p span name arguments e)
    (expands : Expands arguments expanded) (fresh : ⟨.call, span'⟩ ∉ p.processed)
    (name' : Span) : s.StoresSame p span' name' expanded e ↔
      HasComment s.evaluator expanded e.comment := by
  constructor
  · rintro ⟨e', stores', same⟩
    have comments : e'.unlocated.comment = e.unlocated.comment := congrArg Entry.comment same
    change e'.comment = e.comment at comments
    rw [← comments]
    exact stores'.hasComment
  · intro comments
    obtain ⟨first, here⟩ := stores.exists_first
    obtain ⟨content, resolved, inserted⟩ := stores.made
    obtain ⟨named, description, said, -⟩ := (resolve_ofArguments_iff here).mp resolved
    rw [← comment_of_insert inserted] at comments
    have resolved' := (resolve_ofArguments_iff (expands.first_eq here)).mpr
      ⟨named, description, said, comments⟩
    obtain ⟨catalog', e', inserted', same⟩ := insert_elsewhere inserted (s.location span'.start)
    exact ⟨e', (stores_iff fresh).mpr ⟨content, catalog', resolved', inserted'⟩, same⟩

end Calls

/-- The message of a call that stores an entry is not spread. An expansion that has the
comment of the entry stores it too, and each has if none of the first three arguments is
spread. Unless a third argument stands behind a spread one, no other expansion stores the
entry, and there is no comment if one of the first three arguments is spread. -/
theorem expansion_stores_same {s : Setting} {p : Progress} {span span' name : Span}
    {arguments expanded : List Node} {e : Entry} (stores : s.Stores p span name arguments e)
    (expands : Expands arguments expanded) (fresh : ⟨.call, span'⟩ ∉ p.processed)
    (name' : Span) :
    (∃ first ∈ arguments.head?, first.form ≠ .spread) ∧
      (HasComment s.evaluator expanded e.comment → s.StoresSame p span' name' expanded e) ∧
      ((∀ x ∈ arguments.take 3, x.form ≠ .spread) → s.StoresSame p span' name' expanded e) ∧
      (¬ Displaced arguments →
        (s.StoresSame p span' name' expanded e ↔ HasComment s.evaluator expanded e.comment) ∧
          ((∃ x ∈ arguments.take 3, x.form = .spread) → e.comment = none)) := by
  have same := stores.same_iff expands fresh name'
  have comments := stores.hasComment
  refine ⟨?_, same.mpr, ?_, ?_⟩
  · obtain ⟨first, here⟩ := stores.exists_first
    obtain ⟨found, plain⟩ := argument?_eq_some_iff.mp here
    exact ⟨first, by rwa [List.head?_eq_getElem?], plain⟩
  · intro plain
    apply same.mpr
    rwa [HasComment, expands.argument?_eq plain]
  · intro settled
    refine ⟨same, ?_⟩
    intro spread
    rwa [HasComment, argument?_eq_none_of_spread settled spread] at comments

/-! ### A call with a spread argument -/

/-- How messages are extracted from a unit without imports and constants. -/
def bareSetting : Setting where
  options := .standard
  evaluator := Constant.evaluate .empty
  resolver := .ofImports []
  file := "test.tsx"
  source := .ofString ""

/-- The arguments of `t("x", null, ...rest)`. -/
def spreadArguments : List Node :=
  [.mk (.string "x") ⟨2, 5⟩ [], .mk .null ⟨7, 11⟩ [],
    .mk .spread ⟨13, 20⟩ [.mk (.identifier "rest") ⟨16, 20⟩ []]]

/-- These arguments with one text in the place of what is spread. -/
def spreadArgumentsWith (comment : String) : List Node :=
  [.mk (.string "x") ⟨2, 5⟩ [], .mk .null ⟨7, 11⟩ [], .mk (.string comment) ⟨13, 16⟩ []]

theorem expands_spreadArguments (comment : String) :
    Expands spreadArguments (spreadArgumentsWith comment) := by
  have replaced : Expands [.mk .spread ⟨13, 20⟩ [.mk (.identifier "rest") ⟨16, 20⟩ []]]
      ([.mk (.string comment) ⟨13, 16⟩ []] ++ []) := .replace rfl (by simp) .nil
  exact .keep (by simp) (.keep (by simp) replaced)

theorem stores_spreadArguments :
    bareSetting.Stores (.start .standard) ⟨0, 21⟩ ⟨0, 1⟩ spreadArguments
      ⟨"x", none, "x", none, none⟩ :=
  ⟨List.not_mem_nil, rfl, _, rfl, rfl⟩

/-- The call `t("x", null, ...rest)` is stored without a comment. The call with a blank text
in the place of what is spread is stored in the same way, but not the one with a comment. -/
theorem expansion_stores_same_blank :
    let e : Entry := ⟨"x", none, "x", none, none⟩
    bareSetting.Stores (.start .standard) ⟨0, 21⟩ ⟨0, 1⟩ spreadArguments e ∧
      Expands spreadArguments (spreadArgumentsWith " ") ∧
      Expands spreadArguments (spreadArgumentsWith "c") ∧
      bareSetting.StoresSame (.start .standard) ⟨0, 17⟩ ⟨0, 1⟩ (spreadArgumentsWith " ") e ∧
      ¬ bareSetting.StoresSame (.start .standard) ⟨0, 17⟩ ⟨0, 1⟩ (spreadArgumentsWith "c") e := by
  intro e
  have settled : ¬ Displaced spreadArguments := by
    rintro ⟨⟨c, here, plain⟩, -⟩
    cases here
    exact plain rfl
  have fresh : ⟨.call, ⟨0, 17⟩⟩ ∉ (Progress.start .standard).processed := List.not_mem_nil
  have alike (comment : String) := expansion_stores_same stores_spreadArguments
    (expands_spreadArguments comment) fresh ⟨0, 1⟩
  refine ⟨stores_spreadArguments, expands_spreadArguments _, expands_spreadArguments _, ?_, ?_⟩
  · obtain ⟨-, kept, -⟩ := alike " "
    exact kept ⟨.text " ", rfl, rfl⟩
  · obtain ⟨-, -, -, exactly⟩ := alike "c"
    intro same
    obtain ⟨value, known, none⟩ := (exactly settled).1.mp same
    cases known
    exact absurd none (by decide)

/-- What is spread can be a comment, so an expansion need not store the same entry. -/
theorem expansion_stores_other :
    (bareSetting.Stores (.start .standard) ⟨0, 21⟩ ⟨0, 1⟩ spreadArguments
        ⟨"x", none, "x", none, none⟩ ∧
      Expands spreadArguments (spreadArgumentsWith "c") ∧
      bareSetting.Stores (.start .standard) ⟨0, 17⟩ ⟨0, 1⟩ (spreadArgumentsWith "c")
        ⟨"x##c", none, "x", some "c", none⟩) ∧
    ¬ ∀ (s : Setting) (p : Progress) (span span' name name' : Span)
        (arguments expanded : List Node) (e : Entry), s.Stores p span name arguments e →
      Expands arguments expanded → ⟨.call, span'⟩ ∉ p.processed →
        s.StoresSame p span' name' expanded e := by
  have expands := expands_spreadArguments "c"
  refine ⟨⟨stores_spreadArguments, expands, List.not_mem_nil, rfl, _, rfl, rfl⟩, ?_⟩
  intro claimed
  obtain ⟨e', stores, same⟩ := claimed _ _ _ ⟨0, 17⟩ _ ⟨0, 1⟩ _ _ _ stores_spreadArguments expands
    List.not_mem_nil
  obtain ⟨value, known, commented⟩ := stores.hasComment
  cases known
  have comment : e'.unlocated.comment = none := congrArg Entry.comment same
  exact absurd (comment.symm.trans commented) (by decide)

/-- The arguments of `t("x", ...rest, "c")`. -/
def displacedArguments : List Node :=
  [.mk (.string "x") ⟨2, 5⟩ [], .mk .spread ⟨7, 14⟩ [.mk (.identifier "rest") ⟨10, 14⟩ []],
    .mk (.string "c") ⟨16, 19⟩ []]

/-- These arguments if nothing is spread. -/
def collapsedArguments : List Node :=
  [.mk (.string "x") ⟨2, 5⟩ [], .mk (.string "c") ⟨16, 19⟩ []]

theorem expands_displacedArguments : Expands displacedArguments collapsedArguments := by
  have last : Expands [.mk (.string "c") ⟨16, 19⟩ []] [.mk (.string "c") ⟨16, 19⟩ []] :=
    .keep (by simp) .nil
  exact .keep (by simp) (.replace rfl (fun _ none => absurd none List.not_mem_nil) last)

/-- The call `t("x", ...rest, "c")` is stored with its third argument as the comment. If nothing
is spread, this is the second argument, and the call is stored without a comment. -/
theorem displaced_stores_other :
    Displaced displacedArguments ∧ Expands displacedArguments collapsedArguments ∧
      bareSetting.Stores (.start .standard) ⟨0, 20⟩ ⟨0, 1⟩ displacedArguments
        ⟨"x##c", none, "x", some "c", none⟩ ∧
      bareSetting.Stores (.start .standard) ⟨0, 20⟩ ⟨0, 1⟩ collapsedArguments
        ⟨"x", none, "x", none, none⟩ := by
  have spread : .mk .spread ⟨7, 14⟩ [.mk (.identifier "rest") ⟨10, 14⟩ []] ∈
      displacedArguments.take 2 := List.mem_cons_of_mem _ List.mem_cons_self
  refine ⟨⟨⟨_, rfl, nofun⟩, _, spread, rfl⟩, expands_displacedArguments, ?_, ?_⟩
  · exact ⟨List.not_mem_nil, rfl, _, rfl, rfl⟩
  · exact ⟨List.not_mem_nil, rfl, _, rfl, rfl⟩

end Extraction

end MessageCatalog
