import MessageCatalog.Proofs.Catalog.History
import MessageCatalog.Proofs.Descriptor.Resolution
import MessageCatalog.Proofs.Message.Canonical

/-!
# Repeated declarations

Once a key stands for a text, it stands for this text in every later catalog. So a
declaration under a key that is in use is compared with the first one under it, no matter
what has come in between. What is compared are canonical texts, and these are equal
exactly if the messages are: also where the canonical text does not read back.
-/

namespace MessageCatalog

namespace Catalog

open Descriptor Extraction Message

section Text

variable {catalog catalog' : Catalog} {i : Insertion} {e existing : Entry} {key : String}

/-- A key keeps its text. -/
theorem Adds.exists_sameText (adds : Adds catalog e catalog')
    (agreement : ∀ existing ∈ catalog.get? e.id, SameText existing e)
    (found : catalog.get? key = some existing) :
    ∃ later, catalog'.get? key = some later ∧ SameText existing later := by
  rw [adds.get]
  by_cases same : key = e.id
  · subst same
    exact ⟨e, if_pos rfl, agreement existing found⟩
  · exact ⟨existing, by rw [if_neg same, found], rfl, rfl⟩

/-- An insertion that is tried keeps what is known of the catalog: whether descriptions
are enforced, and the text under a key. -/
theorem attempt_keeps (i : Insertion) (found : catalog.get? key = some existing) :
    (catalog.attempt i).enforceDescriptions = catalog.enforceDescriptions ∧
      ∃ later, (catalog.attempt i).get? key = some later ∧ SameText existing later := by
  cases decision : catalog.accepts i with
  | false =>
      rw [attempt_of_rejected decision]
      exact ⟨rfl, existing, found, rfl, rfl⟩
  | true =>
      obtain ⟨⟨catalog', e⟩, inserted⟩ := accepts_iff_exists.mp decision
      obtain ⟨adds, agreement⟩ := adds_of_add (insert_eq_ok_iff.mp inserted).2
      rw [attempt_of_insert inserted]
      exact ⟨adds.enforces, adds.exists_sameText agreement found⟩

theorem attemptAll_keeps (history : List Insertion) (found : catalog.get? key = some existing) :
    (catalog.attemptAll history).enforceDescriptions = catalog.enforceDescriptions ∧
      ∃ later, (catalog.attemptAll history).get? key = some later ∧ SameText existing later := by
  induction history generalizing catalog existing with
  | nil => exact ⟨rfl, existing, found, rfl, rfl⟩
  | cons i history ih =>
      obtain ⟨enforces, later, found', same⟩ := attempt_keeps i found
      obtain ⟨enforces', last, found'', same'⟩ := ih found'
      exact ⟨enforces'.trans enforces, last, found'', same.1.trans same'.1,
        same.2.trans same'.2⟩

end Text

/-! ### Declaring a message again -/

/-- The catalog accepts the content and gets no new entry by it. -/
def Collapses (catalog : Catalog) (content : Content) (location : Option Location) : Prop :=
  ∃ result, catalog.insert content location = .ok result ∧
    result.1.entries.map Entry.id = catalog.entries.map Entry.id

section Repetition

variable {catalog : Catalog} {content : Content} {existing : Entry} {key text : String}

/-- Content under a key that is in use, with the description that is kept there, collapses
if it has the message that is kept there, and is in conflict otherwise. -/
theorem insert_again (complete : Complete catalog.enforceDescriptions content)
    (known : keyOf content = some key) (found : catalog.get? key = some existing)
    (described : content.description = existing.description)
    (declared : content.defaultMessage = some text) (location : Option Location) :
    (Collapses catalog content location ↔ existing.defaultMessage = text) ∧
      (catalog.insert content location = .error (.conflict key) ↔
        existing.defaultMessage ≠ text) := by
  obtain ⟨e, made⟩ := exists_entry complete location
  have declares := (entry_eq_ok_iff.mp made).2
  obtain rfl := Option.some.inj (known.symm.trans declares.key)
  obtain rfl := Option.some.inj (declared.symm.trans declares.defaultMessage)
  by_cases same : existing.defaultMessage = e.defaultMessage
  · obtain ⟨catalog', added⟩ : ∃ catalog', catalog.add e = .ok catalog' := by
      refine exists_add_iff.mpr fun other found' => ?_
      obtain rfl := Option.some.inj (found.symm.trans found')
      exact ⟨described.symm.trans declares.description, same⟩
    have inserted := insert_eq_ok_iff.mpr ⟨made, added⟩
    have present : e.id ∈ catalog.entries.map Entry.id := by
      obtain ⟨here, key⟩ := get?_eq_some_iff.mp found
      exact List.mem_map.mpr ⟨existing, here, key⟩
    have ids := (adds_of_add added).1.ids
    rw [if_pos present] at ids
    exact ⟨iff_of_true ⟨_, inserted, ids⟩ same,
      iff_of_false (by simp [inserted]) (not_not_intro same)⟩
  · have refused : catalog.insert content location = .error (.conflict e.id) := by
      rw [insert_eq_bind, made]
      simp only [Except.bind, add_of_conflict found fun both => same both.2, Except.map]
    exact ⟨iff_of_false (by simp [Collapses, refused]) same, iff_of_true refused same⟩

/-- What is accepted under a key is found there in every later catalog, with its text. -/
theorem exists_later {i : Insertion} (accepted : catalog.accepts i = true)
    (known : keyOf i.content = some key) (declared : i.content.defaultMessage = some text)
    (history : List Insertion) :
    Complete ((catalog.attempt i).attemptAll history).enforceDescriptions i.content ∧
      ∃ later, ((catalog.attempt i).attemptAll history).get? key = some later ∧
        later.description = i.content.description ∧ later.defaultMessage = text := by
  obtain ⟨⟨catalog', e⟩, inserted⟩ := accepts_iff_exists.mp accepted
  obtain ⟨made, added⟩ := insert_eq_ok_iff.mp inserted
  obtain ⟨complete, declares⟩ := entry_eq_ok_iff.mp made
  obtain rfl := Option.some.inj (known.symm.trans declares.key)
  obtain rfl := Option.some.inj (declared.symm.trans declares.defaultMessage)
  rw [attempt_of_insert inserted]
  have adds := (adds_of_add added).1
  have own : catalog'.get? e.id = some e := by rw [adds.get, if_pos rfl]
  obtain ⟨enforces, later, found, same⟩ := attemptAll_keeps history own
  rw [enforces, adds.enforces]
  exact ⟨complete, later, found, same.1.symm.trans declares.description.symm, same.2.symm⟩

end Repetition

theorem defaultMessage_of_declares {evaluator : Evaluator} {draft : Draft} {text : String}
    {content : Content} {message : Message} (declares : draft.Declares evaluator text content)
    (read : parse text = .ok message) : content.defaultMessage = some (print message) := by
  obtain ⟨canonical, known, declared⟩ := declares.canonicalize
  rw [canonicalize_of_parse read] at known
  rw [declared, Except.ok.inj known]

/-- The canonical text of a message that was read identifies the message. So if two
declarations have the same key and the same description, and the first is accepted, then
at every later time the second collapses with it if it has the same message, and is in
conflict with it if it has another one. -/
theorem canonical_text_identifies {text text' : String} {message message' : Message}
    (read : parse text = .ok message) (read' : parse text' = .ok message') :
    (canonicalize text = canonicalize text' ↔ message = message') ∧
    ∀ (evaluator : Evaluator) (draft draft' : Draft) (content content' : Content)
      (location location' : Option Location) (key : String) (catalog later : Catalog)
      (between : List Insertion),
      draft.Declares evaluator text content → draft'.Declares evaluator text' content' →
      keyOf content = some key → keyOf content' = some key →
      content.description = content'.description →
      catalog.accepts ⟨content, location⟩ = true →
      (catalog.attempt ⟨content, location⟩).attemptAll between = later →
      (Collapses later content' location' ↔ message = message') ∧
        (later.insert content' location' = .error (.conflict key) ↔ message ≠ message') := by
  have same : print message = print message' ↔ message = message' :=
    ⟨print_injective (parse_shaped read) (parse_shaped read'), congrArg print⟩
  constructor
  · rw [canonicalize_of_parse read, canonicalize_of_parse read', Except.ok.injEq, same]
  · intro evaluator draft draft' content content' location location' key catalog later between
      declares declares' known known' described accepted reached
    have declared := defaultMessage_of_declares declares read
    have declared' := defaultMessage_of_declares declares' read'
    obtain ⟨complete, existing, found, description, kept⟩ :=
      exists_later accepted known declared between
    rw [reached] at complete found
    have complete' : Complete later.enforceDescriptions content' :=
      ⟨fun missing => by simp [keyOf, missing] at known', by simp [declared'],
        described ▸ complete.description⟩
    have again := insert_again complete' known' found
      (described.symm.trans description.symm) declared' location'
    rwa [kept, same, ne_eq, same] at again

/-- The draft of an element that writes out its identifier and its message. -/
def writtenDraft (id text : String) : Draft :=
  [(.id, .attribute (some (.mk (.string id) ⟨0, 0⟩ [])) 0),
    (.defaultMessage, .attribute (some (.mk (.string text) ⟨0, 0⟩ [])) 0)]

theorem writtenDraft_declares (evaluator : Evaluator) {id text canonical : String}
    (identifier : Text.trim id = id) (named : id.isEmpty = false)
    (trimmed : Text.trim text = text) (worded : text.isEmpty = false)
    (known : canonicalize text = .ok canonical) :
    (writtenDraft id text).Declares evaluator text ⟨some id, none, some canonical, none⟩ := by
  have held (field : Field) (value : String) (same : Text.trim value = value)
      (inhabited : value.isEmpty = false) :
      (Holder.attribute (some (.mk (.string value) ⟨0, 0⟩ [])) 0).text evaluator field =
        .ok (some value) := by
    simp only [Holder.text, Holder.value, Constant.Value.toText, same, inhabited,
      Bool.false_eq_true, if_false]
  have distinct : [Field.id, .defaultMessage].Nodup := by decide
  refine ⟨distinct, ⟨_, List.mem_cons_of_mem _ List.mem_cons_self,
    held .defaultMessage text trimmed worded⟩, ?_⟩
  refine resolveOnto_cons_eq_ok_iff.mpr ⟨some id, ?_, ?_⟩
  · rw [fieldText.eq_def, held .id id identifier named]
    rfl
  · refine resolveOnto_cons_eq_ok_iff.mpr ⟨some canonical, ?_, rfl⟩
    rw [fieldText_defaultMessage (held .defaultMessage text trimmed worded),
      canonicalText_eq_ok_iff.mpr known]
    rfl

/-- Two elements whose messages differ in blanks only have the same message, so the second
collapses with the first. -/
theorem canonical_text_identifies_spaced :
    parse "{n}" = .ok [.argument "n"] ∧ parse "{ n }" = .ok [.argument "n"] ∧
      (canonicalize "{n}" = canonicalize "{ n }" ↔
        [Element.argument "n"] = [Element.argument "n"]) ∧
      (writtenDraft "a" "{n}").Declares (fun _ => none) "{n}" ⟨some "a", none, some "{n}", none⟩ ∧
      (writtenDraft "a" "{ n }").Declares (fun _ => none) "{ n }"
        ⟨some "a", none, some "{n}", none⟩ ∧
      (empty false).accepts ⟨⟨some "a", none, some "{n}", none⟩, none⟩ = true ∧
      (Collapses ((empty false).attempt ⟨⟨some "a", none, some "{n}", none⟩, none⟩)
        ⟨some "a", none, some "{n}", none⟩ none ↔
          [Element.argument "n"] = [Element.argument "n"]) := by
  have read : parse "{n}" = .ok [.argument "n"] := by
    rw [parse_eq_ok_iff, show "{n}".toList = ['{', 'n', '}'] by decide]
    rfl
  have read' : parse "{ n }" = .ok [.argument "n"] := by
    rw [parse_eq_ok_iff, show "{ n }".toList = ['{', ' ', 'n', ' ', '}'] by decide]
    rfl
  have declares : (writtenDraft "a" "{n}").Declares (fun _ => none) "{n}"
      ⟨some "a", none, some "{n}", none⟩ :=
    writtenDraft_declares _ (by decide) (by decide) (by decide) (by decide)
      (canonicalize_of_parse read)
  have declares' : (writtenDraft "a" "{ n }").Declares (fun _ => none) "{ n }"
      ⟨some "a", none, some "{n}", none⟩ :=
    writtenDraft_declares _ (by decide) (by decide) (by decide) (by decide)
      (canonicalize_of_parse read')
  have identifies := canonical_text_identifies read read'
  exact ⟨read, read', identifies.1, declares, declares', rfl,
    (identifies.2 _ _ _ _ _ none none "a" (empty false) _ [] declares declares' rfl rfl rfl rfl
      rfl).1⟩

end Catalog

end MessageCatalog
