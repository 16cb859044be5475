import MessageCatalog.Proofs.Unit.CatalogPath
import MessageCatalog.Proofs.Unit.Delivery

/-!
# What a unit leaves behind

Processing a unit either fails and leaves all files as they were, or succeeds and differs in
one file at most, its catalog. The catalog is there if catalogs are kept and something was
extracted, and it holds exactly what was extracted.

This holds for paths of all kinds. A directory of catalogs that does not start at the root is
followed from the directory of the process, and its catalogs are found in the same way.
-/

namespace MessageCatalog

namespace Unit

open FileTree (KeptAt placeOf)
open MessageCatalog.Path (separator component?)

/-- Where the catalog of a unit is kept, if catalogs are. -/
def destination? (job : Job) (path : Path) : Option Path :=
  job.catalogs.map (catalogPath path job.workingDirectory ·)

/-- Where the catalog of a unit goes, if there is something to write. -/
def target? (job : Job) (path : Path) (messages : List Catalog.Entry) : Option Path :=
  if messages.isEmpty then none else destination? job path

section Output

variable {job : Job} {tree after : FileTree} {path place target : Path}
  {text : String} {messages : List Catalog.Entry} {extracted : Extracted} {fault : Fault}
  {names : List String} {result : Except String Unit}

/-! ### Paths of catalogs -/

theorem exists_text_append (base : Path) (stem : List Char) :
    ∃ front, (base ++ (⟨stem ++ catalogSuffix⟩ : Path)).text = front ++ catalogSuffix := by
  change ∃ front, (Path.append base _).text = _
  rw [Path.append]
  split
  · exact ⟨stem, rfl⟩
  · split
    · exact ⟨stem, rfl⟩
    · split
      · exact ⟨base.text ++ stem, (List.append_assoc ..).symm⟩
      · exact ⟨base.text ++ separator :: stem, by simp⟩

/-- Whatever a path of a catalog stands behind, it ends in a name. -/
theorem isNamed_of_catalogSuffix (absolute : path.isAbsolute = true) {front : List Char}
    (same : path.text = front ++ catalogSuffix) : path.IsNamed := by
  obtain ⟨s, text⟩ := Path.isAbsolute_iff.mp absolute
  cases front with
  | nil =>
    rw [text, List.nil_append, catalogSuffix] at same
    exact absurd same (by simp [separator])
  | cons c front =>
    have rest : s = front ++ catalogSuffix := by
      rw [text, List.cons_append, List.cons.injEq] at same
      exact same.2
    obtain ⟨pieces, last, cutting⟩ :=
      Path.pieces_append_of_plain front (t := catalogSuffix) (by decide)
    refine ⟨pieces, last ++ catalogSuffix, ?_, component?_append_catalogSuffix last⟩
    rw [Path.parts_of_text text, rest, cutting]

/-- What the path of a catalog stands for in a process ends in a name. -/
theorem isNamed_of_resolve {directory workingDirectory catalogs : Path}
    (resolved : tree.resolve directory (catalogPath path workingDirectory catalogs) = .ok place) :
    place.IsNamed := by
  have absolute := FileTree.isAbsolute_of_resolve resolved
  obtain ⟨rfl, -⟩ := FileTree.resolve_eq_ok_iff.mp resolved
  obtain ⟨front, text⟩ : ∃ front,
      (catalogPath path workingDirectory catalogs).text = front ++ catalogSuffix :=
    exists_text_append _ _
  obtain ⟨front', text'⟩ := exists_text_append directory front
  have same : catalogPath path workingDirectory catalogs = ⟨front ++ catalogSuffix⟩ :=
    congrArg Path.mk text
  rw [← same] at text'
  exact isNamed_of_catalogSuffix absolute text'

/-! ### Steps of processing -/

theorem destination?_of_target? (goes : target? job path messages = some target) :
    destination? job path = some target := by
  rw [target?] at goes
  split at goes
  · exact absurd goes (by simp)
  · exact goes

theorem process_of_error (job : Job) {fault : FileTree.Fault}
    (unreadable : tree.readTextFrom job.processDirectory path = .error fault) :
    process job tree path =
      (tree, .error (.inaccessible (displayName path job.workingDirectory)
        (readFailure path fault))) := by
  rw [process, unreadable]

theorem process_of_ok (job : Job)
    (readable : tree.readTextFrom job.processDirectory path = .ok text) :
    process job tree path = conclude job tree path
      (job.parser.extract job.options (displayName path job.workingDirectory) text) := by
  rw [process, readable]
  rfl

theorem emit_eq (job : Job) (tree : FileTree) (path : Path) (messages : List Catalog.Entry) :
    emit job tree path messages =
      match target? job path messages with
      | none => (tree, .ok none)
      | some target =>
        let written := writeCatalog tree job.processDirectory target messages
        (written.1, written.2.map fun () => some target) := by
  rw [emit, target?, destination?]
  cases job.catalogs with
  | none => cases messages.isEmpty <;> rfl
  | some catalogs => cases messages.isEmpty <;> rfl

theorem conclude_of_ok (job : Job) (tree : FileTree) (path : Path) (extracted : Extracted) :
    conclude job tree path (.ok extracted) =
      match target? job path extracted.messages with
      | none => (tree, .ok ⟨extracted, none⟩)
      | some target =>
        match writeCatalog tree job.processDirectory target extracted.messages with
        | (after, .error reason) =>
          (after, .error (.inaccessible (displayName path job.workingDirectory) reason))
        | (after, .ok ()) => (after, .ok ⟨extracted, some target⟩) := by
  rw [conclude, emit_eq]
  cases target? job path extracted.messages with
  | none => rfl
  | some target =>
    simp only
    obtain ⟨after, result⟩ := writeCatalog tree job.processDirectory target extracted.messages
    cases result <;> rfl

/-! ### What is left behind -/

/-- What writing a catalog comes to, whatever its path is. -/
theorem writeCatalog_keptAt (tree : FileTree)
    (path workingDirectory processDirectory catalogs : Path) (messages : List Catalog.Entry) :
    let target := catalogPath path workingDirectory catalogs
    match writeCatalog tree processDirectory target messages with
    | (after, .error _) => ∀ names, KeptAt tree after names
    | (after, .ok ()) =>
      after.readTextFrom processDirectory target = .ok (Catalog.toDocument messages) ∧
        ∀ names, names = placeOf (processDirectory ++ target) ∨ KeptAt tree after names := by
  intro target
  cases resolved : tree.resolve processDirectory target with
  | error fault =>
    obtain ⟨reason, failed⟩ := writeCatalog_of_error resolved messages
    rw [failed]
    exact KeptAt.refl tree
  | ok place =>
    have named := isNamed_of_resolve resolved
    have stands := (FileTree.resolve_eq_ok_iff.mp resolved).1
    have delivery := deliver_delivery tree target named (Catalog.toDocument messages)
    have kept := delivery.keptAt named
    have retains := delivery.retains named
    rw [writeCatalog_of_ok resolved, ← stands]
    generalize deliver tree target place _ = outcome at delivery kept retains ⊢
    obtain ⟨after, result | ⟨⟩⟩ := outcome
    · exact fun names => (kept names).resolve_right fun placed => by simp at placed
    · refine ⟨?_, fun names => (kept names).elim .inr fun placed => .inl placed.1⟩
      rw [FileTree.readTextFrom, retains.resolve_eq_ok resolved]
      exact delivery.readText named

/-- The output of a unit is all or nothing. If its text has no catalog, the tree of files is
unchanged. Otherwise only an inaccessible catalog can make it fail, and then no file differs;
if it succeeds, then at most one file differs, which is the catalog, and it is there exactly
if catalogs are kept and a message was extracted. Where the path of the catalog does not start
at the root, it is the one behind the directory of the process. -/
theorem processText_all_or_nothing (job : Job) (tree : FileTree) (path : Path) (text : String) :
    match job.parser.extract job.options (displayName path job.workingDirectory) text with
    | .error fault => processText job tree path text = (tree, .error (.ofFault fault))
    | .ok extracted =>
      match processText job tree path text with
      | (after, .error issue) =>
        (∃ reason, issue = .inaccessible (displayName path job.workingDirectory) reason) ∧
          ∀ names, KeptAt tree after names
      | (after, .ok unit) =>
        unit.extracted = extracted ∧
        (unit.catalog = if extracted.messages.isEmpty then none
          else job.catalogs.map (catalogPath path job.workingDirectory ·)) ∧
        match unit.catalog with
        | none => after = tree
        | some target =>
          after.readTextFrom job.processDirectory target =
              .ok ((Catalog.toValue unit.extracted.messages).toDocument ++ "\n") ∧
            ∀ names, names = placeOf (job.processDirectory ++ target) ∨
              KeptAt tree after names := by
  rw [processText]
  generalize job.parser.extract job.options (displayName path job.workingDirectory) text = outcome
  cases outcome with
  | error fault => rfl
  | ok extracted =>
    simp only [conclude_of_ok]
    cases destination : target? job path extracted.messages with
    | none => exact ⟨rfl, destination.symm, rfl⟩
    | some target =>
      obtain ⟨catalogs, rfl⟩ : ∃ catalogs,
          catalogPath path job.workingDirectory catalogs = target := by
        obtain ⟨catalogs, -, same⟩ :=
          Option.map_eq_some_iff.mp (destination?_of_target? destination)
        exact ⟨catalogs, same⟩
      have written := writeCatalog_keptAt tree path job.workingDirectory job.processDirectory
        catalogs extracted.messages
      simp only at written ⊢
      generalize writeCatalog tree _ _ extracted.messages = outcome at written ⊢
      obtain ⟨after, reason | ⟨⟩⟩ := outcome
      · exact ⟨⟨reason, rfl⟩, written⟩
      · exact ⟨rfl, destination.symm, written⟩

/-- A directory of catalogs that does not start at the root is made in the directory of the
process, wherever the unit is. -/
example :
    let job : Job := ⟨Syntax.parse, .standard, .ofString "/w", .ofString "/p",
      some (.ofString "out/../all")⟩
    let tree : FileTree := .directory [("p", .empty), ("w", .empty)]
    (processText job tree (.ofString "/w/src/a.tsx") "t(\"x\");").1.files.map Prod.fst =
      [["p", "all", "src", "a.json"]] := by decide +kernel

end Output

end Unit

end MessageCatalog
