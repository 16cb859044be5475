import MessageCatalog.Proofs.FileTree.Growth
import MessageCatalog.Proofs.FileTree.Replacing
import MessageCatalog.Proofs.Unit.Independence

/-!
# Processing units again

What processing a unit comes to is settled by what is there afterwards: a file on the way to
its catalog still is there, a directory in its place still is, and a way that was made still
leads to the catalog. So in any tree that grew from the one a unit left behind, the unit
comes to the same, and all that is written is its catalog, with the same text.

When all units are processed again, each catalog is thus written with every text that it was
given the first time, in the same order. The last one is there already.
-/

namespace MessageCatalog

namespace Unit

open FileTree (Furnishes Grows IsName KeptAt Retains Settled placeOf visited wayTo)

/-- What a result has written: the place of its catalog, and the text. -/
def writesOf : Except Issue Processed → List (List String × String)
  | .error _ => []
  | .ok unit => (unit.catalog.map fun target =>
      (placeOf target, Catalog.toDocument unit.extracted.messages)).toList

/-- What a unit comes to after the delivery of its catalog. -/
def concludeDelivery (job : Job) (path : Path) (extracted : Extracted) (target : Path) :
    FileTree × Except String Unit → FileTree × Except Issue Processed
  | (after, .error reason) =>
    (after, .error (.inaccessible (displayName path job.workingDirectory) reason))
  | (after, .ok ()) => (after, .ok ⟨extracted, some target⟩)

/-- Whether a path is that of a unit, goes down only, and leads somewhere. -/
structure Present (tree : FileTree) (path : Path) : Prop where
  absolute : path.isAbsolute = true
  straight : path.IsStraight
  source : isSource path = true
  there : tree.existsAt path = true

/-- What is known of a tree that units with certain writes have left behind. -/
structure Wrote (before after : FileTree) (writes : List (List String × String)) : Prop where
  grows : Grows Barren before after
  barren : ∀ write ∈ writes, Barren write.1
  files : after.Rewritable writes
  settled : Settled after writes
  kept : ∀ place, KeptAt before after place ∨ place ∈ writes.map (·.1)

/-- Whether all ways that a job goes start at the root and go down. -/
structure Job.Rooted (job : Job) : Prop where
  absolute : job.workingDirectory.isAbsolute = true
  kept : ∀ catalogs ∈ job.catalogs, catalogs.isAbsolute = true
  direct : job.Direct

section Rerun

variable {job : Job} {tree tree' after before : FileTree} {path shown directory target other : Path}
  {paths : List Path} {result : Except Issue Processed} {messages : List Catalog.Entry}
  {names place : List String} {pieces : List (List Char)} {text : String}
  {allowed : List String → Prop}

/-! ### How trees grow -/

theorem isName_of_mem_visited (plain : ∀ piece ∈ pieces, Path.separator ∉ piece)
    (start : ∀ name ∈ names, IsName name) (among : place ∈ visited names pieces) :
    ∀ name ∈ place, IsName name := by
  induction pieces generalizing names with
  | nil =>
    rw [visited, List.mem_singleton] at among
    exact among ▸ start
  | cons piece pieces ih =>
    rcases List.mem_cons.mp among with rfl | among
    · exact start
    · refine ih (fun other there => plain other (List.mem_cons_of_mem piece there)) ?_ among
      intro name inside
      rcases FileTree.component?_cases piece with silent | up | down
      · rw [FileTree.stepFrom_silent silent] at inside
        exact start name inside
      · rw [FileTree.stepFrom_parent up] at inside
        exact start name (List.dropLast_subset _ inside)
      · rw [FileTree.stepFrom_name down] at inside
        rcases List.mem_append.mp inside with before | last
        · exact start name before
        · rw [List.mem_singleton.mp last, IsName, String.toList_ofList]
          exact ⟨down, plain piece List.mem_cons_self⟩

theorem isName_of_mem_wayTo (among : place ∈ wayTo path) : ∀ name ∈ place, IsName name :=
  isName_of_mem_visited
    (fun _ inside => Path.separator_not_mem_of_mem_body (List.dropLast_subset _ inside))
    (fun _ inside => absurd inside List.not_mem_nil) among

theorem isName_of_mem_placeOf (path : Path) : ∀ name ∈ placeOf path, IsName name :=
  isName_of_mem_visited (fun _ => Path.separator_not_mem_of_mem_body)
    (fun _ inside => absurd inside List.not_mem_nil) (FileTree.placeFrom_mem_visited [] _)

theorem grows_of_furnishes (furnishes : Furnishes (· ∈ wayTo path) tree tree')
    (grows : Grows allowed tree' after) : Grows allowed tree after := by
  induction furnishes with
  | refl => exact grows
  | make inside free among _ ih =>
    have named := isName_of_mem_wayTo among _ (List.mem_append_right _ List.mem_cons_self)
    have addition : FileTree.Addition allowed _ _ _ .empty :=
      ⟨inside, by rw [free]; simp, named, rfl, fun _ => free, fun file => absurd file (by decide)⟩
    exact .add addition (ih grows)

/-- Delivering a catalog only adds directories and, at the place of the catalog, a file. -/
theorem Delivery.grows {outcome : FileTree × Except String Unit} (named : path.IsNamed)
    (delivery : Delivery tree shown path text outcome) :
    Grows (· = placeOf path) tree outcome.1 := by
  cases delivery with
  | obstructed furnishes _ _ => exact grows_of_furnishes furnishes (.refl _)
  | occupied furnishes _ _ => exact grows_of_furnishes furnishes (.refl _)
  | delivered furnishes way free =>
    refine grows_of_furnishes furnishes ?_
    obtain ⟨names, name, same, among⟩ := exists_placeOf_eq named
    have proper := isName_of_mem_placeOf path
    rw [same] at free proper ⊢
    refine .add ⟨way names among, free, ?_, rfl, fun inside => ?_, fun _ => rfl⟩ (.refl _)
    · exact proper name (List.mem_append_right _ List.mem_cons_self)
    · exact absurd inside (by simp [FileTree.isDirectory])

/-! ### Where catalogs go -/

theorem Job.Rooted.isNamed (rooted : job.Rooted) (absolute : path.isAbsolute = true)
    (straight : path.IsStraight) (goes : destination? job path = some target) :
    target.IsNamed := by
  obtain ⟨catalogs, there, rfl⟩ := exists_of_destination? goes
  exact isNamed_of_straight absolute straight rooted.absolute (rooted.kept catalogs there)

theorem Job.Rooted.isStraight (rooted : job.Rooted) (absolute : path.isAbsolute = true)
    (straight : path.IsStraight) (goes : destination? job path = some target) :
    target.IsStraight := by
  obtain ⟨catalogs, there, rfl⟩ := exists_of_destination? goes
  exact isStraight_catalogPath absolute straight rooted.absolute (rooted.kept catalogs there)
    (rooted.direct catalogs there)

theorem Job.Rooted.barren (rooted : job.Rooted) (absolute : path.isAbsolute = true)
    (straight : path.IsStraight) (goes : destination? job path = some target) :
    Barren (placeOf target) := by
  obtain ⟨catalogs, there, rfl⟩ := exists_of_destination? goes
  exact barren_catalogPath absolute straight rooted.absolute (rooted.kept catalogs there)

/-! ### One unit -/

/-- What processing a unit comes to: a result that writes nothing and depends on what is read
only, or the delivery of a catalog. -/
theorem process_cases (job : Job) (tree : FileTree) (path : Path) :
    (∃ result, writesOf result = [] ∧ ∀ tree' : FileTree,
      tree'.readTextFrom job.processDirectory path = tree.readTextFrom job.processDirectory path →
      process job tree' path = (tree', result)) ∨
    ∃ extracted target, destination? job path = some target ∧ ∀ tree' : FileTree,
      tree'.readTextFrom job.processDirectory path = tree.readTextFrom job.processDirectory path →
        process job tree' path = concludeDelivery job path extracted target
          (writeCatalog tree' job.processDirectory target extracted.messages) := by
  cases read : tree.readTextFrom job.processDirectory path with
  | error fault =>
    exact .inl ⟨_, rfl, fun tree' same => process_of_error job same⟩
  | ok text =>
    have concluded : ∀ tree' : FileTree,
        tree'.readTextFrom job.processDirectory path = .ok text →
        process job tree' path = conclude job tree' path
          (job.parser.extract job.options (displayName path job.workingDirectory) text) :=
      fun tree' same => process_of_ok job same
    generalize job.parser.extract job.options _ text = outcome at concluded
    cases outcome with
    | error fault => exact .inl ⟨_, rfl, concluded⟩
    | ok extracted =>
      simp only [conclude_of_ok] at concluded
      cases goes : target? job path extracted.messages with
      | none =>
        rw [goes] at concluded
        exact .inl ⟨_, rfl, concluded⟩
      | some target =>
        rw [goes] at concluded
        exact .inr ⟨extracted, target, destination?_of_target? goes, concluded⟩

/-- Along a way that is there, a text is put in its place unless a directory is. -/
theorem writeCatalog_of_wayTo (named : path.IsNamed)
    (way : ∀ place ∈ wayTo path, tree.itemAt place = some .directory)
    (messages : List Catalog.Entry) :
    writeCatalog tree directory path messages =
      if tree.itemAt (placeOf path) = some .directory then
        (tree, .error (writeFailure path .isDirectory))
      else
        (tree.put (placeOf path) (.file (some (Catalog.toDocument messages))), .ok ()) := by
  have there : ∀ place, place ∈ wayTo path → tree.itemAt place ≠ none := fun place among => by
    rw [way place among]
    simp
  have delivery := writeCatalog_delivery tree directory named messages
  generalize writeCatalog tree directory path messages = outcome at delivery
  generalize Catalog.toDocument messages = text at delivery ⊢
  cases delivery with
  | obstructed furnishes among file =>
    rw [way _ among] at file
    exact absurd file (by simp)
  | occupied furnishes _ taken =>
    obtain rfl := furnishes.eq_of_forall there
    rw [if_pos taken]
  | delivered furnishes _ free =>
    obtain rfl := furnishes.eq_of_forall there
    rw [if_neg free]

/-- A catalog is delivered in the same way again to a tree that grew from the one that was
left behind, or fails to be for the same reason. -/
theorem writeCatalog_again {outcome : Except String Unit} (named : path.IsNamed)
    (straight : path.IsStraight)
    (written : writeCatalog before directory path messages = (tree, outcome))
    (retains : Retains tree after) :
    (∃ reason, outcome = .error reason ∧
      writeCatalog after directory path messages = (after, .error reason)) ∨
    outcome = .ok () ∧
      tree.itemAt (placeOf path) = some (.file (some (Catalog.toDocument messages))) ∧
      writeCatalog after directory path messages =
        (after.put (placeOf path) (.file (some (Catalog.toDocument messages))), .ok ()) := by
  have delivery := writeCatalog_delivery before directory named messages
  rw [written] at delivery
  cases delivery with
  | obstructed furnishes among file =>
    obtain ⟨fault, unchanged⟩ :=
      writeCatalog_of_obstructed named straight ⟨_, among, _, file⟩
    have first := written.symm.trans (unchanged before messages (.refl before))
    obtain ⟨rfl, same⟩ := Prod.mk.inj first
    exact .inl ⟨_, rfl, same ▸ unchanged after messages retains⟩
  | occupied furnishes way taken =>
    have way' := fun place among => retains.directory place (way place among)
    refine .inl ⟨_, rfl, ?_⟩
    rw [writeCatalog_of_wayTo named way' messages, if_pos (retains.directory _ taken)]
  | @delivered tree' furnishes way free =>
    have items := itemAt_put_placeOf named way free (Catalog.toDocument messages)
    have kept := (retains_put_placeOf named way free (Catalog.toDocument messages)).trans retains
    have file : (tree'.put (placeOf path)
        (.file (some (Catalog.toDocument messages)))).itemAt (placeOf path) =
        some (.file (some (Catalog.toDocument messages))) := by
      rw [items, if_pos rfl]
    obtain ⟨text, still⟩ := retains.file _ _ file
    have way' := fun place among => kept.directory place (way place among)
    refine .inr ⟨rfl, file, ?_⟩
    rw [writeCatalog_of_wayTo named way' messages, still, if_neg (by simp)]

/-! ### Trees that units leave behind -/

theorem Wrote.refl (tree : FileTree) : Wrote tree tree [] where
  grows := .refl tree
  barren _ among := absurd among List.not_mem_nil
  files _ among := absurd among List.not_mem_nil
  settled := trivial
  kept place := .inl (.refl tree place)

theorem Wrote.trans {writes later : List (List String × String)}
    (wrote : Wrote before tree writes) (wrote' : Wrote tree after later) :
    Wrote before after (writes ++ later) where
  grows := wrote.grows.trans wrote'.grows
  barren write among := (List.mem_append.mp among).elim (wrote.barren write) (wrote'.barren write)
  files write among := by
    rcases List.mem_append.mp among with first | second
    · obtain ⟨text, file⟩ := wrote.files write first
      exact wrote'.grows.retains.file _ _ file
    · exact wrote'.files write second
  settled := by
    refine wrote.settled.append wrote'.settled wrote.files fun names apart there => ?_
    rcases wrote'.kept names with (same | made) | written
    · exact same
    · exact absurd made.1 there
    · obtain ⟨write, among, same⟩ := List.mem_map.mp written
      exact absurd same (apart write among)
  kept place := by
    rw [List.map_append, List.mem_append]
    rcases wrote.kept place with first | first
    · rcases wrote'.kept place with second | second
      · refine .inl ?_
        rcases first with same | made
        · rcases second with same' | made'
          · exact .inl (same'.trans same)
          · exact .inr ⟨same ▸ made'.1, made'.2⟩
        · rcases second with same' | made'
          · exact .inr ⟨made.1, same'.trans made.2⟩
          · exact .inr ⟨made.1, made'.2⟩
      · exact .inr (.inr second)
    · exact .inr (.inl first)

/-- A unit that is processed again in a tree that grew from the one it left behind comes to the
same, and writes there what it wrote. -/
theorem process_wrote (rooted : job.Rooted) (absolute : path.isAbsolute = true)
    (straight : path.IsStraight) (processed : process job before path = (tree, result)) :
    Wrote before tree (writesOf result) ∧ ∀ after, Retains tree after →
      after.readText path = before.readText path →
      process job after path = (after.rewriteFiles (writesOf result), result) := by
  have cases := process_cases job before path
  simp only [FileTree.readTextFrom_of_isAbsolute absolute] at cases
  rcases cases with ⟨result', none, again⟩ | ⟨extracted, target, goes, again⟩
  · obtain ⟨rfl, rfl⟩ := Prod.mk.inj ((again before rfl).symm.trans processed)
    rw [none]
    exact ⟨.refl before, fun after _ same => again after same⟩
  · have named := rooted.isNamed absolute straight goes
    have down := rooted.isStraight absolute straight goes
    have barren := rooted.barren absolute straight goes
    have delivery := writeCatalog_delivery before job.processDirectory named extracted.messages
    have grows := (delivery.grows named).mono fun place here => here ▸ barren
    have kept := delivery.keptAt named
    have first := processed.symm.trans (again before rfl)
    cases written : writeCatalog before job.processDirectory target extracted.messages with
    | mk left outcome =>
      have delivered := fun (after : FileTree) (retains : Retains left after) =>
        writeCatalog_again named down written retains
      rw [written] at first grows kept
      cases outcome with
      | error reason =>
        obtain ⟨rfl, rfl⟩ := Prod.mk.inj first
        refine ⟨⟨grows, ?_, ?_, trivial, fun place => .inl ((kept place).resolve_right ?_)⟩, ?_⟩
        · exact fun write among => absurd among List.not_mem_nil
        · exact fun write among => absurd among List.not_mem_nil
        · exact fun placed => absurd placed.2 (by simp)
        · intro after retains same
          obtain ⟨reason', equal, still⟩ := (delivered after retains).resolve_right
            fun placed => absurd placed.1 (by simp)
          rw [again after same, still, ← Except.error.inj equal]
          rfl
      | ok done =>
        obtain ⟨rfl, rfl⟩ := Prod.mk.inj first
        have placed := fun after retains => (delivered after retains).resolve_left
          fun failed => absurd failed.choose_spec.1 (by simp)
        have file := (placed _ (.refl _)).2.1
        refine ⟨⟨grows, ?_, ?_, ⟨fun _ => file, trivial⟩, fun place => ?_⟩, ?_⟩
        · exact fun write among => List.mem_singleton.mp among ▸ barren
        · exact fun write among => List.mem_singleton.mp among ▸ ⟨_, file⟩
        · exact (kept place).imp id fun there => List.mem_singleton.mpr there.1
        · intro after retains same
          rw [again after same, (placed after retains).2.2]
          rfl

/-! ### All units -/

theorem Present.of_retains (present : Present before path) (retains : Retains before after) :
    Present after path :=
  { present with there := retains.existsAt present.there }

/-- A unit is read as before unless something was written in its place. -/
theorem readText_of_retains (present : Present before path) (retains : Retains before after)
    (same : after.itemAt (placeOf path) = before.itemAt (placeOf path)) :
    after.readText path = before.readText path := by
  have clear := FileTree.existsAt_iff.mp present.there
  rw [FileTree.readText_eq, FileTree.readText_eq, clear, retains.obstacleTo?_eq_none clear, same]

theorem Present.placeOf_ne (present : Present before path) (barren : Barren place) :
    place ≠ placeOf path := by
  rintro rfl
  have source := present.source
  rw [barren path present.absolute present.straight rfl] at source
  exact Bool.noConfusion source

theorem Wrote.readText {writes : List (List String × String)} (wrote : Wrote before tree writes)
    (present : Present before path) : tree.readText path = before.readText path := by
  refine readText_of_retains present wrote.grows.retains ?_
  rcases wrote.kept (placeOf path) with (same | made) | written
  · exact same
  · obtain ⟨node, -, there⟩ := FileTree.exists_get_of_existsAt present.there
    exact absurd made.1 (by rw [FileTree.itemAt, there]; simp)
  · obtain ⟨write, among, same⟩ := List.mem_map.mp written
    exact absurd same (present.placeOf_ne (wrote.barren write among))

theorem processAll_cons (job : Job) (tree : FileTree) (path : Path) (paths : List Path) :
    processAll job tree (path :: paths) =
      ((processAll job (process job tree path).1 paths).1,
        (process job tree path).2 :: (processAll job (process job tree path).1 paths).2) := by
  rw [processAll]

/-- Units that are processed again in a tree that grew from the one they left behind come to the
same, and write there what they wrote. -/
theorem processAll_wrote (rooted : job.Rooted) (present : ∀ path ∈ paths, Present before path) :
    Wrote before (processAll job before paths).1
        ((processAll job before paths).2.flatMap writesOf) ∧
      ∀ after, Retains (processAll job before paths).1 after →
        (∀ path ∈ paths, after.readText path = before.readText path) →
        processAll job after paths =
          (after.rewriteFiles ((processAll job before paths).2.flatMap writesOf),
            (processAll job before paths).2) := by
  induction paths generalizing before with
  | nil => exact ⟨.refl before, fun after _ _ => rfl⟩
  | cons path paths ih =>
    obtain ⟨absolute, straight, -, -⟩ := present path List.mem_cons_self
    obtain ⟨middle, result, processed⟩ : ∃ middle result,
        process job before path = (middle, result) := ⟨_, _, rfl⟩
    obtain ⟨wrote, again⟩ := process_wrote rooted absolute straight processed
    rw [processAll_cons, processed]
    dsimp only
    have present' := fun other among => present other (List.mem_cons_of_mem path among)
    obtain ⟨wrote', again'⟩ := ih fun other among =>
      (present' other among).of_retains wrote.grows.retains
    refine ⟨wrote.trans wrote', fun after retains same => ?_⟩
    have grown := wrote'.grows.retains.trans retains
    have files : after.Rewritable (writesOf result) := fun write among =>
      have ⟨_, file⟩ := wrote.files write among
      grown.file _ _ file
    have rewritten := FileTree.retains_rewriteFiles files
    rw [processAll_cons, again after grown (same path List.mem_cons_self)]
    dsimp only
    rw [again' (after.rewriteFiles (writesOf result)) (retains.trans rewritten)]
    · rw [List.flatMap_cons, FileTree.rewriteFiles_append]
    · intro other among
      have here := present' other among
      have there := here.of_retains (wrote.grows.retains.trans grown)
      rw [readText_of_retains there rewritten, same other (List.mem_cons_of_mem path among),
        wrote.readText here]
      exact FileTree.itemAt_rewriteFiles files fun write inside =>
        here.placeOf_ne (wrote.barren write inside)

/-- Processing units again changes nothing and comes to the same. -/
theorem processAll_processAll (rooted : job.Rooted)
    (present : ∀ path ∈ paths, Present tree path) :
    processAll job (processAll job tree paths).1 paths = processAll job tree paths := by
  obtain ⟨wrote, again⟩ := processAll_wrote rooted present
  rw [again _ (.refl _) fun path among => wrote.readText (present path among),
    FileTree.rewriteFiles_eq_self wrote.files wrote.settled]

end Rerun

end Unit

end MessageCatalog
