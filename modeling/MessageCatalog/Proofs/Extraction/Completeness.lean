import MessageCatalog.Proofs.Extraction.Reach
import MessageCatalog.Unit.Basic

/-!
# Completeness of extraction

The catalog of a unit has the keys of the messages that the unit declares. Nothing is
invented, and nothing is lost except for the messages that are declared inside a
description: the walk removes descriptions from the tree before it goes on, so that it
never sees what is inside them.

A walk is a stateful program that stops changing its state when it has failed. If it has
not failed at its end, it had not failed at any point before, which is what allows to
take it apart. The effect of each visit is then collected in the order of the visits.
-/

namespace MessageCatalog

namespace Extraction

open Binding Catalog Descriptor Syntax

/-! ### Walks that succeed -/

/-- A program that starts without a failure ends without one. -/
def Completes {α : Type} (program : StateM Walk α) (p p' : Progress) : Prop :=
  (program.run (.start p)).2 = .start p'

/-- A program that ends without a failure started without one. -/
def KeepsFailure {α : Type} (program : StateM Walk α) : Prop :=
  ∀ walk, (program.run walk).2.failure = none → walk.failure = none

section Programs

variable {α β : Type} {s : Setting} {depth : Nat} {p p' : Progress}

theorem KeepsFailure.pure (a : α) : KeepsFailure (Pure.pure a) :=
  fun _ kept => kept

theorem KeepsFailure.bind {program : StateM Walk α} {next : α → StateM Walk β}
    (first : KeepsFailure program) (second : ∀ a, KeepsFailure (next a)) :
    KeepsFailure (program >>= next) :=
  fun walk kept => first walk (second _ _ kept)

theorem KeepsFailure.mapM {visit : α → StateM Walk β} (each : ∀ a, KeepsFailure (visit a))
    (as : List α) : KeepsFailure (as.mapM visit) := by
  induction as with
  | nil => exact .pure []
  | cons a as ih =>
      rw [List.mapM_cons]
      exact (each a).bind fun b => ih.bind fun bs => .pure (b :: bs)

theorem keepsFailure_visit (s : Setting) (node : Node) : KeepsFailure (Walk.visit s node) := by
  intro walk kept
  cases failed : walk.failure with
  | none => rfl
  | some failure =>
      simp only [Walk.visit, StateT.run, failed] at kept
      exact kept

/-- A traversal visits a node, and then the parts of what the visit made of it. -/
theorem traverse_succ (visit : Node → StateM Walk Node) (depth : Nat) (node : Node) :
    Node.traverse visit (depth + 1) node = visit node >>= fun visited =>
      visited.children.mapM (Node.traverse visit depth) >>= fun children =>
        pure (.mk visited.form visited.span children) := by
  rw [Node.traverse]
  congr 1
  funext visited
  cases visited
  rfl

theorem keepsFailure_traverse (s : Setting) (depth : Nat) (node : Node) :
    KeepsFailure (Node.traverse (Walk.visit s) depth node) := by
  induction depth generalizing node with
  | zero => exact .pure node
  | succ depth ih =>
      rw [traverse_succ]
      refine (keepsFailure_visit s node).bind fun visited => ?_
      exact (KeepsFailure.mapM ih visited.children).bind fun children => .pure _

theorem completes_pure {a : α} (completes : Completes (pure a) p p') : p' = p := by
  injection completes with same
  exact same.symm

/-- What completes in two steps completes in each of them. -/
theorem Completes.bind {program : StateM Walk α} {next : α → StateM Walk β}
    (completes : Completes (program >>= next) p p') (later : ∀ a, KeepsFailure (next a)) :
    ∃ q, Completes program p q ∧
      Completes (next (program.run (.start p)).1) q p' := by
  have kept : (program.run (.start p)).2.failure = none :=
    later _ _ (by
      change ((program >>= next).run (.start p)).2.failure = none
      rw [completes]
      rfl)
  have middle : (program.run (.start p)).2 = .start (program.run (.start p)).2.progress :=
    congrArg (Walk.mk _) kept
  refine ⟨_, middle, ?_⟩
  rw [Completes, ← middle]
  exact completes

theorem completes_visit {node : Node} (completes : Completes (Walk.visit s node) p p') :
    (s.visit p node).failure = none ∧ (s.visit p node).progress = p' ∧
      ((Walk.visit s node).run (.start p)).1 = (s.visit p node).node := by
  injection completes with progress failure
  exact ⟨failure, progress, rfl⟩

end Programs

/-! ### What a walk takes in -/

/-- The catalog took in what the sites declare, and no other sites were remembered. -/
structure Setting.Takes (s : Setting) (p : Progress) (seen : List Node) (p' : Progress) :
    Prop where
  admits : s.Admits p.catalog (seen.flatMap s.declarations) p'.catalog
  processed : ∀ id ∈ p'.processed, id ∈ p.processed ∨ id ∈ seen.map siteId

/-- The sites differ, and none of them was remembered. -/
structure Fresh (p : Progress) (seen : List Node) : Prop where
  distinct : (seen.map siteId).Nodup
  unknown : ∀ site ∈ seen, siteId site ∉ p.processed

section Taking

variable {s : Setting} {p q p' : Progress} {seen seen' : List Node} {node : Node} {depth : Nat}

theorem Setting.Takes.refl (s : Setting) (p : Progress) : s.Takes p [] p :=
  ⟨rfl, fun _ here => .inl here⟩

theorem Setting.Takes.append (first : s.Takes p seen q) (second : s.Takes q seen' p') :
    s.Takes p (seen ++ seen') p' where
  admits := by
    rw [List.flatMap_append]
    exact first.admits.append second.admits
  processed id here := by
    rw [List.map_append, List.mem_append]
    rcases second.processed id here with earlier | own
    · exact (first.processed id earlier).imp_right .inl
    · exact .inr (.inr own)

theorem Fresh.left (fresh : Fresh p (seen ++ seen')) : Fresh p seen where
  distinct := (List.nodup_append.mp (List.map_append ▸ fresh.distinct)).1
  unknown site here := fresh.unknown site (List.mem_append_left _ here)

/-- The sites that come later are still fresh when the first ones have been taken in. -/
theorem Fresh.right (fresh : Fresh p (seen ++ seen')) (takes : s.Takes p seen q) :
    Fresh q seen' := by
  have parts := List.nodup_append.mp (List.map_append ▸ fresh.distinct)
  refine ⟨parts.2.1, fun site here remembered => ?_⟩
  rcases takes.processed _ remembered with earlier | own
  · exact fresh.unknown site (List.mem_append_right _ here) earlier
  · exact parts.2.2 _ own _ (List.mem_map_of_mem here) rfl

theorem declarations_of_isSite_eq_false (other : isSite node = false) :
    s.declarations node = [] := by
  rw [Setting.declarations.eq_def]
  split <;> simp_all [isSite]

theorem takes_of_processes {outcome : Outcome} (processes : s.Processes p node outcome) :
    s.Takes p (ownSite node) outcome.progress := by
  rw [ownSite]
  split
  · refine ⟨by simpa using processes.admits, fun id here => ?_⟩
    exact (processes.processed id here).imp_right fun own => by simp [own.2]
  · rename_i other
    have nothing := declarations_of_isSite_eq_false (s := s) (by simpa using other)
    refine ⟨by simpa [nothing] using processes.admits, fun id here => ?_⟩
    exact (processes.processed id here).imp_right fun own => absurd own.1 other

theorem fresh_ownSite (fresh : Fresh p (ownSite node)) (here : isSite node = true) :
    siteId node ∉ p.processed :=
  fresh.unknown node (by simp [here])

/-- Several trees are taken in if each of them is. -/
theorem takes_of_mapM {visit : Node → StateM Walk Node} {reached : Node → List Node}
    (keeps : ∀ node, KeepsFailure (visit node))
    (each : ∀ {node p p'}, Completes (visit node) p p' → Fresh p (reached node) →
      s.Takes p (reached node) p')
    {nodes : List Node} (completes : Completes (nodes.mapM visit) p p')
    (fresh : Fresh p (nodes.flatMap reached)) : s.Takes p (nodes.flatMap reached) p' := by
  induction nodes generalizing p with
  | nil =>
      obtain rfl := completes_pure completes
      exact .refl s p'
  | cons node nodes ih =>
      rw [List.flatMap_cons] at fresh ⊢
      rw [List.mapM_cons] at completes
      obtain ⟨q, first, later⟩ := completes.bind fun _ =>
        (KeepsFailure.mapM keeps nodes).bind fun _ => .pure _
      obtain ⟨r, rest, last⟩ := later.bind fun _ => .pure _
      obtain rfl := completes_pure last
      have taken := each first fresh.left
      exact taken.append (ih rest (fresh.right taken))

/-- A walk through a tree that succeeds takes in the sites that it reaches. -/
theorem takes_of_traverse (completes : Completes (Node.traverse (Walk.visit s) depth node) p p')
    (fresh : Fresh p (s.reached depth node)) : s.Takes p (s.reached depth node) p' := by
  induction depth generalizing node p p' with
  | zero =>
      obtain rfl := completes_pure completes
      exact .refl s p'
  | succ depth ih =>
      rw [Setting.reached] at fresh ⊢
      rw [traverse_succ] at completes
      obtain ⟨q, visited, inside⟩ := completes.bind fun visited =>
        (KeepsFailure.mapM (keepsFailure_traverse s depth) visited.children).bind fun _ => .pure _
      obtain ⟨success, rfl, same⟩ := completes_visit visited
      have processes := visit_success (fresh_ownSite fresh.left) success
      rw [same, processes.stripped] at inside
      obtain ⟨r, parts, last⟩ := inside.bind fun _ => .pure _
      obtain rfl := completes_pure last
      have taken := takes_of_processes processes
      exact taken.append (takes_of_mapM (keepsFailure_traverse s depth) ih parts
        (fresh.right taken))

end Taking

/-! ### The keys of a unit -/

section Completeness

variable {s : Setting} {before after : Catalog} {ds : List Declaration}

/-- A catalog takes in only what has a key. -/
theorem Setting.Admits.isSome_declaredKey? (admits : s.Admits before ds after) :
    ∀ d ∈ ds, (s.declaredKey? d).isSome = true := by
  induction ds generalizing before with
  | nil => simp
  | cons d ds ih =>
      obtain ⟨content, between, e, resolved, inserted, rest⟩ := admits
      have key : s.declaredKey? d = some e.id := by
        rw [declaredKey?, resolved]
        exact (entry_eq_ok_iff.mp (insert_eq_ok_iff.mp inserted).1).2.key
      rintro other (_ | ⟨_, later⟩)
      · rw [key, Option.isSome_some]
      · exact ih rest other later

/-- A walk through a unit that succeeds takes in the sites that it reaches. -/
theorem takes_reachedIn {unit : List Node} (distinct : ((sitesOf unit).map siteId).Nodup)
    (success : (s.walk (.start s.options) unit).2.failure = none) :
    s.Takes (.start s.options) (s.reachedIn unit)
      (s.walk (.start s.options) unit).2.progress := by
  have all := (sitesOf_reached_perm s unit).map siteId
  rw [List.map_append] at all
  refine takes_of_mapM (keepsFailure_traverse s _) takes_of_traverse
    (congrArg (Walk.mk _) success) ⟨?_, fun _ _ => List.not_mem_nil⟩
  exact (List.nodup_append.mp (all.nodup_iff.mp distinct)).1

/-- No message is lost unless it is inside a description, and none is invented: in a unit
without two sites of the same identity, a walk that succeeds has found a key for each
message that is declared outside of descriptions, and these are the keys of its catalog. -/
theorem walk_finds_declared (s : Setting) (unit : List Node)
    (distinct : ((sitesOf unit).map siteId).Nodup)
    (success : (s.walk (.start s.options) unit).2.failure = none) :
    (∀ site ∈ sitesOf unit, site ∉ s.describedSites unit →
        ∀ d ∈ s.declarations site, (s.declaredKey? d).isSome = true) ∧
      ∀ key, key ∈ (s.walk (.start s.options) unit).2.progress.catalog.entries.map Entry.id ↔
        ∃ site ∈ sitesOf unit, site ∉ s.describedSites unit ∧ key ∈ s.declaredKeys site := by
  have takes := takes_reachedIn distinct success
  have reached (site : Node) :
      site ∈ s.reachedIn unit ↔ site ∈ sitesOf unit ∧ site ∉ s.describedSites unit :=
    mem_reachedIn_iff distinct
  constructor
  · intro site here visible d declared
    exact takes.admits.isSome_declaredKey? d
      (List.mem_flatMap.mpr ⟨site, (reached site).mpr ⟨here, visible⟩, declared⟩)
  · intro key
    have start : key ∉ (Progress.start s.options).catalog.entries.map Entry.id :=
      List.not_mem_nil
    rw [takes.admits.mem_ids, or_iff_right start, List.filterMap_flatMap, List.mem_flatMap]
    simp only [reached, and_assoc]
    rfl

end Completeness

/-- The call `t("text")`, written at a place. -/
def shorthandCall (place : Nat) (text : String) : Node :=
  .mk .call ⟨place, place + text.length + 5⟩
    [.mk (.identifier shorthandCallee) ⟨place, place + 1⟩ [],
      .mk (.string text) ⟨place + 2, place + text.length + 4⟩ []]

/-- The unit `<T message="x" title={t("y")} description={t("lost")} />;`. -/
def describedUnit : List Node :=
  [.mk .group ⟨0, 57⟩ [.mk .group ⟨0, 56⟩ [.mk (.element (.plain shorthandTag)) ⟨0, 56⟩
    [.mk (.attribute "message") ⟨3, 14⟩ [.mk (.string "x") ⟨11, 14⟩ []],
      .mk (.attribute "title") ⟨15, 29⟩ [.mk .container ⟨21, 29⟩ [shorthandCall 22 "y"]],
      .mk (.attribute descriptionKey) ⟨30, 53⟩
        [.mk .container ⟨42, 53⟩ [shorthandCall 43 "lost"]]]]]]

/-- How messages are extracted from the unit. -/
def describedSetting : Setting :=
  Unit.setting .standard "test.tsx"
    (.ofString ("<T message=\"x\" title=\x7bt(\"y\")\x7d " ++
      "description=\x7bt(\"lost\")\x7d />;"))
    describedUnit

theorem walk_finds_declared_nested :
    ((sitesOf describedUnit).map siteId).Nodup ∧
      (describedSetting.walk (.start describedSetting.options) describedUnit).2.failure = none ∧
      "y" ∈ (describedSetting.walk (.start describedSetting.options)
        describedUnit).2.progress.catalog.entries.map Entry.id := by
  have distinct : ((sitesOf describedUnit).map siteId).Nodup := by decide
  have hidden : describedSetting.describedSites describedUnit = [shorthandCall 43 "lost"] := rfl
  have nested : shorthandCall 22 "y" ∈ sitesOf describedUnit := .tail _ (.head _)
  have visible : shorthandCall 22 "y" ∉ describedSetting.describedSites describedUnit := by
    simp [hidden, shorthandCall]
  have declares : describedSetting.declaredKeys (shorthandCall 22 "y") = ["y"] := rfl
  refine ⟨distinct, rfl, ?_⟩
  refine ((walk_finds_declared describedSetting describedUnit distinct rfl).2 "y").mpr ?_
  exact ⟨_, nested, visible, declares ▸ .head _⟩

/-- The message of a call inside a description is not found, even though the walk
succeeds. -/
theorem walk_misses_described :
    ((sitesOf describedUnit).map siteId).Nodup ∧
      (describedSetting.walk (.start describedSetting.options) describedUnit).2.failure = none ∧
      ¬ ∀ key, key ∈ (describedSetting.walk (.start describedSetting.options)
            describedUnit).2.progress.catalog.entries.map Entry.id ↔
          ∃ site ∈ sitesOf describedUnit, key ∈ describedSetting.declaredKeys site := by
  refine ⟨by decide, rfl, fun complete => ?_⟩
  have found : (describedSetting.walk (.start describedSetting.options)
      describedUnit).2.progress.catalog.entries.map Entry.id = ["x", "y"] := rfl
  have inside : shorthandCall 43 "lost" ∈ sitesOf describedUnit := .tail _ (.tail _ (.head _))
  have declares : describedSetting.declaredKeys (shorthandCall 43 "lost") = ["lost"] := rfl
  have claimed := (complete "lost").mpr ⟨_, inside, declares ▸ .head _⟩
  rw [found] at claimed
  exact absurd claimed (by decide)

end Extraction

end MessageCatalog
