import MessageCatalog.Proofs.Glob.Relocation
import MessageCatalog.Proofs.Scan.Selection
import MessageCatalog.Proofs.Unit.Containment

/-!
# Scans of copies of a directory

What a scan of a directory considers at all depends on the directory alone: starting points,
files, extensions and paths that are left out are the same in all of its copies. The patterns
of a scan are matched against whole paths instead, so that a copy is scanned alike exactly if
they spare the same places in both.
-/

namespace MessageCatalog

namespace Path

/-- Whether some components come before other ones in the order of paths. -/
def Ahead (a b : List Component) : Prop :=
  (compare (a.map Component.key) (b.map Component.key)).isLE = true ∧ a ≠ b

section Ahead

variable {a b : List Component}

theorem before_iff {path other : Path} :
    Before path other ↔ Ahead path.components other.components := by
  rw [Before, Ahead, ← Bool.not_eq_true, names_iff]
  rfl

theorem compare_cons (keys : List Nat) (l l' : List (List Nat)) :
    compare (keys :: l) (keys :: l') = compare l l' := by
  have same : compare keys keys = .eq := Std.ReflCmp.compare_self
  rw [List.compare_eq_compareLex, List.compareLex_cons_cons, ← List.compare_eq_compareLex, same,
    Ordering.eq_then]

/-- What components have in common at their start does not matter for their order. -/
theorem ahead_append_iff (start : List Component) :
    Ahead (start ++ a) (start ++ b) ↔ Ahead a b := by
  induction start with
  | nil => rfl
  | cons component start ih =>
    rw [← ih, Ahead, Ahead, List.cons_append, List.cons_append, List.map_cons, List.map_cons,
      compare_cons, Ne, List.cons_inj_right]

instance : Std.Irrefl Ahead where
  irrefl _ ahead := ahead.2 rfl

instance : Std.Antisymm Ahead where
  antisymm a b first second := by
    have same := Std.LawfulEqCmp.eq_of_compare (Std.OrientedCmp.isLE_antisymm first.1 second.1)
    exact (List.map_inj_right fun x y => Component.key_injective).mp same

end Ahead

end Path

namespace Scan

open FileTree (Aligned Hosts)
open MessageCatalog.Path (separator Ahead)

/-- Whether the texts of a scan stay in the directory that is scanned: all of them are relative,
and no starting point goes up. -/
structure Inward (options : Options) : Prop where
  relative : ∀ text ∈ options.includes ++ options.ignores, (Path.ofString text).isAbsolute = false
  path : ∀ text ∈ options.includes, Glob.isPattern text = false → (Path.ofString text).IsStraight
  pattern : ∀ text ∈ options.includes, Glob.isPattern text = true →
    Glob.GoesDown (Glob.rooted text)

/-- Whether a path stands for itself in a pattern, but for a separator at its end. -/
def LegibleRoot (path : Path) : Prop :=
  ∃ bare, Glob.Legible bare ∧ (path = bare ∨ path = bare ++ Path.empty)

/-- The components of what is found, relative to a path. -/
def Found.below (found : Found) (root : Path) : List (Option (List Path.Component)) :=
  found.files.map fun file => (file.relativeTo? root).map Path.components

/-- Whether a place in a directory is that of a candidate, found as if there was nothing else,
that no pattern matches if the directory is at a certain path. -/
def Spared (entries : List (String × FileTree)) (options : Options) (root : Path)
    (place : List Path.Component) : Prop :=
  ∃ rest : Path, rest.isAbsolute = false ∧ rest.below = place ∧
    Candidate (.directory entries) ⟨[separator]⟩ options (⟨[separator]⟩ ++ rest) ∧
    Unmatched options (root ++ rest)

section Relocation

variable {tree tree' : FileTree} {entries : List (String × FileTree)}
  {root root' path path' start start' rest : Path} {options : Options}

/-! ### Candidates -/

theorem Reaches.aligned (reaches : Reaches tree start path)
    (aligned : Aligned root root' start start') (hosts : Hosts tree root entries)
    (hosts' : Hosts tree' root' entries) :
    ∃ path', Aligned root root' path path' ∧ Reaches tree' start' path' := by
  induction reaches with
  | start there =>
    exact ⟨start', aligned, .start ((aligned.existsAt_eq hosts hosts').symm.trans there)⟩
  | entry above inside among ih =>
    obtain ⟨path', aligned', reaches'⟩ := ih
    have named := ((FileTree.proper_directory_iff.mp (hosts.proper.get inside)).2 _ among).1
    exact ⟨_, aligned'.child named,
      .entry reaches' ((aligned'.get_eq hosts hosts').symm.trans inside) among⟩

theorem IsStart.aligned (starts : IsStart tree root options.includes start)
    (hosts : Hosts tree root entries) (hosts' : Hosts tree' root' entries)
    (inward : Inward options)
    (legible : ∀ text ∈ options.includes, Glob.isPattern text = true →
      Glob.Legible root ∧ Glob.Legible root') :
    ∃ start', Aligned root root' start start' ∧ IsStart tree' root' options.includes start' := by
  have relative := fun text among => inward.relative text (List.mem_append_left _ among)
  cases starts with
  | root none => exact ⟨root', .root, .root none⟩
  | @literal text among plain there =>
    have aligned : Aligned root root' (root.child text) (root'.child text) :=
      .below (relative text among) (inward.path text among plain)
    exact ⟨_, aligned, .literal among plain ((aligned.existsAt_eq hosts hosts').symm.trans there)⟩
  | @wildcard text _ among wild matched inside =>
    obtain ⟨legible, legible'⟩ := legible text among wild
    have some : text ≠ "" := by
      rintro rfl
      exact absurd wild (by decide)
    obtain ⟨start', aligned, matched'⟩ := matched.aligned hosts hosts' legible legible'
      (relative text among) some (inward.pattern text among wild)
    exact ⟨start', aligned, .wildcard among wild matched'
      ((aligned.isDirectoryAt_eq hosts hosts').symm.trans inside)⟩

/-- The extension of a file is decided behind any path. -/
theorem isSource_append (inhabited : root.text ≠ []) (inhabited' : root'.text ≠ [])
    (relative : rest.isAbsolute = false) (some : rest.below ≠ []) :
    Unit.isSource (root ++ rest) = Unit.isSource (root' ++ rest) := by
  have same : (root ++ rest).fileName? = (root' ++ rest).fileName? := by
    rw [Path.fileName?, Path.fileName?, Path.components_append relative inhabited,
      Path.components_append relative inhabited', List.getLast?_append_of_ne_nil _ some,
      List.getLast?_append_of_ne_nil _ some]
  have same' : Unit.extension? (root ++ rest) = Unit.extension? (root' ++ rest) := by
    simp only [Unit.extension?, Path.extension?, same]
  rw [Unit.isSource, Unit.isSource, same']

/-- A candidate in a directory lies below it, and at the same place of a copy there is another
one. -/
theorem Candidate.relocate (candidate : Candidate tree root options path)
    (hosts : Hosts tree root entries) (hosts' : Hosts tree' root' entries)
    (inward : Inward options)
    (legible : ∀ text ∈ options.includes, Glob.isPattern text = true →
      Glob.Legible root ∧ Glob.Legible root') :
    ∃ rest : Path, rest.isAbsolute = false ∧ path = root ++ rest ∧
      Candidate tree' root' options (root' ++ rest) := by
  obtain ⟨⟨start, starting, reached⟩, ⟨text, file⟩, source, outside⟩ := candidate
  obtain ⟨start', aligned, starting'⟩ := starting.aligned hosts hosts' inward legible
  obtain ⟨path', aligned', reached'⟩ := reached.aligned aligned hosts hosts'
  have file' := (aligned'.get_eq hosts hosts').symm.trans file
  cases aligned' with
  | root => exact absurd (Except.ok.inj (hosts.here.symm.trans file)) (by simp)
  | @below rest relative straight =>
    have some := hosts.below_ne_nil relative straight file
    refine ⟨rest, relative, rfl, ⟨start', starting', reached'⟩, ⟨text, file'⟩, ?_, ?_⟩
    · rw [← source]
      exact isSource_append hosts'.text_ne_nil hosts.text_ne_nil relative some
    · intro text among plain
      have relative' := inward.relative text (List.mem_append_right _ among)
      have outside' := outside text among plain
      rw [Path.child, Path.startsWith_append hosts.text_ne_nil relative relative'] at outside'
      rw [Path.child, Path.startsWith_append hosts'.text_ne_nil relative relative', outside']

/-- What a scan of a directory is for: the candidates of the directory by itself that no pattern
matches where it is. -/
theorem selected_iff (hosts : Hosts tree root entries) (inward : Inward options)
    (legible : ∀ text ∈ options.includes, Glob.isPattern text = true → Glob.Legible root) :
    Selected tree root options path ↔ ∃ rest : Path, rest.isAbsolute = false ∧
      path = root ++ rest ∧
      Candidate (.directory entries) ⟨[separator]⟩ options (⟨[separator]⟩ ++ rest) ∧
      Unmatched options (root ++ rest) := by
  constructor
  · rintro ⟨candidate, unmatched⟩
    obtain ⟨rest, relative, rfl, alone⟩ := candidate.relocate hosts hosts.alone inward
      fun text among wild => ⟨legible text among wild, Glob.legible_separator⟩
    exact ⟨rest, relative, rfl, alone, unmatched⟩
  · rintro ⟨rest, relative, rfl, alone, unmatched⟩
    obtain ⟨rest', relative', same, candidate⟩ := alone.relocate hosts.alone hosts inward
      fun text among wild => ⟨Glob.legible_separator, legible text among wild⟩
    obtain rfl := Path.separator_append_inj relative relative' same
    exact ⟨candidate, unmatched⟩

/-! ### Places -/

/-- The places of what is found in a directory ascend, and are those that are spared. -/
structure Places (tree : FileTree) (entries : List (String × FileTree)) (root : Path)
    (options : Options) (places : List (List Path.Component)) : Prop where
  below : (scan tree root options).below root = places.map some
  ascending : places.Pairwise Ahead
  spared : ∀ place, place ∈ places ↔ Spared entries options root place

theorem exists_places_of_legible (hosts : Hosts tree root entries) (inward : Inward options)
    (legible : ∀ text ∈ options.includes, Glob.isPattern text = true → Glob.Legible root) :
    ∃ places, Places tree entries root options places := by
  have lists := lists_scan hosts.proper root options
  have inhabited := hosts.text_ne_nil
  have components {path : Path} (selected : Selected tree root options path) :
      ∃ rest : Path, path.components = root.components ++ rest.below ∧
        Spared entries options root rest.below := by
    obtain ⟨rest, relative, rfl, alone, unmatched⟩ :=
      (selected_iff hosts inward legible).mp selected
    exact ⟨rest, Path.components_append relative inhabited, rest, relative, rfl, alone, unmatched⟩
  have behind : ∀ file ∈ (scan tree root options).files,
      file.components = root.components ++ file.components.drop root.components.length := by
    intro file among
    obtain ⟨rest, whole, -⟩ := components (lists.sound file among)
    rw [whole, List.drop_left]
  refine ⟨(scan tree root options).files.map (·.components.drop root.components.length), ?_⟩
  constructor
  case below =>
    rw [Found.below, List.map_map]
    refine List.map_congr_left fun file among => ?_
    have within : file.startsWith root = true :=
      List.isPrefixOf_iff_prefix.mpr ⟨_, (behind file among).symm⟩
    obtain ⟨relative, remains, same, whole, own⟩ := Unit.exists_relativeTo within
    rw [same, Option.map_some, own, Function.comp_apply, whole, List.drop_left]
  case ascending =>
    refine List.pairwise_map.mpr
      (lists.ascending.imp_of_mem fun {file next} first second before => ?_)
    rw [Path.before_iff, behind file first, behind next second, Path.ahead_append_iff] at before
    exact before
  case spared =>
    intro place
    rw [List.mem_map]
    constructor
    · rintro ⟨file, among, rfl⟩
      obtain ⟨rest, whole, spared⟩ := components (lists.sound file among)
      rwa [whole, List.drop_left]
    · rintro ⟨rest, relative, rfl, alone, unmatched⟩
      obtain ⟨file, among, named⟩ := lists.complete _
        ((selected_iff hosts inward legible).mpr ⟨rest, relative, rfl, alone, unmatched⟩)
      refine ⟨file, among, ?_⟩
      rw [Path.names_iff.mp named, Path.components_append relative inhabited, List.drop_left]

/-! ### A separator at the end -/

/-- With starting points of its own, a scan sees its root only as the start of other paths. -/
theorem scan_append_empty (some : options.includes ≠ []) (tree : FileTree) (root : Path) :
    scan tree (root ++ Path.empty) options = scan tree root options := by
  have child : (root ++ Path.empty).child = root.child :=
    funext fun text => Path.append_empty_append root _
  have starts' : starts tree (root ++ Path.empty) options.includes =
      starts tree root options.includes := by
    rw [starts, starts, if_neg (by simpa using some), if_neg (by simpa using some)]
    refine List.flatMap_congr fun text _ => ?_
    rw [startsOf, startsOf, child]
  rw [scan, scan, exclusions, exclusions, child, starts']

theorem Found.below_congr (same : root.components = root'.components) (found : Found) :
    found.below root = found.below root' := by
  simp only [Found.below, Path.relativeTo?_congr same]

theorem spared_append_empty (entries : List (String × FileTree)) (options : Options) (root : Path)
    (place : List Path.Component) :
    Spared entries options (root ++ Path.empty) place ↔ Spared entries options root place := by
  simp only [Spared, Path.append_empty_append]

theorem exists_places (hosts : Hosts tree root entries) (inward : Inward options)
    (legible : ∀ text ∈ options.includes, Glob.isPattern text = true → LegibleRoot root) :
    ∃ places, Places tree entries root options places := by
  by_cases bare : ∀ text ∈ options.includes, Glob.isPattern text = true → Glob.Legible root
  · exact exists_places_of_legible hosts inward bare
  · -- A starting point is a pattern, and the root has a separator at its end.
    simp only [Classical.not_forall] at bare
    obtain ⟨text, among, wild, ended⟩ := bare
    obtain ⟨front, legible', rfl | rfl⟩ := legible text among wild
    · exact absurd legible' ended
    · have hosts' := hosts.of_append_empty legible'.isAbsolute
      obtain ⟨places, below, ascending, spared⟩ :=
        exists_places_of_legible hosts' inward fun _ _ _ => legible'
      refine ⟨places, ?_, ascending, fun place => ?_⟩
      · rw [scan_append_empty (List.ne_nil_of_mem among), ← below]
        exact Found.below_congr (Path.components_append_empty hosts'.text_ne_nil) _
      · rw [spared, spared_append_empty]

end Relocation

/-- Where a directory lies only matters for its scan as far as patterns do: in two copies of it,
whose paths stand for themselves in patterns if there are any to start from, the same is found
exactly if the patterns spare the same places in both. -/
theorem scan_relocated_iff {tree tree' : FileTree} {root root' : Path}
    {entries : List (String × FileTree)} {options : Options} (hosts : Hosts tree root entries)
    (hosts' : Hosts tree' root' entries) (inward : Inward options)
    (legible : ∀ text ∈ options.includes, Glob.isPattern text = true →
      LegibleRoot root ∧ LegibleRoot root') :
    (scan tree root options).skipped = (scan tree' root' options).skipped ∧
      ((scan tree root options).below root = (scan tree' root' options).below root' ↔
        ∀ place, Spared entries options root place ↔ Spared entries options root' place) := by
  obtain ⟨places, below, ascending, spared⟩ :=
    exists_places hosts inward fun text among wild => (legible text among wild).1
  obtain ⟨places', below', ascending', spared'⟩ :=
    exists_places hosts' inward fun text among wild => (legible text among wild).2
  refine ⟨?_, ?_⟩
  · rw [skipped_scan (FileTree.isDirectoryAt_of_get hosts.here),
      skipped_scan (FileTree.isDirectoryAt_of_get hosts'.here)]
  · rw [below, below', List.map_inj_right fun a b => Option.some.inj]
    constructor
    · rintro rfl place
      rw [← spared, ← spared']
    · intro same
      exact ascending.eq_of_mem_iff ascending' fun place => by rw [spared, spared', same]

/-- A directory with a unit below another directory. -/
def smallProject : List (String × FileTree) :=
  [("src", .directory [("a.tsx", .file (some ""))])]

/-- Copies of a project in several places. -/
def copiesTree : FileTree :=
  .directory [("app", .directory smallProject), ("build", .directory smallProject),
    ("srv", .directory [("[p]", .directory smallProject)])]

/-- A pattern to start from finds the unit in the first two copies, and a pattern that matches
no directory above them spares the same places. -/
theorem scan_relocated_iff_spared :
    let options : Options := ⟨["*"], ["**/out/**"], true⟩
    Hosts copiesTree (.ofString "/app/./") smallProject ∧
      Hosts copiesTree (.ofString "/build") smallProject ∧ Inward options ∧
      LegibleRoot (.ofString "/app/./") ∧ LegibleRoot (.ofString "/build") ∧
      (scan copiesTree (.ofString "/app/./") options).files = [.ofString "/app/./src/a.tsx"] ∧
      ∀ place, Spared smallProject options (.ofString "/app/./") place ↔
        Spared smallProject options (.ofString "/build") place := by
  intro options
  have hosts : Hosts copiesTree (.ofString "/app/./") smallProject := ⟨by decide +kernel, rfl⟩
  have hosts' : Hosts copiesTree (.ofString "/build") smallProject := ⟨by decide +kernel, rfl⟩
  have inward : Inward options := ⟨by decide +kernel, by decide +kernel, by decide +kernel⟩
  have legible : LegibleRoot (.ofString "/app/./") :=
    ⟨.ofString "/app/.", ⟨["app".toList, ".".toList], by decide +kernel, rfl⟩, .inr rfl⟩
  have legible' : LegibleRoot (.ofString "/build") :=
    ⟨.ofString "/build", ⟨["build".toList], by decide +kernel, rfl⟩, .inl rfl⟩
  have alike : (scan copiesTree (.ofString "/app/./") options).below (.ofString "/app/./") =
      (scan copiesTree (.ofString "/build") options).below (.ofString "/build") := by
    decide +kernel
  refine ⟨hosts, hosts', inward, legible, legible', by decide +kernel, ?_⟩
  exact (scan_relocated_iff hosts hosts' inward fun _ _ _ => ⟨legible, legible'⟩).2.mp alike

/-- The same directory is scanned in different ways in two places: below a directory whose name
a pattern to ignore matches, and in a directory whose name has brackets, which a pattern to
start from takes for a list of characters. -/
theorem scan_moved :
    let ignoring : Options := ⟨[], ["**/build/**"], false⟩
    let starting : Options := ⟨["*"], [], false⟩
    Hosts copiesTree (.ofString "/app") smallProject ∧
      Hosts copiesTree (.ofString "/build") smallProject ∧
      Hosts copiesTree (.ofString "/srv/[p]") smallProject ∧ Inward ignoring ∧ Inward starting ∧
      scan copiesTree (.ofString "/app") ignoring = ⟨[.ofString "/app/src/a.tsx"], 0⟩ ∧
      scan copiesTree (.ofString "/build") ignoring = ⟨[], 0⟩ ∧
      scan copiesTree (.ofString "/app") starting = ⟨[.ofString "/app/src/a.tsx"], 0⟩ ∧
      scan copiesTree (.ofString "/srv/[p]") starting = ⟨[], 0⟩ := by
  intro ignoring starting
  have proper : copiesTree.Proper := by decide +kernel
  refine ⟨⟨proper, rfl⟩, ⟨proper, rfl⟩, ⟨proper, rfl⟩, ⟨?_, ?_, ?_⟩, ⟨?_, ?_, ?_⟩, ?_⟩
  all_goals decide +kernel

end Scan

end MessageCatalog
