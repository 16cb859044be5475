import MessageCatalog.Proofs.Command.Independence
import MessageCatalog.Proofs.Config.Discovery
import MessageCatalog.Proofs.Scan.Growth
import MessageCatalog.Proofs.Unit.Rerun

/-!
# Running again

A run without explicit paths is a fixed point: if it leaves alone what the search for the
configuration looks at, then running again finds the same units, comes to the same summary
and leaves the tree of files as it is. What a run adds to the tree is never a unit, and it
is found again as it was left.

This holds for configured paths that go down only, and for patterns no component of which
matches the parent of a directory. The latter is not the same as not having a parent in a
pattern: a component that starts with a point can match both special entries of a directory.
Through a directory for catalogs, which only the first run makes, such a pattern leads back
to other files.
-/

namespace MessageCatalog

namespace Command

open MessageCatalog.Unit (Job Parser Present processAll)

/-- Whether no configured path goes up. -/
structure Downward (config : Config) (workingDirectory : Path) : Prop where
  includes : Scan.Downward (workingDirectory.child config.sourceRoot) config.includes
  catalogs : ∀ catalogs ∈ config.catalogs? workingDirectory, catalogs.IsStraight

section Rerun

variable {tree after : FileTree} {workingDirectory path : Path} {config : Config}
  {arguments : ExtractArguments}

theorem rooted_jobOf (parser : Parser) (absolute : workingDirectory.isAbsolute = true)
    (downward : Downward config workingDirectory) :
    (jobOf parser config workingDirectory).Rooted where
  absolute := absolute
  kept _ := isAbsolute_of_mem_catalogs? absolute
  direct := downward.catalogs

theorem findUnits_nil (tree : FileTree) (workingDirectory : Path) (config : Config) :
    findUnits tree workingDirectory config [] =
      Scan.scan tree (workingDirectory.child config.sourceRoot) config.scan := by
  rw [findUnits, List.isEmpty_nil, if_pos rfl]

theorem present_of_mem_findUnits (proper : tree.Proper)
    (absolute : workingDirectory.isAbsolute = true)
    (downward : Downward config workingDirectory)
    (among : path ∈ (findUnits tree workingDirectory config []).files) : Present tree path := by
  have absolute' := isAbsolute_of_mem_findUnits absolute among
  have source := isSource_of_mem_findUnits among
  rw [findUnits_nil] at among
  obtain ⟨straight, text, got⟩ := Scan.exists_file_of_mem_scan proper downward.includes among
  exact ⟨absolute', straight, source, FileTree.existsAt_of_get got⟩

/-- A run finds its units again in the tree that it leaves behind. -/
theorem findUnits_processAll (parser : Parser) (proper : tree.Proper)
    (absolute : workingDirectory.isAbsolute = true) (downward : Downward config workingDirectory) :
    findUnits (processAll (jobOf parser config workingDirectory) tree
      (findUnits tree workingDirectory config []).files).1 workingDirectory config [] =
      findUnits tree workingDirectory config [] := by
  have root : (workingDirectory.child config.sourceRoot).isAbsolute = true :=
    Path.isAbsolute_append absolute _
  by_cases known : config.includes = [] →
      tree.existsAt (workingDirectory.child config.sourceRoot) = true
  · have grows := (Unit.processAll_wrote (rooted_jobOf parser absolute downward) fun _ among =>
      present_of_mem_findUnits proper absolute downward among).1.grows
    rw [findUnits_nil, findUnits_nil] at *
    exact Scan.scan_grows grows proper root downward.includes known
  · -- The only starting point leads nowhere, so that nothing is found and nothing is written.
    obtain ⟨empty, missing⟩ := Classical.not_imp.mp known
    have none : (findUnits tree workingDirectory config []).files = [] := by
      refine List.eq_nil_iff_forall_not_mem.mpr fun path among => missing ?_
      rw [findUnits_nil] at among
      obtain ⟨start, starting, inside⟩ := Scan.mem_scan among
      obtain ⟨node, found, got, -, -⟩ := Scan.mem_scanFrom inside
      have empty : config.scan.includes = [] := empty
      rw [Scan.starts, empty, List.isEmpty_nil, if_pos rfl, List.mem_singleton] at starting
      exact starting ▸ FileTree.existsAt_of_get got
    rw [none]
    rfl

theorem configure_congr (undisturbed : Config.Undisturbed tree after workingDirectory)
    (arguments : ExtractArguments) :
    configure after workingDirectory arguments = configure tree workingDirectory arguments := by
  unfold configure
  rw [Config.load_congr undisturbed]

theorem extract_of_error (parser : Parser) {fault : Config.LoadFault}
    (failed : configure tree workingDirectory arguments = .error fault) :
    extract parser tree workingDirectory arguments = (tree, .error fault) := by
  rw [extract, failed]

theorem extract_of_ok (parser : Parser)
    (configured : configure tree workingDirectory arguments = .ok config) :
    extract parser tree workingDirectory arguments =
      ((processAll (jobOf parser config workingDirectory) tree
          (findUnits tree workingDirectory config arguments.paths).files).1,
        .ok (summarize (processAll (jobOf parser config workingDirectory) tree
            (findUnits tree workingDirectory config arguments.paths).files).2
          (findUnits tree workingDirectory config arguments.paths).skipped)) := by
  rw [extract, configured]

/-- A run without explicit paths is a fixed point: if it disturbs nothing where the search for
the configuration looks, and no configured path and no component of a pattern goes up, then
running again finds the same units, has the same outcome, and changes nothing. -/
theorem extract_again (parser : Parser) (tree : FileTree) (workingDirectory : Path)
    (arguments : ExtractArguments) (proper : tree.Proper)
    (absolute : workingDirectory.isAbsolute = true) (implicit : arguments.paths = [])
    (downward : ∀ config, configure tree workingDirectory arguments = .ok config →
      Downward config workingDirectory)
    (undisturbed : Config.Undisturbed tree (extract parser tree workingDirectory arguments).1
      workingDirectory) :
    let after := (extract parser tree workingDirectory arguments).1
    configure after workingDirectory arguments = configure tree workingDirectory arguments ∧
      (∀ config, configure tree workingDirectory arguments = .ok config →
        findUnits after workingDirectory config arguments.paths =
          findUnits tree workingDirectory config arguments.paths) ∧
      extract parser after workingDirectory arguments =
        extract parser tree workingDirectory arguments := by
  intro after
  have reconfigured := configure_congr undisturbed arguments
  refine ⟨reconfigured, ?_⟩
  cases configured : configure tree workingDirectory arguments with
  | error fault =>
    have unchanged : after = tree := congrArg Prod.fst (extract_of_error parser configured)
    refine ⟨fun config same => absurd same (by simp), ?_⟩
    rw [unchanged]
  | ok config =>
    have down := downward config configured
    have found := findUnits_processAll parser proper absolute down
    have again := Unit.processAll_processAll (rooted_jobOf parser absolute down) fun _ among =>
      present_of_mem_findUnits proper absolute down among
    have first := extract_of_ok parser configured
    rw [implicit] at first
    refine ⟨fun config' same => ?_, ?_⟩
    · rw [← Except.ok.inj same, implicit]
      change findUnits (extract parser tree workingDirectory arguments).1 _ _ _ = _
      rw [first]
      exact found
    · rw [extract_of_ok parser (reconfigured.trans configured), implicit, first]
      dsimp only
      rw [found, again]

/-! ### A project that is run twice -/

/-- A configuration with a directory and a pattern to start from. -/
def patternedConfig (pattern : String) : Config :=
  { Config.standard with includes := ["lib", pattern], messagesDir := some "out" }

/-- A project with a unit in the directory to start from and another one next to it. -/
def patternedTree (pattern : String) : FileTree :=
  .directory [("w", .directory [
    (Config.fileName, .file (some ("\x7b\"includes\": [\"lib\", \"" ++ pattern ++
      "\"], \"messagesDir\": \"out\"\x7d"))),
    ("lib", .directory [("a.tsx", .file (some "t(\"a\");"))]),
    ("src", .directory [("b.tsx", .file (some "t(\"b\");"))])])]

/-- A file with the only path that is looked at and the same text is not disturbed. -/
theorem undisturbed_of_readText {text : String}
    (consulted : Config.consulted tree workingDirectory = [path])
    (before : tree.readText path = .ok text) (now : after.readText path = .ok text) :
    Config.Undisturbed tree after workingDirectory := by
  intro other among
  rw [consulted, List.mem_singleton] at among
  rw [among, before, now, FileTree.existsAt_of_readText before, FileTree.existsAt_of_readText now]
  exact ⟨rfl, fun _ => rfl⟩

/-- The pattern of this project matches the directory of catalogs that the first run makes. -/
theorem extract_again_patterned :
    let tree := patternedTree "out/*"
    let after := (extract Syntax.parse tree sampleDirectory .none).1
    tree.Proper ∧ sampleDirectory.isAbsolute = true ∧
      configure tree sampleDirectory .none = .ok (patternedConfig "out/*") ∧
      Downward (patternedConfig "out/*") sampleDirectory ∧
      Config.Undisturbed tree after sampleDirectory ∧
      Glob.expand after (.ofString "/w/./out/*") = .ok [.ofString "/w/./out/lib"] ∧
      extract Syntax.parse after sampleDirectory .none =
        extract Syntax.parse tree sampleDirectory .none := by
  intro tree after
  have configured : configure tree sampleDirectory .none = .ok (patternedConfig "out/*") := by rfl
  have downward : Downward (patternedConfig "out/*") sampleDirectory := by
    refine ⟨⟨by decide +kernel, ?_, ?_⟩, by decide +kernel⟩
    · decide +kernel
    · decide +kernel
  have proper : tree.Proper := by decide +kernel
  have kept : after.readText (.ofString "/w/.intlrc.json") =
      tree.readText (.ofString "/w/.intlrc.json") := by decide +kernel
  have undisturbed : Config.Undisturbed tree after sampleDirectory :=
    undisturbed_of_readText rfl rfl kept
  have again := extract_again Syntax.parse tree sampleDirectory .none proper rfl rfl
    (fun config same => Except.ok.inj (configured.symm.trans same) ▸ downward) undisturbed
  exact ⟨proper, rfl, configured, downward, undisturbed, by decide +kernel, again.2.2⟩

theorem files_extract (parser : Parser)
    (configured : configure tree workingDirectory arguments = .ok config) :
    (extract parser tree workingDirectory arguments).2.map Summary.files =
      .ok (findUnits tree workingDirectory config arguments.paths).files.length := by
  rw [extract_of_ok parser configured]
  exact congrArg Except.ok (Unit.length_processAll _ _ _)

/-- Without a parent in any configured path, a component of this pattern matches one, and the
way there leads through the directory that the first run makes. -/
theorem extract_finds_more :
    let tree := patternedTree "out/.*/src"
    let config := patternedConfig "out/.*/src"
    let after := (extract Syntax.parse tree sampleDirectory .none).1
    tree.Proper ∧ sampleDirectory.isAbsolute = true ∧
      configure tree sampleDirectory .none = .ok config ∧
      (∀ text ∈ config.sourceRoot :: config.includes ++ config.ignores ++
        config.messagesDir.toList, (Path.ofString text).IsStraight) ∧
      Config.Undisturbed tree after sampleDirectory ∧
      (findUnits tree sampleDirectory config []).files = [.ofString "/w/./lib/a.tsx"] ∧
      (findUnits after sampleDirectory config []).files =
        [.ofString "/w/./lib/a.tsx", .ofString "/w/./out/../src/b.tsx"] ∧
      extract Syntax.parse after sampleDirectory .none ≠
        extract Syntax.parse tree sampleDirectory .none := by
  intro tree config after
  have configured : configure tree sampleDirectory .none = .ok config := by rfl
  have kept : after.readText (.ofString "/w/.intlrc.json") =
      tree.readText (.ofString "/w/.intlrc.json") := by decide +kernel
  have undisturbed : Config.Undisturbed tree after sampleDirectory :=
    undisturbed_of_readText rfl rfl kept
  have first : (findUnits tree sampleDirectory config []).files = [.ofString "/w/./lib/a.tsx"] := by
    decide +kernel
  have second : (findUnits after sampleDirectory config []).files =
      [.ofString "/w/./lib/a.tsx", .ofString "/w/./out/../src/b.tsx"] := by
    have found : ((Scan.starts after (sampleDirectory.child config.sourceRoot)
        config.scan.includes).map (Scan.scanFrom after (Scan.exclusions
          (sampleDirectory.child config.sourceRoot) config.scan))).flatMap (·.files) =
        [.ofString "/w/./lib/a.tsx", .ofString "/w/./out/../src/b.tsx"] := by decide +kernel
    have ascending : [Path.ofString "/w/./lib/a.tsx",
        .ofString "/w/./out/../src/b.tsx"].Pairwise Path.Before := by
      rw [List.pairwise_pair]
      exact ⟨by decide +kernel, by decide +kernel⟩
    rw [findUnits_nil, Scan.scan, Scan.join]
    dsimp only
    rw [found, Scan.arrange_of_pairwise ascending]
  refine ⟨by decide +kernel, rfl, configured, by decide +kernel, undisturbed, first, second, ?_⟩
  intro same
  have count := files_extract Syntax.parse configured
  have again := (configure_congr undisturbed .none).trans configured
  rw [← same, files_extract Syntax.parse again] at count
  have lengths := Except.ok.inj count
  change (findUnits after sampleDirectory config []).files.length =
    (findUnits tree sampleDirectory config []).files.length at lengths
  rw [first, second] at lengths
  exact absurd lengths (by decide)

end Rerun

end Command

end MessageCatalog
