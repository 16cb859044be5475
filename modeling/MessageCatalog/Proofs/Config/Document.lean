import MessageCatalog.Config.Format
import MessageCatalog.Proofs.Catalog.Document

/-!
# Reading documents back

What is kept in documents is what is read from them. A configuration is always read back,
because it is written with all fields but one, and the directory of catalogs is absent by
default. A catalog is read back exactly if the lines and columns in it fit into words of 64
bits, which all lines and columns do that a text in memory can have.
-/

namespace MessageCatalog

namespace Config

open Catalog Json

theorem decodes_texts (texts : List String) (depth : Nat) :
    (list text).Decodes ((textsValue texts).write depth) (some texts) := by
  have decodes : (list text).Decodes (enclose '[' ']' depth (texts.map quote))
      (texts.mapM some) := decodes_list fun written _ => decodes_text written
  have all : texts.mapM some = some texts := by
    rw [show (some : String → Option String) = pure from rfl, List.mapM_pure, List.map_id']
    rfl
  have written : (textsValue texts).write depth = enclose '[' ']' depth (texts.map quote) := by
    rw [textsValue, write_list, List.map_map]
    congr 2
  rwa [written, ← all]

/-- The members of a written configuration. -/
def members (config : Config) : List (Member Config) :=
  [.of "includes" ((textsValue config.includes).write 1) (some config.includes)
      fun config includes => { config with includes },
    .of "ignores" ((textsValue config.ignores).write 1) (some config.ignores)
      fun config ignores => { config with ignores },
    .of "ignoreTestFiles" ((Value.boolean config.ignoreTestFiles).write 1)
      (some config.ignoreTestFiles) fun config ignoreTestFiles =>
        { config with ignoreTestFiles },
    .of "sourceRoot" (quote config.sourceRoot) (some config.sourceRoot)
      fun config sourceRoot => { config with sourceRoot },
    .of "moduleSourceName" (quote config.moduleSourceName) (some config.moduleSourceName)
      fun config moduleSourceName => { config with moduleSourceName },
    .of "componentNames" ((textsValue config.componentNames).write 1)
      (some config.componentNames) fun config componentNames =>
        { config with componentNames },
    .of "enforceDescriptions" ((Value.boolean config.enforceDescriptions).write 1)
      (some config.enforceDescriptions) fun config enforceDescriptions =>
        { config with enforceDescriptions },
    .of "extractSourceLocation" ((Value.boolean config.extractSourceLocation).write 1)
      (some config.extractSourceLocation) fun config extractSourceLocation =>
        { config with extractSourceLocation }] ++
    (config.messagesDir.map fun directory =>
      .of "messagesDir" (quote directory) (some (some directory))
        fun config messagesDir => { config with messagesDir }).toList

theorem accepts_config (config : Config) : shape.Accepts config.members where
  known := by
    intro member here
    simp only [members, List.cons_append, List.nil_append, List.mem_cons, Option.mem_toList,
      Option.map_eq_some_iff] at here
    rcases here with rfl | rfl | rfl | rfl | rfl | rfl | rfl | rfl | ⟨directory, -, rfl⟩
    · exact Shape.has_of_decodes rfl (decodes_texts _ _)
    · exact Shape.has_of_decodes rfl (decodes_texts _ _)
    · exact Shape.has_of_decodes rfl (decodes_boolean _ _)
    · exact Shape.has_of_decodes rfl (decodes_text _)
    · exact Shape.has_of_decodes rfl (decodes_text _)
    · exact Shape.has_of_decodes rfl (decodes_texts _ _)
    · exact Shape.has_of_decodes rfl (decodes_boolean _ _)
    · exact Shape.has_of_decodes rfl (decodes_boolean _ _)
    · exact Shape.has_of_decodes rfl (decodes_text directory).optional
  distinct := by
    -- The members follow the order of the fields.
    have ordered : (config.members.map Member.name).Sublist (shape.fields.map Field.name) := by
      rw [members]
      cases config.messagesDir with
      | none => exact List.sublist_append_left _ ["messagesDir"]
      | some directory => exact List.Sublist.refl _
    exact ordered.nodup (by decide)
  complete := by
    intro field here needed
    simp only [shape, List.mem_cons, List.not_mem_nil, or_false] at here
    rcases here with rfl | rfl | rfl | rfl | rfl | rfl | rfl | rfl | rfl <;>
      exact absurd needed (by decide)

theorem write_config (config : Config) :
    config.toValue.write 0 =
      enclose '\x7b' '\x7d' 0 (config.members.map Member.line) := by
  rw [toValue, write_object]
  obtain ⟨_, _, _, _, _, _, _, _, _ | directory⟩ := config <;> rfl

theorem decodes_config (config : Config) :
    shape.reader.Decodes (config.toValue.write 0) (some config) := by
  have decodes := Shape.decodes_object (accepts_config config) 0
  have result : Member.applyAll config.members shape.blank = some config := by
    obtain ⟨_, _, _, _, _, _, _, _, _ | directory⟩ := config <;> rfl
  rwa [write_config, ← result]

/-- What was written is read back: a catalog if and only if the lines and columns in it fit
into words, and every configuration. -/
theorem documents_read_back (entries : List Entry) (config : Config) :
    (Catalog.ofDocument? (Catalog.toDocument entries) = .ok entries ↔
        ∀ entry ∈ entries, ∀ location ∈ entry.location,
          location.line < 2 ^ 64 ∧ location.column < 2 ^ 64) ∧
      Config.ofDocument? config.toDocument = .ok config := by
  constructor
  · rw [← toOption_eq_some_iff, toOption_ofDocument?_toDocument, mapM_fits_eq_some_iff]
    have word (n : Nat) : n ≤ largestNatural ↔ n < 2 ^ 64 := Nat.le_sub_one_iff_lt (by decide)
    simp only [Entry.Fits, Location.Fits, word]
  · have document : config.toDocument = String.ofList (config.toValue.write 0 ++ []) := by
      rw [toDocument, Value.toDocument, List.append_nil]
    rw [← toOption_eq_some_iff, document]
    exact (decodes_config config).ofDocument? (fun c first => absurd first (by simp)) rfl

end Config

end MessageCatalog
