import MessageCatalog.Catalog.Format
import MessageCatalog.Proofs.Json.Structure

/-!
# Reading catalogs back

The document of a catalog has all that the catalog says: an optional field that is left out
is absent when the document is read. Only lines and columns could be too large to be read,
as they are kept in words of 64 bits.
-/

namespace MessageCatalog

namespace Catalog

open Json

/-- Lines and columns fit into words. -/
def Location.Fits (location : Location) : Prop :=
  location.line ≤ largestNatural ∧ location.column ≤ largestNatural

instance Location.decidableFits (location : Location) : Decidable location.Fits :=
  inferInstanceAs (Decidable (_ ∧ _))

/-- The location of a message fits, if there is one. -/
def Entry.Fits (entry : Entry) : Prop :=
  ∀ location ∈ entry.location, location.Fits

instance Entry.decidableFits (entry : Entry) : Decidable entry.Fits :=
  inferInstanceAs (Decidable (∀ location ∈ entry.location, location.Fits))

/-- The members of a written location. -/
def Location.members (location : Location) : List (Member Location) :=
  [.of "file" (quote location.file) (some location.file) fun location file =>
      { location with file },
    .of "line" (Nat.toDigits 10 location.line)
      (if location.line ≤ largestNatural then some location.line else none)
      fun location line => { location with line },
    .of "column" (Nat.toDigits 10 location.column)
      (if location.column ≤ largestNatural then some location.column else none)
      fun location column => { location with column }]

theorem accepts_location (location : Location) : Location.shape.Accepts location.members where
  known := by
    intro member here
    simp only [Location.members, List.mem_cons, List.not_mem_nil, or_false] at here
    rcases here with rfl | rfl | rfl
    · exact Shape.has_of_decodes rfl (decodes_text _)
    · exact Shape.has_of_decodes rfl (decodes_natural _)
    · exact Shape.has_of_decodes rfl (decodes_natural _)
  distinct := by
    change ["file", "line", "column"].Nodup
    decide
  complete := by
    intro field here _
    change field.name ∈ Location.shape.fields.map Field.name
    exact List.mem_map_of_mem here

/-- A location is read back if it fits. -/
theorem decodes_location (location : Location) (depth : Nat) :
    Location.shape.reader.Decodes (location.toValue.write depth)
      (if location.Fits then some location else none) := by
  have decodes := Shape.decodes_object (accepts_location location) depth
  have written : location.toValue.write depth =
      enclose '\x7b' '\x7d' depth (location.members.map Member.line) := by
    rw [Location.toValue, write_object]
    simp [Value.write, Location.members, Member.of, Member.line]
  have result : Member.applyAll location.members Location.shape.blank =
      if location.Fits then some location else none := by
    by_cases line : location.line ≤ largestNatural <;>
      by_cases column : location.column ≤ largestNatural <;>
      simp [Member.applyAll, Location.members, Member.of, Location.Fits, line, column]
  rwa [written, ← result]

/-- The members of a written message. -/
def Entry.members (entry : Entry) (depth : Nat) : List (Member Entry) :=
  .of "id" (quote entry.id) (some entry.id) (fun entry id => { entry with id }) ::
    (entry.description.map fun text => .of "description" (quote text) (some (some text))
      fun entry description => { entry with description }).toList ++
    .of "defaultMessage" (quote entry.defaultMessage) (some entry.defaultMessage)
      (fun entry defaultMessage => { entry with defaultMessage }) ::
    (entry.comment.map fun text => .of "comment" (quote text) (some (some text))
      fun entry comment => { entry with comment }).toList ++
    (entry.location.map fun location =>
      .of "sourceLocation" (location.toValue.write (depth + 1))
        ((if location.Fits then some location else none).map some)
        fun entry location => { entry with location }).toList

theorem accepts_entry (entry : Entry) (depth : Nat) :
    Entry.shape.Accepts (entry.members depth) where
  known := by
    intro member here
    simp only [Entry.members, List.cons_append, List.mem_cons, List.mem_append,
      Option.mem_toList, Option.map_eq_some_iff] at here
    rcases here with rfl | ((⟨text, -, rfl⟩ | rfl | ⟨text, -, rfl⟩) | ⟨location, -, rfl⟩)
    · exact Shape.has_of_decodes rfl (decodes_text _)
    · exact Shape.has_of_decodes rfl (decodes_text text).optional
    · exact Shape.has_of_decodes rfl (decodes_text _)
    · exact Shape.has_of_decodes rfl (decodes_text text).optional
    · exact Shape.has_of_decodes rfl (decodes_location location _).optional
  distinct := by
    obtain ⟨id, _ | description, defaultMessage, _ | comment, _ | location⟩ := entry <;>
      simp [Entry.members, Member.of]
  complete := by
    intro field here needed
    simp only [Entry.shape, List.mem_cons, List.not_mem_nil, or_false] at here
    rcases here with rfl | rfl | rfl | rfl | rfl
    · simp [Entry.members, Member.of, Field.of]
    · exact absurd needed (by decide)
    · simp [Entry.members, Member.of, Field.of]
    · exact absurd needed (by decide)
    · exact absurd needed (by decide)

theorem line_members (entry : Entry) (depth : Nat) :
    entry.toValue.write depth =
      enclose '\x7b' '\x7d' depth ((entry.members depth).map Member.line) := by
  obtain ⟨id, _ | description, defaultMessage, _ | comment, _ | location⟩ := entry <;>
    simp [Entry.toValue, write_object, textMember, Entry.members, Member.of, Member.line,
      Value.write]

/-- A message is read back if its location fits. -/
theorem decodes_entry (entry : Entry) (depth : Nat) :
    Entry.shape.reader.Decodes (entry.toValue.write depth)
      (if entry.Fits then some entry else none) := by
  have decodes := Shape.decodes_object (accepts_entry entry depth) depth
  have result : Member.applyAll (entry.members depth) Entry.shape.blank =
      if entry.Fits then some entry else none := by
    obtain ⟨id, _ | description, defaultMessage, _ | comment, _ | location⟩ := entry <;>
      simp [Member.applyAll, Entry.members, Member.of, Entry.shape, Entry.Fits]
  rwa [line_members, ← result]

/-- The document of a catalog is read message by message. -/
theorem toOption_ofDocument?_toDocument (entries : List Entry) :
    (ofDocument? (toDocument entries)).toOption =
      entries.mapM fun entry => if entry.Fits then some entry else none := by
  have decodes : reader.Decodes ((toValue entries).write 0)
      (entries.mapM fun entry => if entry.Fits then some entry else none) := by
    rw [toValue, write_list, List.map_map]
    exact decodes_list fun entry _ => decodes_entry entry 1
  have ends : Ends ['\n'] := by
    intro c first
    exact .inr (Option.mem_some.mp first).symm
  have document : toDocument entries = String.ofList ((toValue entries).write 0 ++ ['\n']) := by
    rw [toDocument, Value.toDocument, String.ofList_append]
  rw [document]
  exact decodes.ofDocument? ends rfl

theorem mapM_fits_eq_some_iff (entries : List Entry) :
    (entries.mapM fun entry => if entry.Fits then some entry else none) = some entries ↔
      ∀ entry ∈ entries, entry.Fits := by
  induction entries with
  | nil => simp
  | cons entry entries ih =>
      rw [List.forall_mem_cons, ← ih, List.mapM_cons]
      by_cases fits : entry.Fits
      · cases entries.mapM fun entry => if entry.Fits then some entry else none <;> simp [fits]
      · simp [fits]

end Catalog

end MessageCatalog
