import MessageCatalog.Proofs.Json.Token

/-!
# Lists and records that were written

A list is read back item by item, and a record member by member: what a reader makes of the
whole follows from what it makes of each part. If one part is refused, so is the whole.

The members of a record may come in any order. Each has to belong to a field, no two to the
same one, and no field that has to be there may be missing; what the record becomes is then
told by the members, one after the other.
-/

namespace MessageCatalog

namespace Json

/-! ### Layout -/

/-- The lines behind the first one. -/
def followUp (depth : Nat) (lines : List (List Char)) : List Char :=
  lines.flatMap fun line => ',' :: newLine depth ++ line

section Layout

variable {s t rest line : List Char} {depth : Nat} {c : Char}

theorem skipSpace_cons (blank : isSpace c = true) : skipSpace (c :: s) = skipSpace s := by
  rw [skipSpace, List.dropWhile_cons_of_pos blank, skipSpace]

@[simp] theorem skipSpace_newLine (depth : Nat) (s : List Char) :
    skipSpace (newLine depth ++ s) = skipSpace s := by
  rw [newLine, List.cons_append, skipSpace_cons rfl, skipSpace, skipSpace,
    List.dropWhile_append_of_pos]
  intro c here
  rw [(List.mem_replicate.mp here).2]
  rfl

theorem ends_newLine (depth : Nat) (s : List Char) : Ends (newLine depth ++ s) := by
  intro c first
  rw [newLine, List.cons_append, List.head?_cons, Option.mem_some] at first
  exact .inr first.symm

/-- Behind an item there is another one or the end of the list. -/
theorem ends_followUp (depth inner : Nat) (lines : List (List Char)) (s : List Char) :
    Ends (followUp inner lines ++ (newLine depth ++ s)) := by
  cases lines with
  | nil => exact ends_newLine depth s
  | cons line lines =>
      intro c first
      rw [followUp, List.flatMap_cons, List.cons_append, List.cons_append, List.cons_append,
        List.head?_cons, Option.mem_some] at first
      exact .inl first.symm

theorem followUp_cons (lines : List (List Char)) :
    followUp depth (line :: lines) ++ s =
      ',' :: (newLine depth ++ (line ++ (followUp depth lines ++ s))) := by
  simp [followUp]

theorem enclose_cons (opening closing : Char) (depth : Nat) (line : List Char)
    (lines : List (List Char)) (rest : List Char) :
    enclose opening closing depth (line :: lines) ++ rest =
      opening :: (newLine (depth + 1) ++ (line ++
        (followUp (depth + 1) lines ++ (newLine depth ++ closing :: rest)))) := by
  simp [enclose, followUp]

theorem length_le_followUp (depth : Nat) (lines : List (List Char)) :
    lines.length ≤ (followUp depth lines).length := by
  induction lines with
  | nil => exact Nat.le_refl 0
  | cons line lines ih =>
      rw [← List.append_nil (followUp depth (line :: lines)), followUp_cons]
      simp only [List.length_cons, List.length_append, List.length_nil]
      omega

theorem opens_enclose {opening closing : Char} (visible : isSpace opening = false)
    (bracket : opening ≠ ']' ∧ opening ≠ 'n') (lines : List (List Char)) :
    Opens (enclose opening closing depth lines) := by
  cases lines with
  | nil => exact ⟨opening, _, rfl, visible, bracket⟩
  | cons line lines =>
      have whole := enclose_cons opening closing depth line lines []
      rw [List.append_nil] at whole
      exact ⟨opening, _, whole, visible, bracket⟩

end Layout

/-! ### Plain values -/

section Plain

variable {α : Type} {r : Reader α} {written : List Char} {result : Option α}

theorem decodes_boolean (b : Bool) (depth : Nat) :
    boolean.Decodes (Value.write depth (.boolean b)) (some b) where
  opens := by
    rw [Value.write]
    cases b
    · exact ⟨'f', _, rfl, rfl, by decide, by decide⟩
    · exact ⟨'t', _, rfl, rfl, by decide, by decide⟩
  reads found _ := by
    rw [Value.write] at found
    change (atValue _ _).toOption = _
    cases b
    · rw [atValue_eq found]
      rfl
    · rw [atValue_eq found]
      rfl

/-- A value that is there is read as such. -/
theorem Reader.Decodes.optional (decodes : r.Decodes written result) :
    (Json.optional r).Decodes written (result.map some) where
  opens := decodes.opens
  reads {s rest} found ends := by
    obtain ⟨c, tail, rfl, visible, -, present⟩ := decodes.opens
    have again : skipSpace (c :: (tail ++ rest)) = c :: tail ++ rest :=
      skipSpace_of_not_isSpace visible
    have read := decodes.reads again ends
    rw [Json.optional]
    dsimp only
    rw [found, List.cons_append]
    split
    · rename_i whole
      exact absurd (List.cons_eq_cons.mp whole).1 present
    · rw [toOption_bind, read]
      cases result <;> rfl

end Plain

/-! ### Lists -/

section Lists

variable {α β : Type} {r : Reader α} {write : β → List Char} {outcome : β → Option α}
  {items : List β} {s rest line : List Char} {depth n : Nat}

theorem nextItem_first (opens : Opens line) (found : skipSpace s = line ++ rest) :
    nextItem true s = .ok (some (line ++ rest)) := by
  obtain ⟨c, tail, rfl, -, other, -⟩ := opens
  rw [nextItem, found, List.cons_append]
  split
  · rename_i whole
    exact absurd whole (by simp)
  · rename_i whole
    exact absurd (List.cons_eq_cons.mp whole).1 other
  · rename_i whole
    obtain ⟨rfl, rfl⟩ := List.cons_eq_cons.mp whole
    rfl

theorem nextItem_next (opens : Opens line) :
    nextItem false (',' :: (newLine depth ++ (line ++ rest))) = .ok (some (line ++ rest)) := by
  have found := opens.skipSpace_eq rest
  obtain ⟨c, tail, rfl, -, other, -⟩ := opens
  rw [nextItem, skipSpace_of_not_isSpace rfl]
  split
  · rename_i whole
    exact absurd whole (by simp)
  · rename_i whole
    exact absurd (List.cons_eq_cons.mp whole).1 (by decide)
  · rename_i whole
    obtain ⟨rfl, rfl⟩ := List.cons_eq_cons.mp whole
    rw [if_neg (by decide), if_pos rfl, skipSpace_newLine, found, List.cons_append]
    split
    · rename_i whole
      exact absurd whole (by simp)
    · rename_i whole
      exact absurd (List.cons_eq_cons.mp whole).1 other
    · rfl

theorem nextItem_end (first : Bool) :
    nextItem first (newLine depth ++ ']' :: rest) = .ok none := by
  rw [nextItem, skipSpace_newLine, skipSpace_of_not_isSpace rfl]
  rfl

/-- The items behind the first one are read one after the other. -/
theorem readItems_followUp (each : ∀ item ∈ items, r.Decodes (write item) (outcome item))
    (long : items.length < n) (depth : Nat) (rest : List Char) :
    (readItems r n false (followUp (depth + 1) (items.map write) ++
        (newLine depth ++ ']' :: rest))).toOption =
      (items.mapM outcome).map (·, newLine depth ++ ']' :: rest) := by
  induction items generalizing n with
  | nil =>
      cases n with
      | zero => exact absurd long (by simp)
      | succ n =>
          rw [List.map_nil, followUp, List.flatMap_nil, List.nil_append, readItems, nextItem_end]
          rfl
  | cons item items ih =>
      rw [List.forall_mem_cons] at each
      cases n with
      | zero => exact absurd long (by simp)
      | succ n =>
          have later := ih each.2 (Nat.lt_of_succ_lt_succ long)
          have read := each.1.reads (each.1.opens.skipSpace_eq _)
            (ends_followUp depth (depth + 1) (items.map write) (']' :: rest))
          rw [List.map_cons, followUp_cons, readItems, nextItem_next each.1.opens]
          rw [toOption_bind, toOption_ok, Option.bind_some]
          dsimp only
          rw [toOption_bind, read, List.mapM_cons]
          cases outcome item with
          | none => rfl
          | some a =>
              simp only [Option.map_some, Option.bind_some, toOption_bind, later]
              cases items.mapM outcome <;> rfl

/-- A written list is read back if each item is. -/
theorem decodes_list (each : ∀ item ∈ items, r.Decodes (write item) (outcome item)) :
    (list r).Decodes (enclose '[' ']' depth (items.map write)) (items.mapM outcome) where
  opens := opens_enclose rfl ⟨by decide, by decide⟩ _
  reads {s rest} found ends := by
    change (atValue _ _).toOption = _
    have last : endList (newLine depth ++ ']' :: rest) = .ok rest := by
      rw [endList, skipSpace_newLine, skipSpace_of_not_isSpace rfl]
      rfl
    cases items with
    | nil =>
        rw [atValue_eq found]
        rfl
    | cons item items =>
        rw [List.forall_mem_cons] at each
        rw [List.map_cons, enclose_cons] at found
        rw [atValue_eq found]
        dsimp only
        have long := length_le_followUp (depth + 1) (items.map write)
        rw [List.length_map] at long
        have read := each.1.reads (each.1.opens.skipSpace_eq _)
          (ends_followUp depth (depth + 1) (items.map write) (']' :: rest))
        have first := nextItem_first each.1.opens
          ((skipSpace_newLine (depth + 1) _).trans (each.1.opens.skipSpace_eq
            (followUp (depth + 1) (items.map write) ++ (newLine depth ++ ']' :: rest))))
        have later {n : Nat} (behind : items.length < n) :=
          readItems_followUp each.2 behind depth rest
        simp only [readItems, first, toOption_bind, toOption_ok, Option.bind_some, read,
          List.mapM_cons]
        cases outcome item with
        | none => rfl
        | some a =>
            simp only [Option.map_some, Option.bind_some]
            rw [later (by
              simp only [List.length_append, List.length_cons]
              omega)]
            cases items.mapM outcome with
            | none => rfl
            | some as => simp [last]

end Lists

/-! ### Records -/

/-- A written member of an object: its name, its value, and what a record becomes when the
member is read. -/
structure Member (σ : Type) where
  name : String
  written : List Char
  effect : σ → Option σ

/-- A member whose value is stored in the record. -/
def Member.of {σ α : Type} (name : String) (written : List Char) (result : Option α)
    (store : σ → α → σ) : Member σ :=
  ⟨name, written, fun record => result.map (store record)⟩

/-- The line of a member. -/
def Member.line {σ : Type} (member : Member σ) : List Char :=
  quote member.name ++ ':' :: ' ' :: member.written

/-- Read members into a record, one after the other. -/
def Member.applyAll {σ : Type} (members : List (Member σ)) (record : σ) : Option σ :=
  members.foldlM (fun record member => member.effect record) record

/-- A field of the record has the name of the member and reads its value. -/
structure Shape.Has {σ : Type} (shape : Shape σ) (member : Member σ) : Prop where
  opens : Opens member.written
  known : ∃ field, shape.fields.find? (·.name == member.name) = some field ∧
    ∀ {record s rest}, skipSpace s = member.written ++ rest → Ends rest →
      (field.read record s).toOption = (member.effect record).map (·, rest)

/-- A written object has members for different fields, and for all that have to be there. -/
structure Shape.Accepts {σ : Type} (shape : Shape σ) (members : List (Member σ)) : Prop where
  known : ∀ member ∈ members, shape.Has member
  distinct : (members.map Member.name).Nodup
  complete : ∀ field ∈ shape.fields, field.required = true →
    field.name ∈ members.map Member.name

section Records

variable {σ α : Type} {shape : Shape σ} {member : Member σ} {members : List (Member σ)}
  {s rest : List Char} {depth n : Nat} {record : σ} {seen : List String}

/-- A member that is read by a reader and stored by a function. -/
theorem Shape.has_of_decodes {r : Reader α} {name : String} {required : Bool}
    {store : σ → α → σ} {written : List Char} {result : Option α}
    (found : shape.fields.find? (·.name == name) = some (.of name required r store))
    (decodes : r.Decodes written result) :
    shape.Has (.of name written result store) where
  opens := decodes.opens
  known := by
    refine ⟨_, found, fun {record s rest} here ends => ?_⟩
    have read := decodes.reads here ends
    change (r.read s >>= fun read => pure (store record read.1, read.2)).toOption = _
    rw [toOption_bind, read]
    cases result <;> rfl

theorem Member.line_append (member : Member σ) (s : List Char) :
    member.line ++ s = '"' :: (member.name.toList.flatMap escape ++
      '"' :: ':' :: ' ' :: (member.written ++ s)) := by
  rw [Member.line, List.append_assoc, quote_append]
  rfl

theorem nextKey_first (found : skipSpace s = '"' :: rest) :
    Shape.nextKey true s = .ok (some rest) := by
  rw [Shape.nextKey, found]
  rfl

theorem nextKey_next :
    Shape.nextKey false (',' :: (newLine depth ++ '"' :: rest)) = .ok (some rest) := by
  rw [Shape.nextKey, skipSpace_of_not_isSpace rfl]
  change (if false then _ else if ',' = ',' then _ else _) = _
  rw [if_neg (by decide), if_pos rfl, skipSpace_newLine, skipSpace_of_not_isSpace rfl]
  rfl

theorem nextKey_end (first : Bool) :
    Shape.nextKey first (newLine depth ++ '\x7d' :: rest) = .ok none := by
  rw [Shape.nextKey, skipSpace_newLine, skipSpace_of_not_isSpace rfl]
  rfl

/-- An object ends where all fields that have to be there have been seen. -/
theorem readMembers_end {first : Bool} (next : Shape.nextKey first s = .ok none)
    (complete : ∀ field ∈ shape.fields, field.required = true → field.name ∈ seen) :
    shape.readMembers (n + 1) seen first record s = .ok (record, s) := by
  have nothing : (shape.fields.find? fun field =>
      field.required && !seen.contains field.name) = none := by
    rw [List.find?_eq_none]
    intro field here
    cases needed : field.required with
    | false => simp
    | true => simp [complete field here needed]
  rw [Shape.readMembers, next]
  simp only [nothing]
  rfl

/-- A member that is next is read into the record, and then those behind it. -/
theorem readMembers_step {first : Bool} (has : shape.Has member) (fresh : member.name ∉ seen)
    (next : Shape.nextKey first s = .ok (some (member.name.toList.flatMap escape ++
      '"' :: ':' :: ' ' :: (member.written ++ rest)))) (ends : Ends rest) :
    (shape.readMembers (n + 1) seen first record s).toOption =
      (member.effect record).bind fun record =>
        (shape.readMembers n (member.name :: seen) false record rest).toOption := by
  obtain ⟨field, found, reads⟩ := has.known
  have blank : skipSpace (' ' :: (member.written ++ rest)) = member.written ++ rest := by
    rw [skipSpace_cons rfl, has.opens.skipSpace_eq rest]
  have colon (written : List Char) : readColon (':' :: written) = .ok written := rfl
  rw [Shape.readMembers, next]
  simp only [toOption_bind, toOption_ok, Option.bind_some, readString_quoted, found,
    List.contains_eq_mem, fresh, decide_false, Bool.false_eq_true, if_false, colon,
    reads blank ends]
  cases member.effect record <;> rfl

/-- The members behind the first one are read one after the other. -/
theorem readMembers_followUp (known : ∀ member ∈ members, shape.Has member)
    (distinct : (members.map Member.name).Nodup)
    (fresh : ∀ member ∈ members, member.name ∉ seen)
    (complete : ∀ field ∈ shape.fields, field.required = true →
      field.name ∈ seen ∨ field.name ∈ members.map Member.name)
    (long : members.length < n) (record : σ) (depth : Nat) (rest : List Char) :
    (shape.readMembers n seen false record (followUp (depth + 1) (members.map Member.line) ++
        (newLine depth ++ '\x7d' :: rest))).toOption =
      (Member.applyAll members record).map (·, newLine depth ++ '\x7d' :: rest) := by
  induction members generalizing n seen record with
  | nil =>
      cases n with
      | zero => exact absurd long (by simp)
      | succ n =>
          rw [List.map_nil, followUp, List.flatMap_nil, List.nil_append,
            readMembers_end (nextKey_end false) fun field here needed =>
              (complete field here needed).resolve_right List.not_mem_nil]
          rfl
  | cons member members ih =>
      rw [List.forall_mem_cons] at known fresh
      rw [List.map_cons, List.nodup_cons] at distinct
      cases n with
      | zero => exact absurd long (by simp)
      | succ n =>
          rw [List.map_cons, followUp_cons, member.line_append,
            readMembers_step known.1 fresh.1 nextKey_next
              (ends_followUp depth (depth + 1) (members.map Member.line) _), Member.applyAll,
            List.foldlM_cons]
          cases member.effect record with
          | none => rfl
          | some record =>
              refine ih known.2 distinct.2 ?_ ?_ (Nat.lt_of_succ_lt_succ long) record
              · intro other here
                rw [List.mem_cons, not_or]
                refine ⟨fun same => distinct.1 ?_, fresh.2 other here⟩
                exact same ▸ List.mem_map_of_mem here
              · intro field here needed
                rw [List.mem_cons, or_assoc, or_left_comm, ← List.mem_cons]
                exact complete field here needed

theorem Shape.read_object (found : skipSpace s = '\x7b' :: rest) :
    shape.reader.read s = shape.readMembers (rest.length + 1) [] true shape.blank rest >>=
      fun read => endObject read.2 >>= fun s => pure (read.1, s) := by
  change atValue _ _ = _
  rw [atValue_eq found]
  rfl

/-- A written object is read back member by member. -/
theorem Shape.decodes_object (accepts : shape.Accepts members) (depth : Nat) :
    shape.reader.Decodes (enclose '\x7b' '\x7d' depth (members.map Member.line))
      (Member.applyAll members shape.blank) where
  opens := opens_enclose rfl ⟨by decide, by decide⟩ _
  reads {s rest} found ends := by
    cases members with
    | nil =>
        have found : skipSpace s = '\x7b' :: '\x7d' :: rest := found
        have next : Shape.nextKey true ('\x7d' :: rest) = .ok none := rfl
        have complete : ∀ field ∈ shape.fields, field.required = true →
            field.name ∈ ([] : List String) := accepts.complete
        rw [Shape.read_object found, readMembers_end next complete]
        rfl
    | cons member members =>
        obtain ⟨own, others⟩ := List.forall_mem_cons.mp accepts.known
        obtain ⟨apart, distinct⟩ := List.nodup_cons.mp accepts.distinct
        have long := length_le_followUp (depth + 1) (members.map Member.line)
        rw [List.length_map] at long
        have fresh : ∀ other ∈ members, other.name ∉ [member.name] := by
          intro other here same
          exact apart (List.mem_singleton.mp same ▸ List.mem_map_of_mem here)
        have complete : ∀ field ∈ shape.fields, field.required = true →
            field.name ∈ [member.name] ∨ field.name ∈ members.map Member.name := by
          intro field here needed
          simpa using accepts.complete field here needed
        have later (record : σ) {n : Nat} (behind : members.length < n) :=
          readMembers_followUp others distinct fresh complete behind record depth rest
        have last : endObject (newLine depth ++ '\x7d' :: rest) = .ok rest := by
          rw [endObject, skipSpace_newLine, skipSpace_of_not_isSpace rfl]
          rfl
        rw [List.map_cons, enclose_cons, member.line_append] at found
        rw [Shape.read_object found, toOption_bind, readMembers_step own List.not_mem_nil
          (nextKey_first ((skipSpace_newLine _ _).trans (skipSpace_of_not_isSpace rfl)))
          (ends_followUp depth (depth + 1) (members.map Member.line) _), Member.applyAll,
          List.foldlM_cons]
        cases member.effect shape.blank with
        | none => rfl
        | some record =>
            rw [Option.bind_some, later record (by
              simp only [List.length_append, List.length_cons]
              omega)]
            change _ = Option.map _ (Member.applyAll members record)
            cases Member.applyAll members record with
            | none => rfl
            | some record => simp [last]

end Records

/-! ### Values and documents -/

section Documents

variable {α : Type} {r : Reader α} {written rest : List Char} {result : Option α}

theorem writeItems_eq_map (depth : Nat) (items : List Value) :
    Value.writeItems depth items = items.map (Value.write depth) := by
  induction items with
  | nil => rw [Value.writeItems, List.map_nil]
  | cons item items ih => rw [Value.writeItems, ih, List.map_cons]

theorem write_list (depth : Nat) (items : List Value) :
    Value.write depth (.list items) =
      enclose '[' ']' depth (items.map (Value.write (depth + 1))) := by
  rw [Value.write, writeItems_eq_map]

theorem writeMembers_eq_map (depth : Nat) (members : List (String × Value)) :
    Value.writeMembers depth members =
      members.map fun member => quote member.1 ++ ':' :: ' ' :: Value.write depth member.2 := by
  induction members with
  | nil => rw [Value.writeMembers, List.map_nil]
  | cons member members ih => rw [Value.writeMembers, ih, List.map_cons]

theorem write_object (depth : Nat) (members : List (String × Value)) :
    Value.write depth (.object members) = enclose '\x7b' '\x7d' depth
      (members.map fun member =>
        quote member.1 ++ ':' :: ' ' :: Value.write (depth + 1) member.2) := by
  rw [Value.write, writeMembers_eq_map]

/-- A document holds what its value is read as. -/
theorem Reader.Decodes.ofDocument? (decodes : r.Decodes written result) (ends : Ends rest)
    (blank : skipSpace rest = []) :
    (r.ofDocument? (String.ofList (written ++ rest))).toOption = result := by
  have read := decodes.reads (decodes.opens.skipSpace_eq rest) ends
  have whole : (r.readDocument (written ++ rest)).toOption = result := by
    rw [Reader.readDocument, toOption_bind, read]
    cases result with
    | none => rfl
    | some a => simp [blank]
  rw [Reader.ofDocument?, String.toList_ofList, ← whole]
  cases r.readDocument (written ++ rest) <;> rfl

end Documents

end Json

end MessageCatalog
