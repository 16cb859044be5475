import MessageCatalog.Json.Number
import MessageCatalog.Json.Text

/-!
# Reading documents

A document is read straight into the type that is wanted; there is no tree in between. A
reader takes the text that is left and gives a value with the text after it. A record
may be written as an object with its fields in any order, or as a list of its fields in
their order. Unknown fields are skipped without being understood.
-/

namespace MessageCatalog

namespace Json

/-- A reader of values of one type. What it does with a text says nothing about what comes
before the text, so readers can be put together. -/
structure Reader (α : Type) where
  /-- Read one value, which may follow blanks. -/
  read : List Char → Except Fault (α × List Char)

def isSpace (c : Char) : Bool :=
  c = ' ' || c = '\n' || c = '\t' || c = '\r'

def skipSpace (s : List Char) : List Char :=
  s.dropWhile isSpace

/-- Read the given letters. A text that ends too early is unfinished; a wrong letter is reported
behind that letter. -/
def readWord : List Char → List Char → Except Fault (List Char)
  | [], s => .ok s
  | _ :: _, [] => Fault.here (.unfinished .value) []
  | c :: word, d :: s => if c = d then readWord word s else Fault.next .wordExpected (d :: s)

/-! ### Values of the wrong type -/

/-- Read a value only to report that it is not what was wanted. Lists and objects are
not looked into. -/
def mismatch {α : Type} (wanted : String) (s : List Char) : Except Fault α :=
  let wrong (found : Found) (s : List Char) : Except Fault α :=
    Fault.here (.mismatch found wanted) s
  match s with
  | 'n' :: s => do wrong .null (← readWord "ull".toList s)
  | 't' :: s => do wrong (.boolean true) (← readWord "rue".toList s)
  | 'f' :: s => do wrong (.boolean false) (← readWord "alse".toList s)
  | '"' :: s => do
    let (text, s) ← readString s
    wrong (.text text) s
  | '[' :: _ => wrong .list s
  | '\x7b' :: _ => wrong .object s
  | '-' :: s => do
    let (found, s) ← readUnsigned true s
    wrong found s
  | s =>
    if startsWithDigit s then do
      let (found, s) ← readUnsigned false s
      wrong found s
    else Fault.next .valueExpected s

/-- Go on with a value after blanks. -/
def atValue {α : Type} (read : List Char → Except Fault (α × List Char)) (s : List Char) :
    Except Fault (α × List Char) :=
  match skipSpace s with
  | [] => Fault.here (.unfinished .value) []
  | s => read s

/-! ### Plain values -/

def text : Reader String where
  read := atValue fun
    | '"' :: s => readString s
    | s => mismatch "a string" s

def boolean : Reader Bool where
  read := atValue fun
    | 't' :: s => do return (true, ← readWord "rue".toList s)
    | 'f' :: s => do return (false, ← readWord "alse".toList s)
    | s => mismatch "a boolean" s

def naturalName : String := "usize"

/-- Accept a number if it is natural. A negative integer is out of range, whereas a number with
a point is a value of the wrong type. -/
def asNatural : Found × List Char → Except Fault (Nat × List Char)
  | (.integer (.ofNat n), s) => .ok (n, s)
  | (.integer n, s) => Fault.here (.outOfRange (.integer n) naturalName) s
  | (found, s) => Fault.here (.mismatch found naturalName) s

def natural : Reader Nat where
  read := atValue fun
    | '-' :: s => do asNatural (← readUnsigned true s)
    | s =>
      if startsWithDigit s then do asNatural (← readUnsigned false s)
      else mismatch naturalName s

/-- Values that may be missing: the word for nothing is read as such, and everything else is
left to the reader of the value. -/
def optional {α : Type} (r : Reader α) : Reader (Option α) where
  read s :=
    match skipSpace s with
    | 'n' :: s => do return (none, ← readWord "ull".toList s)
    | s => do
      let (value, s) ← r.read s
      return (some value, s)

/-! ### Lists -/

/-- What stands before the next item of a list: the text of the item, or nothing if the
list ends. -/
def nextItem (first : Bool) (s : List Char) : Except Fault (Option (List Char)) :=
  match skipSpace s with
  | [] => Fault.here (.unfinished .list) []
  | ']' :: _ => .ok none
  | c :: s =>
    if first then .ok (some (c :: s))
    else if c = ',' then
      match skipSpace s with
      | [] => Fault.here (.unfinished .value) []
      | ']' :: s => Fault.next .trailingComma (']' :: s)
      | s => .ok (some s)
    else Fault.next .listEndExpected (c :: s)

def endList (s : List Char) : Except Fault (List Char) :=
  match skipSpace s with
  | [] => Fault.here (.unfinished .list) []
  | ']' :: s => .ok s
  | ',' :: s =>
    match skipSpace s with
    | ']' :: s => Fault.next .trailingComma (']' :: s)
    | s => Fault.next .trailingCharacters s
  | s => Fault.next .trailingCharacters s

/-- Read a limited number of items. Each item takes a character, so the length of the text is
limit enough. -/
def readItems {α : Type} (r : Reader α) :
    Nat → Bool → List Char → Except Fault (List α × List Char)
  | 0, _, s => Fault.here (.unfinished .list) s
  | n + 1, first, s => do
    match ← nextItem first s with
    | none => return ([], s)
    | some s =>
      let (item, s) ← r.read s
      let (items, s) ← readItems r n false s
      return (item :: items, s)

def list {α : Type} (r : Reader α) : Reader (List α) where
  read := atValue fun
    | '[' :: s => do
      let (items, s) ← readItems r (s.length + 1) true s
      return (items, ← endList s)
    | s => mismatch "a sequence" s

/-! ### Values that are skipped -/

def readColon (s : List Char) : Except Fault (List Char) :=
  match skipSpace s with
  | [] => Fault.here (.unfinished .object) []
  | ':' :: s => .ok s
  | s => Fault.next .colonExpected s

mutual

/-- Skip a value of limited depth. It has to be well formed as far as its parts go, but strings
in it need not pair their surrogates. -/
def skipValue : Nat → List Char → Except Fault (List Char)
  | 0, s => Fault.here (.unfinished .value) s
  | n + 1, s =>
    match skipSpace s with
    | [] => Fault.here (.unfinished .value) []
    | 'n' :: s => readWord "ull".toList s
    | 't' :: s => readWord "rue".toList s
    | 'f' :: s => readWord "alse".toList s
    | '"' :: s => skipString s
    | '-' :: s => skipUnsigned s
    | '[' :: s =>
      match skipSpace s with
      | [] => Fault.here (.unfinished .list) []
      | ']' :: s => .ok s
      | s => skipItems n s
    | '\x7b' :: s =>
      match skipSpace s with
      | [] => Fault.here (.unfinished .object) []
      | '\x7d' :: s => .ok s
      | s => skipMembers n s
    | s => if startsWithDigit s then skipUnsigned s else Fault.next .valueExpected s

def skipItems : Nat → List Char → Except Fault (List Char)
  | 0, s => Fault.here (.unfinished .list) s
  | n + 1, s => do
    match skipSpace (← skipValue n s) with
    | [] => Fault.here (.unfinished .list) []
    | ']' :: s => .ok s
    | ',' :: s => skipItems n s
    | s => Fault.next .listEndExpected s

def skipMembers : Nat → List Char → Except Fault (List Char)
  | 0, s => Fault.here (.unfinished .object) s
  | n + 1, s => do
    let s ← match skipSpace s with
      | [] => Fault.here (.unfinished .object) []
      | '"' :: s => skipString s
      | s => Fault.next .keyExpected s
    match skipSpace (← skipValue n (← readColon s)) with
    | [] => Fault.here (.unfinished .object) []
    | '\x7d' :: s => .ok s
    | ',' :: s => skipMembers n s
    | s => Fault.next .objectEndExpected s

end

/-! ### Records -/

/-- A field of a record: its name, whether it has to be there, and how its value is read
into the record. -/
structure Field (σ : Type) where
  name : String
  required : Bool
  read : σ → List Char → Except Fault (σ × List Char)

/-- The form of a record: its name in faults, the record before any field is read, and
the fields in their order. -/
structure Shape (σ : Type) where
  name : String
  blank : σ
  fields : List (Field σ)

namespace Shape

variable {σ : Type} (shape : Shape σ)

def lengthName : String :=
  shape.name ++ " with " ++ toString shape.fields.length ++ " elements"

def afterBracket (bracket : Char) (s : List Char) : List Char :=
  match skipSpace s with
  | c :: s => if c = bracket then s else c :: s
  | [] => []

/-- Read fields in their order. Optional fields may be left out at the end. -/
def readPositions (wanted : String) :
    List (Field σ) → Nat → σ → List Char → Except Fault (σ × List Char)
  | [], _, record, s => .ok (record, s)
  | field :: fields, position, record, s => do
    match ← nextItem (position = 0) s with
    | some s =>
      let (record, s) ← field.read record s
      readPositions wanted fields (position + 1) record s
    | none =>
      match (field :: fields).findIdx? (·.required) with
      | none => return (record, s)
      | some i => Fault.here (.wrongLength (position + i) wanted) (afterBracket ']' s)

/-- What stands before the next key of an object: the text after its first quotation
mark, or nothing if the object ends. -/
def nextKey (first : Bool) (s : List Char) : Except Fault (Option (List Char)) :=
  match skipSpace s with
  | [] => Fault.here (.unfinished .object) []
  | '\x7d' :: _ => .ok none
  | c :: s =>
    if first then
      if c = '"' then .ok (some s) else Fault.next .keyExpected (c :: s)
    else if c = ',' then
      match skipSpace s with
      | [] => Fault.here (.unfinished .value) []
      | '"' :: s => .ok (some s)
      | '\x7d' :: s => Fault.next .trailingComma ('\x7d' :: s)
      | s => Fault.next .keyExpected s
    else Fault.next .objectEndExpected (c :: s)

/-- Read a limited number of members; `seen` are the names of the fields so far. At the end the
first required field that was not seen is missing. -/
def readMembers :
    Nat → List String → Bool → σ → List Char → Except Fault (σ × List Char)
  | 0, _, _, _, s => Fault.here (.unfinished .object) s
  | n + 1, seen, first, record, s => do
    match ← nextKey first s with
    | none =>
      match shape.fields.find? fun field => field.required && !seen.contains field.name with
      | none => return (record, s)
      | some field => Fault.here (.missingField field.name) (afterBracket '\x7d' s)
    | some s =>
      let (key, s) ← readString s
      match shape.fields.find? (·.name == key) with
      | none =>
        let s ← readColon s
        let s ← skipValue (s.length + 1) s
        readMembers n seen false record s
      | some field =>
        if seen.contains key then
          Fault.here (.repeatedField key) (afterBracket '\x7d' s)
        else
          let (record, s) ← field.read record (← readColon s)
          readMembers n (key :: seen) false record s

def endObject (s : List Char) : Except Fault (List Char) :=
  match skipSpace s with
  | [] => Fault.here (.unfinished .object) []
  | '\x7d' :: s => .ok s
  | ',' :: s => Fault.next .trailingComma (',' :: s)
  | s => Fault.next .trailingCharacters s

def reader : Reader σ where
  read := atValue fun
    | '[' :: s => do
      let (record, s) ← readPositions shape.lengthName shape.fields 0 shape.blank s
      return (record, ← endList s)
    | '\x7b' :: s => do
      let (record, s) ← shape.readMembers (s.length + 1) [] true shape.blank s
      return (record, ← endObject s)
    | s => mismatch shape.name s

end Shape

def Field.of {σ α : Type} (name : String) (required : Bool) (r : Reader α)
    (store : σ → α → σ) : Field σ where
  name := name
  required := required
  read record s := do
    let (value, s) ← r.read s
    return (store record value, s)

/-! ### Whole documents -/

def Reader.readDocument {α : Type} (r : Reader α) (document : List Char) :
    Except Fault α := do
  let (value, s) ← r.read document
  match skipSpace s with
  | [] => return value
  | s => Fault.next .trailingCharacters s

def Reader.ofDocument? {α : Type} (r : Reader α) (document : String) : Except String α :=
  match r.readDocument document.toList with
  | .ok value => .ok value
  | .error fault => .error (fault.display document.toList)

end Json

end MessageCatalog
