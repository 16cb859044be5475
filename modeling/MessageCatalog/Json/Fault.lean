import MessageCatalog.Number.Decimal
import MessageCatalog.Text.ByteLength
import MessageCatalog.Text.Quoted

/-!
# Faults of documents

A document is read from left to right into a record of known shape, and the first fault
ends the reading. A fault keeps what has not been read; together with the whole document
this gives the place. Places are counted in bytes here, and some faults are reported at
the end of the byte that is in the way rather than in front of it.
-/

namespace MessageCatalog

namespace Json

/-- A value that was found where another was wanted. Of lists and objects only their kind is
told, since they are not looked into. -/
inductive Found where
  | null
  | boolean (value : Bool)
  | integer (value : Int)
  | float (value : Binary64)
  | text (value : String)
  | list
  | object
  deriving DecidableEq, Repr

/-- Write a number so that it cannot be taken for an integer. Far from one it is in
scientific form. -/
def writeFloat : Binary64 → String
  | .nan => "NaN"
  | .infinite negative => if negative then "-inf" else "inf"
  | .finite negative units =>
    let sign := if negative then ['-'] else []
    if units = 0 then String.ofList (sign ++ ['0', '.', '0'])
    else
      let s := Decimal.shortest units
      let body :=
        if -5 < s.exponent && s.exponent ≤ 16 then
          let written := s.positional
          if written.contains '.' then written else written ++ ['.', '0']
        else
          let exponent := 'e' :: (toString (s.exponent - 1)).toList
          match s.digits with
          | [] => exponent
          | [d] => d :: exponent
          | d :: digits => d :: '.' :: digits ++ exponent
      String.ofList (sign ++ body)

def Found.phrase : Found → String
  | .null => "null"
  | .boolean value => "boolean `" ++ (if value then "true" else "false") ++ "`"
  | .integer value => "integer `" ++ toString value ++ "`"
  | .float value => "floating point `" ++ writeFloat value ++ "`"
  | .text value => "string " ++ Text.quoted value
  | .list => "sequence"
  | .object => "map"

inductive Part where
  | value
  | list
  | object
  | string
  deriving DecidableEq, Repr

inductive Problem where
  /-- The document ends inside a part. -/
  | unfinished (part : Part)
  | colonExpected
  | listEndExpected
  | objectEndExpected
  | wordExpected
  | valueExpected
  | keyExpected
  | badEscape
  | badNumber
  | hugeNumber
  | controlCharacter
  | loneSurrogate
  | missingSurrogate
  | trailingComma
  | trailingCharacters
  /-- A value of the wrong type. -/
  | mismatch (found : Found) (wanted : String)
  /-- A value of the right type that is out of range. -/
  | outOfRange (found : Found) (wanted : String)
  | wrongLength (length : Nat) (wanted : String)
  | missingField (name : String)
  | repeatedField (name : String)
  deriving DecidableEq, Repr

def Part.phrase : Part → String
  | .value => "a value"
  | .list => "a list"
  | .object => "an object"
  | .string => "a string"

def Problem.message : Problem → String
  | .unfinished part => "EOF while parsing " ++ part.phrase
  | .colonExpected => "expected `:`"
  | .listEndExpected => "expected `,` or `]`"
  | .objectEndExpected => "expected `,` or `\x7d`"
  | .wordExpected => "expected ident"
  | .valueExpected => "expected value"
  | .keyExpected => "key must be a string"
  | .badEscape => "invalid escape"
  | .badNumber => "invalid number"
  | .hugeNumber => "number out of range"
  | .controlCharacter =>
    "control character (\\u0000-\\u001F) found while parsing a string"
  | .loneSurrogate => "lone leading surrogate in hex escape"
  | .missingSurrogate => "unexpected end of hex escape"
  | .trailingComma => "trailing comma"
  | .trailingCharacters => "trailing characters"
  | .mismatch found wanted => "invalid type: " ++ found.phrase ++ ", expected " ++ wanted
  | .outOfRange found wanted => "invalid value: " ++ found.phrase ++ ", expected " ++ wanted
  | .wrongLength length wanted =>
    "invalid length " ++ toString length ++ ", expected " ++ wanted
  | .missingField name => "missing field `" ++ name ++ "`"
  | .repeatedField name => "duplicate field `" ++ name ++ "`"

/-- A problem, what had not been read when it was found, and how many bytes of that the
reported place is further on. -/
structure Fault where
  problem : Problem
  rest : List Char
  ahead : Nat
  deriving DecidableEq, Repr

def Fault.here {α : Type} (problem : Problem) (rest : List Char) : Except Fault α :=
  .error ⟨problem, rest, 0⟩

/-- A problem with the next byte, if there is one. Its place is behind that byte, and at the end
of a document it is the end. -/
def Fault.next {α : Type} (problem : Problem) (rest : List Char) : Except Fault α :=
  .error ⟨problem, rest, if rest.isEmpty then 0 else 1⟩

/-- The line and the byte column that follow a text, when some bytes more are taken from what
comes next. A line feed among these already counts as a new line. -/
def placeAfter (read rest : List Char) (ahead : Nat) : Nat × Nat :=
  if ahead = 1 && rest.head? = some '\n' then (read.count '\n' + 2, 0)
  else
    (read.count '\n' + 1, Text.byteLength (read.reverse.takeWhile (· != '\n')) + ahead)

def Fault.display (document : List Char) (fault : Fault) : String :=
  let read := document.take (document.length - fault.rest.length)
  let (line, column) := placeAfter read fault.rest fault.ahead
  fault.problem.message ++ " at line " ++ toString line ++ " column " ++ toString column

end Json

end MessageCatalog
