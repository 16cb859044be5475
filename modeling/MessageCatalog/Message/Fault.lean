import MessageCatalog.Text.ByteLength

/-!
# Faults in message text

The reader stops at the first fault. A fault says what was wrong and how much of the
text was still unread, so the position is a function of the text and the fault: the
offset counts bytes, the line counts line feeds, and the column counts characters
since the last line feed.

A `Diagnostic` is a fault in its final form, a sentence with its position. The
extraction keeps diagnostics and not faults, because a diagnostic is all that the
author of the message gets to see.
-/

namespace MessageCatalog

namespace Message

inductive Expectation where
  | char (c : Char)
  | textOrArgument
  | argumentName
  | argumentEnd
  | argumentType
  | argumentStyle
  | offsetValue
  | exactNumber
  | optionSelector
  | someOption
  | hexDigits
  | escapable
  deriving DecidableEq, Repr

def Expectation.phrase : Expectation → String
  | .char c => "\"" ++ c.toString ++ "\""
  | .textOrArgument => "\"\x7b\" or text"
  | .argumentName => "argument name"
  | .argumentEnd => "\",\" or \"\x7d\""
  | .argumentType => "\"number\", \"date\", \"time\", \"plural\", \"selectordinal\" or \"select\""
  | .argumentStyle => "argument style"
  | .offsetValue => "offset value"
  | .exactNumber => "number"
  | .optionSelector => "option selector"
  | .someOption => "at least one option"
  | .hexDigits => "four hexadecimal digits"
  | .escapable => "\"\\\\\", \"\x7b\", \"\x7d\", \"#\" or \"u\""

inductive Cause where
  | expected (what : Expectation)
  | surrogateEscape
  | repeatedSelector (selector : String)
  deriving DecidableEq, Repr

/-- A cause together with the text that was unread when it was found. The text before it is what
the place is counted from. -/
structure Fault where
  cause : Cause
  rest : List Char
  deriving DecidableEq, Repr

/-- The sentence that explains a fault. Only an unmet expectation mentions the
character that was found in its place. -/
def Fault.message (fault : Fault) : String :=
  match fault.cause with
  | .expected what =>
    let found := match fault.rest with
      | c :: _ => "\"" ++ c.toString ++ "\""
      | [] => "end of input"
    "Expected " ++ what.phrase ++ " but " ++ found ++ " found."
  | .surrogateEscape => "Invalid unicode escape."
  | .repeatedSelector selector => "Duplicate option selector \"" ++ selector ++ "\"."

/-- A located sentence about a message text. Line and column count from one, the
offset counts bytes from zero. -/
structure Diagnostic where
  message : String
  offset : Nat
  line : Nat
  column : Nat
  deriving DecidableEq, Repr

def Diagnostic.display (d : Diagnostic) : String :=
  d.message ++ " (line " ++ toString d.line ++ ", column " ++ toString d.column ++ ")"

def lineAfter (s : List Char) : Nat :=
  s.count '\n' + 1

/-- The column that follows the text `s`: one more than the characters after its last
line feed. -/
def columnAfter (s : List Char) : Nat :=
  (s.reverse.takeWhile (· != '\n')).length + 1

/-- Locate a fault in the text it was found in: the offset in bytes, the column in characters,
both at the end of what had been read. -/
def Fault.locate (text : List Char) (fault : Fault) : Diagnostic :=
  let before := text.take (text.length - fault.rest.length)
  { message := fault.message
    offset := Text.byteLength before
    line := lineAfter before
    column := columnAfter before }

end Message

end MessageCatalog
