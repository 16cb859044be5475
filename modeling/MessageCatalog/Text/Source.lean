import MessageCatalog.Text.DisplayWidth

/-!
# Source text and positions

A source is its characters, without a byte order mark in front. Places in it are
numbered from zero; a place is shown to people as a line and a display column, both
from one.

A line ends at a line feed, at a carriage return, or at the pair of both. The line that
is quoted beside a position is cut out differently: it runs from the start of the line
to the next line feed, so a carriage return stays in it.
-/

namespace MessageCatalog

namespace Text

structure Source where
  chars : Array Char

/-- A line and a display column, counted from one. -/
structure Position where
  line : Nat
  column : Nat
  deriving DecidableEq, Repr

/-- A position in a named source, with the line it is on. -/
structure Context where
  file : String
  position : Position
  sourceLine : String
  deriving DecidableEq, Repr

def byteOrderMark : Char := Char.ofNat 0xFEFF

namespace Source

/-- The source with the given text, without a byte order mark in front. Places are counted from
the character after it. -/
def ofString (text : String) : Source :=
  match text.toList with
  | c :: s => ⟨(if c = byteOrderMark then s else c :: s).toArray⟩
  | [] => ⟨#[]⟩

/-- Count the line ends of a text whose first character is at `place`, and find the
place after the last of them. -/
def lineStart (lines start place : Nat) : List Char → Nat × Nat
  | [] => (lines, start)
  | '\r' :: '\n' :: s => lineStart (lines + 1) (place + 2) (place + 2) s
  | c :: s =>
    if c = '\n' || c = '\r' then lineStart (lines + 1) (place + 1) (place + 1) s
    else lineStart lines start (place + 1) s

def lineOf (source : Source) (place : Nat) : Nat × Nat :=
  lineStart 0 0 0 (source.chars.toList.take place)

def slice (source : Source) (start stop : Nat) : List Char :=
  (source.chars.extract start stop).toList

/-- The position of a place. The column counts display columns and not characters, so it says
where the place is seen. -/
def position (source : Source) (place : Nat) : Position :=
  let (lines, start) := source.lineOf place
  ⟨lines + 1, columns (source.slice start place) + 1⟩

/-- The line that is quoted for a place. It goes on to the next line feed, over a carriage
return that ended a line for the position. -/
def quotedLine (source : Source) (place : Nat) : List Char :=
  let (_, start) := source.lineOf place
  (source.slice start source.chars.size).takeWhile (· != '\n')

def context (source : Source) (file : String) (place : Nat) : Context :=
  ⟨file, source.position place, String.ofList (source.quotedLine place)⟩

end Source

end Text

end MessageCatalog
