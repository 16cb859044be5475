import MessageCatalog.Number.Decimal
import MessageCatalog.Syntax.Fault
import MessageCatalog.Text.Entity
import MessageCatalog.Text.Identifier
import MessageCatalog.Text.Source

/-!
# Tokens

A token is cut out of the source at a place, after blanks and comments. Only the text
decides what the token is, with three exceptions that the grammar asks for by itself:
a slash may open a pattern literal, a brace may continue a template, and markup has
names, text and attribute strings of its own. A closing angle bracket is always a token
by itself, so that nested type arguments can be told from shift operators; the grammar
of operators joins it with what follows.

Literals are given their values here. Escapes may name halves of surrogate pairs; two
halves in a row are joined, and a lone half becomes the replacement character.
-/

namespace MessageCatalog

namespace Syntax

open Text

inductive Token.Kind where
  | finish
  | name (text : String) (escaped : Bool)
  | privateName (text : String)
  | number (value : Binary64)
  | bigint (digits : String)
  /-- `wellFormed` if no lone half of a surrogate pair had to be replaced. -/
  | string (value : String) (wellFormed : Bool)
  /-- The opening quote of a template. -/
  | template
  | mark (text : String)
  deriving DecidableEq, Repr

/-- A token, where it lies, and whether a line ends before it. A token may come with a
problem that does not stop the reading. -/
structure Token where
  kind : Token.Kind
  start : Nat
  stop : Nat
  newline : Bool
  problem : Option Fault
  deriving Repr

def stop {α : Type} (problem : Problem) (place : Nat) : Except Fault α :=
  .error ⟨problem, place⟩

def isLineEnd (c : Char) : Bool :=
  c == '\n' || c == '\r' || c.toNat == 0x2028 || c.toNat == 0x2029

/-- The characters between tokens, besides comments. -/
def isSpace (c : Char) : Bool :=
  let n := c.toNat
  isLineEnd c || n == 9 || n == 0xB || n == 0xC || n == 0x20 || n == 0xA0 || n == 0xFEFF ||
    n == 0x1680 || (0x2000 ≤ n && n ≤ 0x200A) || n == 0x202F || n == 0x205F || n == 0x3000

abbrev Chars := Array Char

/-- The first place from `place` on whose character is not in the class. -/
def scan (chars : Chars) (p : Char → Bool) (place : Nat) : Nat :=
  if h : place < chars.size then
    if p chars[place] then scan chars p (place + 1) else place
  else place
termination_by chars.size - place

def slice (chars : Chars) (start stop : Nat) : List Char :=
  (chars.extract start stop).toList

def sliceText (chars : Chars) (start stop : Nat) : String :=
  String.ofList (slice chars start stop)

def startsWith (chars : Chars) (place : Nat) (s : List Char) : Bool :=
  slice chars place (place + s.length) == s

/-- Find the end of a block comment, given a place inside it: the place after it, and
whether a line ends in it. -/
def skipBlockComment (chars : Chars) (newline : Bool) (place : Nat) :
    Except Fault (Nat × Bool) :=
  if h : place < chars.size then
    if chars[place] == '*' && chars[place + 1]? == some '/' then .ok (place + 2, newline)
    else skipBlockComment chars (newline || isLineEnd chars[place]) (place + 1)
  else stop .unterminatedComment chars.size
termination_by chars.size - place

/-- Skip blanks and comments: the place of the next token, and whether a line ends
before it. The counter bounds the number of comments. -/
def skipTrivia (chars : Chars) : Nat → Bool → Nat → Except Fault (Nat × Bool)
  | 0, newline, place => .ok (place, newline)
  | n + 1, newline, place =>
    let next := scan chars isSpace place
    let newline := newline || (slice chars place next).any isLineEnd
    if chars[next]? == some '/' && chars[next + 1]? == some '/' then
      skipTrivia chars n newline (scan chars (!isLineEnd ·) next)
    else if chars[next]? == some '/' && chars[next + 1]? == some '*' then do
      let (next, newline) ← skipBlockComment chars newline (next + 2)
      skipTrivia chars n newline next
    else .ok (next, newline)

/-! ### Numbers -/

/-- Whether a run of digits and separators has each separator between two digits. -/
def separatorsBetween : List Char → Bool
  | [] => true
  | ['_'] => false
  | '_' :: '_' :: _ => false
  | _ :: s => separatorsBetween s

def isDigitOrSeparator (base : Nat) (c : Char) : Bool :=
  c == '_' || (match hexDigit? c with
    | some d => d < base
    | none => false)

def digitsOf (run : List Char) : List Char :=
  run.filter (· != '_')

/-- Finish a number that ends at `stop`: no name may follow it at once, and a separator
in the wrong place is noted. -/
def finishNumber (chars : Chars) (kind : Token.Kind) (wellSeparated : Bool)
    (start stop : Nat) : Except Fault Token :=
  match chars[stop]? with
  | some c =>
    if isIdentifierStart c then Syntax.stop .nameAfterNumber stop else .ok token
  | none => .ok token
where
  /-- The token of the number. -/
  token : Token :=
    { kind, start, stop, newline := false
      problem := if wellSeparated then none else some ⟨.misplacedSeparator, start⟩ }

/-- The number that digits to some base denote. It is rounded after each digit, so of a
number with too many digits the last ones do not count. -/
def roundedNumeral (base : Nat) (digits : List Char) : Binary64 :=
  (digits.filterMap hexDigit?).foldl (Binary64.appendDigit base) .zero

def readRadix (chars : Chars) (base start : Nat) : Except Fault Token :=
  let stop := scan chars (isDigitOrSeparator base) (start + 2)
  let run := slice chars (start + 2) stop
  let digits := digitsOf run
  let wellSeparated := separatorsBetween run && run.head? != some '_'
  match readNumeral? base digits with
  | none => Syntax.stop (.digitExpected base) (start + 2)
  | some value =>
    if chars[stop]? == some 'n' then
      finishNumber chars (.bigint (toString value)) wellSeparated start (stop + 1)
    else finishNumber chars (.number (roundedNumeral base digits)) wellSeparated start stop

/-- Read the exponent of a decimal number, if one starts at the place: the place after
it, and its text. -/
def readExponent (chars : Chars) (place : Nat) : Except Fault (Nat × List Char) :=
  match chars[place]? with
  | some c =>
    if c == 'e' || c == 'E' then
      let digits := match chars[place + 1]? with
        | some c => if c == '+' || c == '-' then place + 2 else place + 1
        | none => place + 1
      let stop := scan chars (isDigitOrSeparator 10) digits
      if stop = digits then Syntax.stop (.digitExpected 10) digits
      else .ok (stop, slice chars place stop)
    else .ok (place, [])
  | none => .ok (place, [])

def readDecimal (chars : Chars) (start : Nat) : Except Fault Token :=
  let whole := scan chars (isDigitOrSeparator 10) start
  let run := slice chars start whole
  if chars[whole]? == some 'n' && run.length != 0 then
    finishNumber chars (.bigint (String.ofList (digitsOf run))) (separatorsBetween run) start
      (whole + 1)
  else do
    let fraction :=
      if chars[whole]? == some '.' then scan chars (isDigitOrSeparator 10) (whole + 1)
      else whole
    let (stop, exponent) ← readExponent chars fraction
    let point := slice chars whole fraction
    let wellSeparated := separatorsBetween run && separatorsBetween point &&
      separatorsBetween exponent && (point.drop 1).head? != some '_'
    let text := String.ofList (digitsOf (slice chars start stop))
    let value := (Decimal.read? text).getD .nan
    let legacy := run.length != 1 && run.head? == some '0'
    let token ← finishNumber chars (.number value) wellSeparated start stop
    .ok (if legacy then { token with problem := some ⟨.legacyOctal, start⟩ } else token)

def readNumber (chars : Chars) (start : Nat) : Except Fault Token :=
  match chars[start]?, chars[start + 1]? with
  | some '0', some c =>
    if c == 'x' || c == 'X' then readRadix chars 16 start
    else if c == 'o' || c == 'O' then readRadix chars 8 start
    else if c == 'b' || c == 'B' then readRadix chars 2 start
    else readDecimal chars start
  | _, _ => readDecimal chars start

/-! ### Literal text -/

def isHighHalf (n : Nat) : Bool := 0xD800 ≤ n && n < 0xDC00

def isLowHalf (n : Nat) : Bool := 0xDC00 ≤ n && n < 0xE000

def joinHalves : List Nat → List Nat
  | [] => []
  | [n] => [n]
  | m :: n :: s =>
    if isHighHalf m && isLowHalf n then
      ((m - 0xD800) * 0x400 + (n - 0xDC00) + 0x10000) :: joinHalves s
    else m :: joinHalves (n :: s)

/-- The text that a sequence of codes denotes, and whether it has no lone half. -/
def textOfCodes (codes : List Nat) : String × Bool :=
  let joined := joinHalves codes
  (String.ofList (joined.map characterAt), !joined.any fun n => isHighHalf n || isLowHalf n)

/-- What an escape stands for: some code, nothing, or no legal escape. An octal escape
has a code but is out of use. -/
inductive Escape where
  | code (n : Nat)
  | octal (n : Nat)
  | nothing
  | malformed (wanted : String)

def simpleEscape? (c : Char) : Option Nat :=
  if c == 'n' then some 10
  else if c == 't' then some 9
  else if c == 'b' then some 8
  else if c == 'f' then some 12
  else if c == 'v' then some 11
  else if c == 'r' then some 13
  else none

def readHexDigits? (chars : Chars) (count place : Nat) : Option Nat :=
  let digits := slice chars place (place + count)
  if digits.length = count then readNumeral? 16 digits else none

def readUnicodeEscape (chars : Chars) (place : Nat) : Escape × Nat :=
  if chars[place]? == some '{' then
    let stop := scan chars (fun c => (hexDigit? c).isSome) (place + 1)
    match readNumeral? 16 (slice chars (place + 1) stop) with
    | some n =>
      if chars[stop]? == some '}' && n ≤ 0x10FFFF then (.code n, stop + 1)
      else (.malformed "1-6 hex characters", stop)
    | none => (.malformed "1-6 hex characters", stop)
  else match readHexDigits? chars 4 place with
    | some n => (.code n, place + 4)
    | none => (.malformed "4 hex characters", place)

/-- Read an escape after its backslash: what it stands for, and the place after it. -/
def readEscape (chars : Chars) (place : Nat) : Escape × Nat :=
  match chars[place]? with
  | none => (.nothing, place)
  | some c =>
    match simpleEscape? c with
    | some n => (.code n, place + 1)
    | none =>
      if c == 'x' then
        match readHexDigits? chars 2 (place + 1) with
        | some n => (.code n, place + 3)
        | none => (.malformed "2 hex characters", place + 1)
      else if c == 'u' then readUnicodeEscape chars (place + 1)
      else if c == '\r' then
        (.nothing, if chars[place + 1]? == some '\n' then place + 2 else place + 1)
      else if isLineEnd c then (.nothing, place + 1)
      else if c == '0' && !(chars[place + 1]?.any isAsciiDigit) then (.code 0, place + 1)
      else if '0' ≤ c && c ≤ '7' then readOctal place
      else if c == '8' || c == '9' then (.octal c.toNat, place + 1)
      else (.code c.toNat, place + 1)
where
  /-- Read up to three octal digits that stay within one byte. -/
  readOctal (place : Nat) : Escape × Nat :=
    let limit := if chars[place]?.any (· ≤ '3') then 3 else 2
    let digits := (slice chars place (place + limit)).takeWhile fun c => '0' ≤ c && c ≤ '7'
    (.octal ((readNumeral? 8 digits).getD 0), place + digits.length)

/-- Read the rest of a string up to its closing quote, in reverse: the codes, the place
after the quote, and a noted problem. -/
def readStringRest (chars : Chars) (quote : Char) (start : Nat) :
    Nat → List Nat → Option Fault → Nat → Except Fault (List Nat × Option Fault × Nat)
  | 0, _, _, _ => stop .unterminatedString start
  | n + 1, codes, noted, place =>
    match chars[place]? with
    | none => stop .unterminatedString start
    | some c =>
      if c == quote then .ok (codes.reverse, noted, place + 1)
      else if c == '\n' || c == '\r' then stop .unterminatedString start
      else if c == '\\' then
        match readEscape chars (place + 1) with
        | (.code k, next) => readStringRest chars quote start n (k :: codes) noted next
        | (.octal k, next) =>
          readStringRest chars quote start n (k :: codes)
            (noted.orElse fun _ => some ⟨.legacyOctal, place⟩) next
        | (.nothing, next) => readStringRest chars quote start n codes noted next
        | (.malformed wanted, _) => stop (.badEscape wanted) place
      else readStringRest chars quote start n (c.toNat :: codes) noted (place + 1)

def readString (chars : Chars) (quote : Char) (start : Nat) : Except Fault Token := do
  let (codes, problem, stop) ← readStringRest chars quote start chars.size [] none (start + 1)
  let (value, wellFormed) := textOfCodes codes
  .ok { kind := .string value wellFormed, start, stop, newline := false, problem }

/-- Read a piece of template text: its codes unless an escape in it is malformed, the
place after it, and whether a substitution follows. Line ends count as line feeds. -/
def readTemplateRest (chars : Chars) (start : Nat) :
    Nat → Option (List Nat) → Nat → Except Fault (Option (List Nat) × Nat × Bool)
  | 0, _, _ => stop .unterminatedTemplate start
  | n + 1, codes, place =>
    match chars[place]? with
    | none => stop .unterminatedTemplate start
    | some c =>
      if c.toNat == 0x60 then .ok (codes.map List.reverse, place + 1, false)
      else if c == '$' && chars[place + 1]? == some '{' then
        .ok (codes.map List.reverse, place + 2, true)
      else if c == '\r' then
        let next := if chars[place + 1]? == some '\n' then place + 2 else place + 1
        readTemplateRest chars start n (codes.map (10 :: ·)) next
      else if c == '\\' then
        match readEscape chars (place + 1) with
        | (.code k, next) => readTemplateRest chars start n (codes.map (k :: ·)) next
        | (.nothing, next) => readTemplateRest chars start n codes next
        | (.octal _, next) => readTemplateRest chars start n none next
        | (.malformed _, next) => readTemplateRest chars start n none next
      else readTemplateRest chars start n (codes.map (c.toNat :: ·)) (place + 1)

def readTemplatePiece (chars : Chars) (start place : Nat) :
    Except Fault (Option String × Nat × Bool) := do
  let (codes, stop, more) ← readTemplateRest chars start (chars.size + 1) (some []) place
  .ok (codes.map fun codes => (textOfCodes codes).1, stop, more)

/-! ### Names and marks -/

/-- Read the rest of a name in reverse. Characters of names may be escaped. -/
def readNameRest (chars : Chars) :
    Nat → List Char → Bool → Nat → Except Fault (List Char × Bool × Nat)
  | 0, name, escaped, place => .ok (name.reverse, escaped, place)
  | n + 1, name, escaped, place =>
    match chars[place]? with
    | none => .ok (name.reverse, escaped, place)
    | some c =>
      if isIdentifierPart c then readNameRest chars n (c :: name) escaped (place + 1)
      else if c == '\\' then
        if chars[place + 1]? == some 'u' then
          match readUnicodeEscape chars (place + 2) with
          | (.code k, next) => readNameRest chars n (characterAt k :: name) true next
          | _ => stop (.badEscape "4 hex characters") place
        else stop .expressionExpected place
      else .ok (name.reverse, escaped, place)

/-- Marks of several characters, longer ones before those they start with. -/
def longMarks : List String :=
  ["...", "===", "!==", "**=", "<<=", "&&=", "||=", "??=", "=>", "==", "!=", "<=", "&&",
    "||", "??", "?.", "++", "--", "+=", "-=", "*=", "/=", "%=", "&=", "|=", "^=", "<<", "**"]

/-- The mark at a place. A question mark, a point and a digit are a condition and a
number, not an optional link. -/
def markAt (chars : Chars) (place : Nat) : String :=
  let fits (mark : String) := startsWith chars place mark.toList &&
    !(mark == "?." && chars[place + 2]?.any isAsciiDigit)
  match longMarks.find? fits with
  | some mark => mark
  | none => sliceText chars place (place + 1)

/-- Operators that start with a closing angle bracket, longer ones first. -/
def angleMarks : List String :=
  [">>>=", ">>>", ">>=", ">>", ">=", ">"]

/-- The operator at a place: the mark, and for a closing angle bracket as much of what
follows as belongs to it. -/
def operatorAt (chars : Chars) (place : Nat) : String :=
  match angleMarks.find? fun mark => startsWith chars place mark.toList with
  | some mark => mark
  | none => markAt chars place

def tokenAt (chars : Chars) (start : Nat) : Except Fault Token :=
  match chars[start]? with
  | none => .ok (simple .finish start)
  | some c =>
    if isIdentifierStart c || c == '\\' then do
      let (name, escaped, stop) ← readNameRest chars chars.size [] false start
      .ok (simple (.name (String.ofList name) escaped) stop)
    else if isAsciiDigit c || (c == '.' && chars[start + 1]?.any isAsciiDigit) then
      readNumber chars start
    else if c == '"' || c == '\'' then readString chars c start
    else if c.toNat == 0x60 then .ok (simple .template (start + 1))
    else if c == '#' && chars[start + 1]?.any isIdentifierStart then do
      let (name, _, stop) ← readNameRest chars chars.size [] false (start + 1)
      .ok (simple (.privateName (String.ofList name)) stop)
    else
      let mark := markAt chars start
      .ok (simple (.mark mark) (start + mark.length))
where
  /-- A token without a problem. -/
  simple (kind : Token.Kind) (stop : Nat) : Token :=
    { kind, start, stop, newline := false, problem := none }

def nextToken (chars : Chars) (place : Nat) : Except Fault Token := do
  let (start, newline) ← skipTrivia chars (chars.size + 1) false place
  let token ← tokenAt chars start
  .ok { token with newline }

/-- The place after a pattern literal that starts at `start`, its flags included. -/
def patternEnd (chars : Chars) (start : Nat) : Nat → Bool → Nat → Except Fault Nat
  | 0, _, _ => stop .unterminatedPattern start
  | n + 1, inClass, place =>
    match chars[place]? with
    | none => stop .unterminatedPattern start
    | some c =>
      if isLineEnd c then stop .unterminatedPattern start
      else if c == '\\' then patternEnd chars start n inClass (place + 2)
      else if c == '[' then patternEnd chars start n true (place + 1)
      else if c == ']' then patternEnd chars start n false (place + 1)
      else if c == '/' && !inClass then .ok (scan chars isIdentifierPart (place + 1))
      else patternEnd chars start n inClass (place + 1)

/-- Where the text starts after a first line that names an interpreter. -/
def afterInterpreterLine (chars : Chars) : Nat :=
  if startsWith chars 0 ['#', '!'] then scan chars (!isLineEnd ·) 0 else 0

def Token.describe (chars : Chars) (token : Token) : String :=
  match token.kind with
  | .finish => "<eof>"
  | _ => sliceText chars token.start token.stop

end Syntax

end MessageCatalog
