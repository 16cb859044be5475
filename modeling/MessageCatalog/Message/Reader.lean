import MessageCatalog.Message.Basic
import MessageCatalog.Message.Fault
import MessageCatalog.Text.Blank

/-!
# Reading messages

Each reader takes the unread text and returns what it read together with the text
after it. Tokens are as long as possible: a name, a type word, a run of digits or a
run of text never ends where it could go on.

The mutual readers are bounded by a counter that every one of them hands on lowered
by one. Each round reads at least one character, so a counter above the length of the
text is never used up; `read` starts with such a counter and shows none.
-/

namespace MessageCatalog

namespace Message

open Text

def unexpected {α : Type} (what : Expectation) (rest : List Char) : Except Fault α :=
  .error ⟨.expected what, rest⟩

/-- The characters of argument names and selectors: neither blank nor special. -/
def isNameChar (c : Char) : Bool :=
  !isBlank c && c != '{' && c != '}' && c != ',' && c != '#' && c != '\\' && c != '='

def isTypeLetter (c : Char) : Bool :=
  ('a' ≤ c && c ≤ 'z') || ('A' ≤ c && c ≤ 'Z')

def isDigit (c : Char) : Bool :=
  '0' ≤ c && c ≤ '9'

def hexValue? (c : Char) : Option Nat :=
  if '0' ≤ c && c ≤ '9' then some (c.toNat - 48)
  else if 'a' ≤ c && c ≤ 'f' then some (c.toNat - 87)
  else if 'A' ≤ c && c ≤ 'F' then some (c.toNat - 55)
  else none

def digitsValue (digits : List Char) : Nat :=
  digits.foldl (fun n c => 10 * n + (c.toNat - 48)) 0

/-- Offsets are signed words of 64 bits; this is the largest. -/
def maxOffset : Nat := Nat.pow 2 63 - 1

def isEscapable (c : Char) : Bool :=
  c == '{' || c == '}' || c == '\\' || c == '#'

def skipBlanks (s : List Char) : List Char :=
  s.dropWhile isBlank

def require (c : Char) (s : List Char) : Except Fault (List Char) :=
  match s with
  | d :: rest => if d = c then .ok rest else unexpected (.char c) s
  | [] => unexpected (.char c) s

def takeRun (p : Char → Bool) (s : List Char) : List Char × List Char :=
  (s.takeWhile p, s.dropWhile p)

/-- Require a non-empty run of characters of one class. -/
def takeRun1 (p : Char → Bool) (what : Expectation) (s : List Char) :
    Except Fault (String × List Char) :=
  match takeRun p s with
  | ([], rest) => unexpected what rest
  | (run, rest) => .ok (String.ofList run, rest)

/-- The character that four hexadecimal digits denote, unless they denote half of a
surrogate pair. -/
def scalar? (n : Nat) : Option Char :=
  if h : n.isValidChar then some (Char.ofNatAux n h) else none

/-- Read what follows the `u` of an escape: exactly four hexadecimal digits belong to
it, and more may follow as text. -/
def readHexEscape (s : List Char) : Except Fault (Char × List Char) :=
  match s with
  | a :: b :: c :: d :: rest =>
    match hexValue? a, hexValue? b, hexValue? c, hexValue? d with
    | some a, some b, some c, some d =>
      match scalar? (((a * 16 + b) * 16 + c) * 16 + d) with
      | some value => .ok (value, rest)
      | none => .error ⟨.surrogateEscape, s⟩
    | _, _, _, _ => unexpected .hexDigits s
  | _ => unexpected .hexDigits s

def readEscape (s : List Char) : Except Fault (Char × List Char) :=
  match s with
  | c :: rest =>
    if isEscapable c then .ok (c, rest)
    else if c = 'u' then readHexEscape rest
    else unexpected .escapable s
  | [] => unexpected .escapable s

/-- Whether a character ends a run of text. Inside a plural branch the number sign is
an element of its own. -/
def endsText (inPlural : Bool) (c : Char) : Bool :=
  c == '{' || c == '}' || (inPlural && c == '#')

/-- Read a run of text, undoing its escapes. An escaped character is text whatever it is, so
only an unescaped one ends the run. -/
def readText (inPlural : Bool) : Nat → List Char → Except Fault (List Char × List Char)
  | 0, s => .ok ([], s)
  | _ + 1, [] => .ok ([], [])
  | n + 1, c :: s =>
    if endsText inPlural c then .ok ([], c :: s)
    else if c = '\\' then do
      let (d, s) ← readEscape s
      let (text, s) ← readText inPlural n s
      .ok (d :: text, s)
    else do
      let (text, s) ← readText inPlural n s
      .ok (c :: text, s)

def offsetWord : List Char := ['o', 'f', 'f', 's', 'e', 't', ':']

/-- Read the offset clause of a plural argument. The clause is taken exactly when the
text starts with its word; without it the offset is zero. -/
def readOffset (s : List Char) : Except Fault (Int × List Char) :=
  if offsetWord.isPrefixOf s then
    let start := skipBlanks (s.drop offsetWord.length)
    let (digits, rest) := takeRun isDigit start
    if digits.isEmpty || maxOffset < digitsValue digits then unexpected .offsetValue start
    else .ok (digitsValue digits, skipBlanks rest)
  else .ok (0, s)

/-- Read a selector: an equals sign with digits, or a name. -/
def readSelector (s : List Char) : Except Fault (String × List Char) :=
  match s with
  | '=' :: s => do
    let (digits, s) ← takeRun1 isDigit .exactNumber s
    .ok ("=" ++ digits, s)
  | _ => takeRun1 isNameChar .optionSelector s

/-- Read the optional style of a formatted argument: everything up to the next brace,
trimmed, and not blank. -/
def readStyle (s : List Char) : Except Fault (Option String × List Char) :=
  match s with
  | ',' :: s =>
    let (raw, rest) := takeRun (fun c => c != '{' && c != '}') s
    match trimChars raw with
    | [] => unexpected .argumentStyle rest
    | style => .ok (some (String.ofList style), rest)
  | _ => .ok (none, s)

mutual

/-- Read elements up to the end of the text or an unmatched closing brace. -/
def readMessage (inPlural : Bool) : Nat → List Char → Except Fault (Message × List Char)
  | 0, s => unexpected .textOrArgument s
  | _ + 1, [] => .ok ([], [])
  | n + 1, c :: s =>
    if c = '}' then .ok ([], c :: s)
    else if c = '{' then do
      let (element, s) ← readArgument inPlural n s
      let (message, s) ← readMessage inPlural n s
      .ok (element :: message, s)
    else if c = '#' && inPlural then do
      let (message, s) ← readMessage inPlural n s
      .ok (.pound :: message, s)
    else do
      let (text, s) ← readText inPlural (n + 1) (c :: s)
      let (message, s) ← readMessage inPlural n s
      .ok (.literal (String.ofList text) :: message, s)

def readArgument (inPlural : Bool) : Nat → List Char → Except Fault (Element × List Char)
  | 0, s => unexpected .argumentName s
  | n + 1, s => do
    let (name, s) ← takeRun1 isNameChar .argumentName (skipBlanks s)
    match skipBlanks s with
    | '}' :: s => .ok (.argument name, s)
    | ',' :: s =>
      let (element, s) ← readBody inPlural n name (skipBlanks s)
      .ok (element, ← require '}' (skipBlanks s))
    | s => unexpected .argumentEnd s

/-- Read the type word of an argument and what belongs to the type. Inside a plural the number
sign is an element, inside a select what it was around it. -/
def readBody (inPlural : Bool) : Nat → String → List Char → Except Fault (Element × List Char)
  | 0, _, s => unexpected .argumentType s
  | n + 1, name, start =>
    let (letters, s) := takeRun isTypeLetter start
    let word := String.ofList letters
    match FormatKind.ofWord? word, PluralKind.ofWord? word with
    | some kind, _ => do
      let (style, s) ← readStyle (skipBlanks s)
      .ok (.formatted name kind style, s)
    | none, some kind => do
      let s ← require ',' (skipBlanks s)
      let (offset, s) ← readOffset (skipBlanks s)
      let (options, s) ← readOptions true n [] s
      .ok (.plural name kind offset options, s)
    | none, none =>
      if word = "select" then do
        let s ← require ',' (skipBlanks s)
        let (options, s) ← readOptions inPlural n [] s
        .ok (.select name options, s)
      else unexpected .argumentType start

/-- Read the branches that follow those already read under the selectors `seen`. A
branching argument has at least one branch, and no selector twice. -/
def readOptions (inPlural : Bool) :
    Nat → List String → List Char → Except Fault (List Branch × List Char)
  | 0, _, s => unexpected .optionSelector s
  | n + 1, seen, s =>
    match skipBlanks s with
    | [] => endOptions seen []
    | '}' :: s => endOptions seen ('}' :: s)
    | start => do
      let (selector, s) ← readSelector start
      if seen.contains selector then .error ⟨.repeatedSelector selector, start⟩
      let s ← require '{' (skipBlanks s)
      let (value, s) ← readMessage inPlural n s
      let s ← require '}' s
      let (options, s) ← readOptions inPlural n (selector :: seen) s
      .ok (.mk selector value :: options, s)
where
  /-- The branches end here, provided that there was one. -/
  endOptions (seen : List String) (s : List Char) : Except Fault (List Branch × List Char) :=
    if seen.isEmpty then unexpected .someOption s else .ok ([], s)

end

/-- Read a whole text as a message. Only an unmatched closing brace can be left over. -/
def readAll (text : List Char) : Except Fault Message := do
  let (message, rest) ← readMessage false (text.length + 1) text
  if rest.isEmpty then .ok message else unexpected .textOrArgument rest

def parse (text : String) : Except Diagnostic Message :=
  (readAll text.toList).mapError (Fault.locate text.toList)

end Message

end MessageCatalog
