import MessageCatalog.Json.Fault
import MessageCatalog.Text.Entity

/-!
# Strings in documents

A string stands between quotation marks. Quotation marks, backslashes and control
characters are escaped when a string is written; a reader also knows the escapes that no
writer needs. Characters beyond the basic plane may be escaped as two surrogates, which
have to come together.
-/

namespace MessageCatalog

namespace Json

/-! ### Writing -/

/-- A character as it is written in a string. Five control characters have a letter, the others
four digits; everything else but quotation marks and backslashes stands for itself. -/
def escape (c : Char) : List Char :=
  if c = '"' then ['\\', '"']
  else if c = '\\' then ['\\', '\\']
  else if c = '\n' then ['\\', 'n']
  else if c = '\r' then ['\\', 'r']
  else if c = '\t' then ['\\', 't']
  else if c.toNat = 8 then ['\\', 'b']
  else if c.toNat = 12 then ['\\', 'f']
  else if c.toNat < 32 then
    ['\\', 'u', '0', '0', Nat.digitChar (c.toNat / 16), Nat.digitChar (c.toNat % 16)]
  else [c]

def quote (text : String) : List Char :=
  '"' :: text.toList.flatMap escape ++ ['"']

/-! ### Reading -/

/-- Leave out a number of bytes: what follows the last character that is touched, and
how far into it the bytes go if not to its end. -/
def dropBytes : Nat → List Char → Option (List Char × Nat)
  | 0, s => some (s, 0)
  | _ + 1, [] => none
  | n + 1, c :: s =>
    if c.utf8Size ≤ n + 1 then dropBytes (n + 1 - c.utf8Size) s else some (c :: s, n + 1)

/-- Read the four digits of an escape. If one of them is no digit the place is four bytes on,
wherever the wrong one was. -/
def readHex (s : List Char) : Except Fault (Nat × List Char) :=
  match Text.readNumeral? 16 (s.take 4), s with
  | some n, _ :: _ :: _ :: _ :: rest => .ok (n, rest)
  | _, s =>
    match dropBytes 4 s with
    | some (rest, inside) => .error ⟨.badEscape, rest, inside⟩
    | none => Fault.here (.unfinished .string) []

def isHighSurrogate (n : Nat) : Bool :=
  0xD800 ≤ n && n ≤ 0xDBFF

def isLowSurrogate (n : Nat) : Bool :=
  0xDC00 ≤ n && n ≤ 0xDFFF

def expectPairing (c : Char) : List Char → Except Fault (List Char)
  | [] => Fault.here (.unfinished .string) []
  | d :: s => if d = c then .ok s else Fault.next .missingSurrogate (d :: s)

/-- Read what follows `\u`: a character, or two surrogates that make one. -/
def readUnicode (s : List Char) : Except Fault (Char × List Char) := do
  let (n, s) ← readHex s
  if isLowSurrogate n then Fault.here .loneSurrogate s
  else if isHighSurrogate n then
    let s ← expectPairing '\\' s
    let s ← expectPairing 'u' s
    let (m, s) ← readHex s
    if isLowSurrogate m then
      return (Text.characterAt ((n - 0xD800) * 0x400 + (m - 0xDC00) + 0x10000), s)
    else Fault.here .loneSurrogate s
  else return (Text.characterAt n, s)

def escaped? (c : Char) : Option Char :=
  if c = '"' || c = '\\' || c = '/' then some c
  else if c = 'b' then some (Char.ofNat 8)
  else if c = 'f' then some (Char.ofNat 12)
  else if c = 'n' then some '\n'
  else if c = 'r' then some '\r'
  else if c = 't' then some '\t'
  else none

def readEscape : List Char → Except Fault (Char × List Char)
  | [] => Fault.here (.unfinished .string) []
  | 'u' :: s => readUnicode s
  | c :: s =>
    match escaped? c with
    | some d => .ok (d, s)
    | none => Fault.next .badEscape (c :: s)

/-- Read the rest of a string of limited length. Control characters have to be escaped; all
other characters may stand for themselves. -/
def readCharacters : Nat → List Char → Except Fault (List Char × List Char)
  | 0, s => Fault.here (.unfinished .string) s
  | _ + 1, [] => Fault.here (.unfinished .string) []
  | n + 1, c :: s =>
    if c = '"' then .ok ([], s)
    else if c = '\\' then do
      let (d, s) ← readEscape s
      let (text, s) ← readCharacters n s
      return (d :: text, s)
    else if c.toNat < 32 then Fault.next .controlCharacter (c :: s)
    else do
      let (text, s) ← readCharacters n s
      return (c :: text, s)

def readString (s : List Char) : Except Fault (String × List Char) := do
  let (text, s) ← readCharacters (s.length + 1) s
  return (String.ofList text, s)

/-! ### Skipping -/

/-- Skip what follows a backslash. Surrogates are not paired. -/
def skipEscape : List Char → Except Fault (List Char)
  | [] => Fault.here (.unfinished .string) []
  | 'u' :: s => do return (← readHex s).2
  | c :: s => if (escaped? c).isSome then .ok s else Fault.next .badEscape (c :: s)

def skipCharacters : Nat → List Char → Except Fault (List Char)
  | 0, s => Fault.here (.unfinished .string) s
  | _ + 1, [] => Fault.here (.unfinished .string) []
  | n + 1, c :: s =>
    if c = '"' then .ok s
    else if c = '\\' then do skipCharacters n (← skipEscape s)
    else if c.toNat < 32 then Fault.here .controlCharacter (c :: s)
    else skipCharacters n s

def skipString (s : List Char) : Except Fault (List Char) :=
  skipCharacters (s.length + 1) s

end Json

end MessageCatalog
