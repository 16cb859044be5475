/-!
# Glob patterns

A pattern is matched against the whole text of a path. A star stands for any text and a
question mark for any character, separators included; brackets list characters. Two
stars have to be a whole component: they stand for any directories, or for everything
that is left.

Matching is stated by recursion on the pattern: a part that can stand for more than one
text tries every suffix that it may leave.
-/

namespace MessageCatalog

namespace Glob

/-- Characters that a bracket lists: from one character to another. -/
structure Range where
  first : Char
  last : Char
  deriving DecidableEq, Repr

inductive Token where
  | char (c : Char)
  | anyChar
  | anyText
  /-- Directories with their separators, or all that is left. -/
  | anyDirectories
  | oneOf (ranges : List Range)
  | noneOf (ranges : List Range)
  deriving DecidableEq, Repr

inductive Problem where
  | stars
  | partialComponent
  | range
  deriving DecidableEq, Repr

def Problem.message : Problem → String
  | .stars => "wildcards are either regular `*` or recursive `**`"
  | .partialComponent => "recursive wildcards must form a single path component"
  | .range => "invalid range pattern"

structure Fault where
  problem : Problem
  place : Nat
  deriving DecidableEq, Repr

def Fault.display (fault : Fault) : String :=
  "Pattern syntax error near position " ++ toString fault.place ++ ": " ++
    fault.problem.message

/-! ### Reading -/

/-- The ranges that are listed between brackets. A character that is not followed by a
hyphen and another character stands for itself. -/
def ranges : List Char → List Range
  | a :: '-' :: b :: s => ⟨a, b⟩ :: ranges s
  | a :: s => ⟨a, a⟩ :: ranges s
  | [] => []

def splitBracket : List Char → Option (List Char × List Char)
  | [] => none
  | c :: s =>
    match s.dropWhile (· != ']') with
    | [] => none
    | _ :: rest => some (c :: s.takeWhile (· != ']'), rest)

/-- Read a list of characters after its opening bracket. The first listed character may
be a closing bracket. -/
def readBracket? : List Char → Option (Token × List Char)
  | '!' :: s => do
    let (listed, rest) ← splitBracket s
    return (.noneOf (ranges listed), rest)
  | s => do
    let (listed, rest) ← splitBracket s
    return (.oneOf (ranges listed), rest)

/-- Read a run of stars. `before` is the character in front of it, `place` the place of
the first star and `s` what follows the run. -/
def readStars (count : Nat) (before : Option Char) (place : Nat) (s : List Char) :
    Except Fault (Token × List Char) :=
  if count = 1 then .ok (.anyText, s)
  else if 2 < count then .error ⟨.stars, place + 2⟩
  else if before.all (· = '/') then
    match s with
    | [] => .ok (.anyDirectories, [])
    | c :: rest =>
      if c = '/' then .ok (.anyDirectories, rest) else .error ⟨.partialComponent, place + 2⟩
  else .error ⟨.partialComponent, place - 1⟩

/-- Read the rest of a pattern. The total length tells places, the counter bounds what is left,
and the character in front decides whether stars start a component. -/
def readTokens (total : Nat) : Nat → Option Char → List Char → Except Fault (List Token)
  | 0, _, _ => .ok []
  | _ + 1, _, [] => .ok []
  | n + 1, before, c :: s => do
    let place := total - (s.length + 1)
    if c = '?' then return .anyChar :: (← readTokens total n (some c) s)
    else if c = '*' then
      let more := (s.takeWhile (· = '*')).length
      let (token, rest) ← readStars (more + 1) before place (s.drop more)
      -- A separator that belongs to the stars is the character in front of the rest.
      let last := if token = .anyDirectories && rest ≠ [] then '/' else '*'
      return token :: (← readTokens total n (some last) rest)
    else if c = '[' then
      match readBracket? s with
      | some (token, rest) => return token :: (← readTokens total n (some ']') rest)
      | none => throw ⟨.range, place⟩
    else return .char c :: (← readTokens total n (some c) s)

def parse (pattern : String) : Except Fault (List Token) :=
  let s := pattern.toList
  readTokens s.length s.length none s

/-- Whether a text asks for matching at all. Brackets alone do not: a text with brackets and no
other wildcard is a path. -/
def isPattern (text : String) : Bool :=
  text.toList.contains '*' || text.toList.contains '?'

/-! ### Matching -/

def Range.contains (range : Range) (c : Char) : Bool :=
  range.first ≤ c && c ≤ range.last

def Token.accepts : Token → Char → Bool
  | .char d, c => c = d
  | .anyChar, _ => true
  | .oneOf ranges, c => ranges.any (·.contains c)
  | .noneOf ranges, c => !ranges.any (·.contains c)
  | _, _ => false

/-- Whether some suffix of a text, the text itself included, has a property. -/
def anySuffix (p : List Char → Bool) : List Char → Bool
  | [] => p []
  | c :: s => p (c :: s) || anySuffix p s

def anyAfterSeparator (p : List Char → Bool) : List Char → Bool
  | [] => p []
  | c :: s => (c = '/' && p s) || anyAfterSeparator p s

/-- Whether the parts of a pattern match a text as a whole. -/
def isMatch : List Token → List Char → Bool
  | [], text => text.isEmpty
  | .anyText :: tokens, text => anySuffix (isMatch tokens) text
  | .anyDirectories :: tokens, text =>
    isMatch tokens text || anyAfterSeparator (isMatch tokens) text
  | _ :: _, [] => false
  | token :: tokens, c :: text => token.accepts c && isMatch tokens text

@[simp] theorem isMatch_nil (text : List Char) : isMatch [] text = text.isEmpty := by
  rw [isMatch]

end Glob

end MessageCatalog
