import MessageCatalog.Json.Fault
import MessageCatalog.Text.Identifier

/-!
# Numbers in documents

An integer that fits into 64 bits is read exactly; every other number becomes a binary
one. Its digits are collected as long as they fit into 64 bits and then scaled by a
power of ten, so there are two roundings.
-/

namespace MessageCatalog

namespace Json

open Text (isAsciiDigit)

def largestNatural : Nat := Nat.pow 2 64 - 1

def largestNegative : Nat := Nat.pow 2 63

/-- The largest power of ten that a scaling step takes, which is the largest that is a finite
binary number. -/
def largestPower : Nat := 308

def digitValue (c : Char) : Nat :=
  c.toNat - '0'.toNat

/-- Append digits to a number as long as it fits: the number, how many digits were
taken, and what follows. -/
def absorb (n taken : Nat) : List Char → Nat × Nat × List Char
  | [] => (n, taken, [])
  | c :: s =>
    if isAsciiDigit c && n * 10 + digitValue c ≤ largestNatural then
      absorb (n * 10 + digitValue c) (taken + 1) s
    else (n, taken, c :: s)

def startsWithDigit (s : List Char) : Bool :=
  s.head?.any isAsciiDigit

def startsWithExponent (s : List Char) : Bool :=
  s.head? = some 'e' || s.head? = some 'E'

def powerOfTen (n : Nat) : Binary64 :=
  .ofNat (Nat.pow 10 n)

/-- Divide by powers of ten. A number that has become zero stays so, which ends the division
long before a huge exponent is used up. -/
def scaleDown : Nat → Binary64 → Nat → Binary64
  | 0, x, _ => x
  | steps + 1, x, places =>
    if places ≤ largestPower then x.div (powerOfTen places)
    else if x.isZero then x
    else scaleDown steps (x.div (powerOfTen largestPower)) (places - largestPower)

/-- Scale collected digits by a power of ten, which is the second rounding. A result that is too
large is a fault; one that is too small is zero. -/
def scaled (negative : Bool) (significand : Nat) (exponent : Int) (s : List Char) :
    Except Fault (Found × List Char) :=
  let x := Binary64.ofNat significand
  let sign (x : Binary64) := if negative then x.neg else x
  if exponent < 0 then .ok (.float (sign (scaleDown 4 x exponent.natAbs)), s)
  else if x.isZero then .ok (.float (sign x), s)
  else if exponent ≤ largestPower then
    match x.mul (powerOfTen exponent.toNat) with
    | .infinite _ => Fault.here .hugeNumber s
    | y => .ok (.float (sign y), s)
  else Fault.here .hugeNumber s

/-- The exponents that are kept have at most this magnitude. -/
def largestExponent : Nat := Nat.pow 2 31 - 1

/-- Collect the digits of an exponent: its magnitude and what follows, or, if it grows
too large, nothing and the rest from the digit after that. -/
def readMagnitude (n : Nat) : List Char → Option Nat × List Char
  | [] => (some n, [])
  | c :: s =>
    if isAsciiDigit c then
      if n * 10 + digitValue c ≤ largestExponent then readMagnitude (n * 10 + digitValue c) s
      else (none, s)
    else (some n, c :: s)

/-- Read an exponent after its mark. One that is too large for its word is a fault, unless the
number is zero or becomes so. -/
def readExponent (negative : Bool) (significand : Nat) (exponent : Int) (s : List Char) :
    Except Fault (Found × List Char) :=
  let (down, s) := match s with
    | '+' :: s => (false, s)
    | '-' :: s => (true, s)
    | s => (false, s)
  if s.isEmpty then Fault.here (.unfinished .value) []
  else if !startsWithDigit s then Fault.next .badNumber s
  else
    match readMagnitude 0 s with
    | (some n, s) => scaled negative significand (if down then exponent - n else exponent + n) s
    | (none, s) =>
      if significand != 0 && !down then Fault.here .hugeNumber s
      else .ok (.float (.finite negative 0), s.dropWhile isAsciiDigit)

def finishFloat (negative : Bool) (significand : Nat) (exponent : Int) (s : List Char) :
    Except Fault (Found × List Char) :=
  if startsWithExponent s then readExponent negative significand exponent (s.drop 1)
  else scaled negative significand exponent s

/-- Read the digits after a point, of which there has to be one. Digits that do not fit any more
are passed over. -/
def readFraction (negative : Bool) (significand : Nat) (exponent : Int) (s : List Char) :
    Except Fault (Found × List Char) :=
  let (n, taken, rest) := absorb significand 0 s
  if startsWithDigit rest then
    finishFloat negative n (exponent - taken) (rest.dropWhile isAsciiDigit)
  else if taken = 0 then
    if rest.isEmpty then Fault.here (.unfinished .value) [] else Fault.next .badNumber rest
  else finishFloat negative n (exponent - taken) rest

def finishNumber (negative : Bool) (n : Nat) (exponent : Nat) (s : List Char) :
    Except Fault (Found × List Char) :=
  match s with
  | '.' :: s => readFraction negative n exponent s
  | s => finishFloat negative n exponent s

/-- Read a number after its sign. An integer that fits is exact; negative zero and integers that
do not fit are binary numbers. -/
def readUnsigned (negative : Bool) (s : List Char) : Except Fault (Found × List Char) :=
  let exact (n : Nat) (s : List Char) : Except Fault (Found × List Char) :=
    if s.head? = some '.' || startsWithExponent s then finishNumber negative n 0 s
    else if !negative then .ok (.integer n, s)
    else if n = 0 || largestNegative < n then .ok (.float (Binary64.ofNat n).neg, s)
    else .ok (.integer (-n), s)
  match s with
  | [] => Fault.here (.unfinished .value) []
  | '0' :: s => if startsWithDigit s then Fault.next .badNumber s else exact 0 s
  | c :: s =>
    if !isAsciiDigit c then Fault.next .badNumber (c :: s)
    else
      let (n, _, rest) := absorb 0 0 (c :: s)
      if startsWithDigit rest then
        let digits := rest.takeWhile isAsciiDigit
        finishNumber negative n digits.length (rest.drop digits.length)
      else exact n rest

def skipDigits (s : List Char) : Except Fault (List Char) :=
  if startsWithDigit s then .ok (s.dropWhile isAsciiDigit) else Fault.next .badNumber s

def skipExponent (s : List Char) : Except Fault (List Char) :=
  if startsWithExponent s then
    match s.drop 1 with
    | '+' :: s => skipDigits s
    | '-' :: s => skipDigits s
    | s => skipDigits s
  else .ok s

def skipFraction : List Char → Except Fault (List Char)
  | '.' :: s => do skipExponent (← skipDigits s)
  | s => skipExponent s

/-- Skip a number after its sign. -/
def skipUnsigned : List Char → Except Fault (List Char)
  | '0' :: s => if startsWithDigit s then Fault.next .badNumber s else skipFraction s
  | s => do skipFraction (← skipDigits s)

end Json

end MessageCatalog
