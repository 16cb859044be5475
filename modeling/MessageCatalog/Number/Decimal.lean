import MessageCatalog.Number.Binary64

/-!
# Decimal texts of numbers

Reading accepts an optional sign, then either digits with at most one point and an
optional exponent, or one of the words for the values that have no digits. The value
is the exact quotient that the text denotes, rounded once.

Writing gives the fewest digits that read back as the same number, and of those the
nearest to it, in positional form: no exponent, and no point unless a digit follows.
The digits are searched for by exact arithmetic. For one digit, two digits and so on,
the two neighbours of the number on that decimal grid are tested; the first grid with
a neighbour that rounds to the number wins, because a grid point in the interval of
reals that round to the number is there only if one of the two neighbours is.
-/

namespace MessageCatalog

namespace Decimal

def isDigit (c : Char) : Bool :=
  '0' ≤ c && c ≤ '9'

def digitValue (c : Char) : Nat :=
  c.toNat - '0'.toNat

def digitsValue (digits : List Char) : Nat :=
  digits.foldl (fun n c => 10 * n + digitValue c) 0

/-- The number with the given digits, of which the last stands at the decimal place
`exponent`. Exponents far outside the range of the format are decided by the count of
digits alone, so no huge power is ever formed. -/
def scale (negative : Bool) (digits : List Char) (exponent : Int) : Binary64 :=
  let significant := digits.dropWhile (· == '0')
  let top := exponent + significant.length
  if significant.isEmpty || top < -400 then .finite negative 0
  else if 400 < top then .infinite negative
  else if 0 ≤ exponent then
    .ofRatio negative (digitsValue significant * Nat.pow 10 exponent.toNat) 1
  else
    .ofRatio negative (digitsValue significant) (Nat.pow 10 (-exponent).toNat)

def readExponent? (s : List Char) : Option Int :=
  let (negative, digits) := match s with
    | '-' :: s => (true, s)
    | '+' :: s => (false, s)
    | s => (false, s)
  if digits.isEmpty || !digits.all isDigit then none
  else
    let n : Int := digitsValue digits
    some (if negative then -n else n)

/-- Read an unsigned number with digits. The point may stand first or last, but a
digit has to stand before or after it. -/
def readDigits? (negative : Bool) (s : List Char) : Option Binary64 :=
  let whole := s.takeWhile isDigit
  let (fraction, rest) := match s.dropWhile isDigit with
    | '.' :: s => (s.takeWhile isDigit, s.dropWhile isDigit)
    | s => ([], s)
  let value (exponent : Int) :=
    scale negative (whole ++ fraction) (exponent - fraction.length)
  if whole.isEmpty && fraction.isEmpty then none
  else match rest with
    | [] => some (value 0)
    | c :: s => if c = 'e' || c = 'E' then (readExponent? s).map value else none

/-- Read a number. The words for infinity and for no number may be written in either
case. -/
def read? (text : String) : Option Binary64 :=
  let (negative, s) := match text.toList with
    | '-' :: s => (true, s)
    | '+' :: s => (false, s)
    | s => (false, s)
  match String.ofList (s.map Char.toLower) with
  | "inf" | "infinity" => some (.infinite negative)
  | "nan" => some .nan
  | _ => readDigits? negative s

/-- A number in scientific form: digits with a point in front of them, times ten to the
power `exponent`. -/
structure Scientific where
  digits : List Char
  exponent : Int

/-- The decimal exponent of a positive count of units: ten to this power exceeds the
number, and a tenth of it does not. -/
def decimalExponent (units : Nat) : Int :=
  if Binary64.oneUnits ≤ units then
    (Nat.toDigits 10 (units / Binary64.oneUnits)).length
  else
    -- As many leading zeros as the reciprocal has whole digits, or one fewer.
    let inverse := (Nat.toDigits 10 (Binary64.oneUnits / units)).length
    if Binary64.oneUnits ≤ units * Nat.pow 10 (inverse - 1) then 2 - (inverse : Int)
    else 1 - (inverse : Int)

/-- Whether the point `n / d`, counted in quarter units, rounds to the given count of
units. The ends of the interval belong to it exactly if the significand is even. -/
def roundsTo (units n d : Nat) : Bool :=
  let places := Binary64.droppedPlaces units
  let ulp := Nat.pow 2 places
  let significand := units / ulp
  let below :=
    if significand = Nat.pow 2 (Binary64.precision - 1) && places != 0 then ulp else 2 * ulp
  let low := (4 * units - below) * d
  let high := (4 * units + 2 * ulp) * d
  if significand % 2 = 0 then low ≤ n && n ≤ high else low < n && n < high

/-- The neighbour on the grid with `count` digits that rounds to the number and is
nearest to it. On the grid, `g` stands for `g * 10 ^ (exponent - count)`. -/
def gridPoint? (units : Nat) (exponent : Int) (count : Nat) : Option Nat :=
  let step : Int := exponent - count
  let (up, down) : Nat × Nat :=
    if 0 ≤ step then (Nat.pow 10 step.toNat * Binary64.oneUnits, 1)
    else (Binary64.oneUnits, Nat.pow 10 (-step).toNat)
  -- The point `g` is `g * up / down` units.
  let g := units * down / up
  let hits (g : Nat) := roundsTo units (4 * g * up) down
  let left := units * down - g * up
  let right := (g + 1) * up - units * down
  match hits g, hits (g + 1) with
  | true, true => some (if left ≤ right then g else g + 1)
  | true, false => some g
  | false, true => some (g + 1)
  | false, false => none

/-- Try the grids with `count`, `count + 1`, … digits, at most `fuel` of them. The first with a
point that reads back is taken. -/
def searchGrids (units : Nat) (exponent : Int) : Nat → Nat → Scientific
  | 0, _ => ⟨[], exponent⟩
  | fuel + 1, count =>
    match gridPoint? units exponent count with
    | some g =>
      let digits := Nat.toDigits 10 g
      -- A carry out of the first digit moves the point.
      ⟨digits, exponent + ((digits.length : Int) - count)⟩
    | none => searchGrids units exponent fuel (count + 1)

/-- The fewest digits that read back as the given positive count of units. Seventeen
always do. -/
def shortest (units : Nat) : Scientific :=
  let found := searchGrids units (decimalExponent units) 17 1
  { found with digits := (found.digits.reverse.dropWhile (· == '0')).reverse }

/-- Write digits in positional form, with zeros where digits are missing on either side of the
point. A point is written only before a digit. -/
def Scientific.positional (s : Scientific) : List Char :=
  if s.exponent ≤ 0 then
    '0' :: '.' :: List.replicate (-s.exponent).toNat '0' ++ s.digits
  else
    let places := s.exponent.toNat
    if s.digits.length ≤ places then
      s.digits ++ List.replicate (places - s.digits.length) '0'
    else s.digits.take places ++ '.' :: s.digits.drop places

def writeUnits (units : Nat) : List Char :=
  if units = 0 then ['0'] else (shortest units).positional

end Decimal

end MessageCatalog
