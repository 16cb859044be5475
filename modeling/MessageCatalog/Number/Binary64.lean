/-!
# Binary floating-point numbers of 64 bits

Every finite number of this format is a whole multiple of the smallest positive one,
which is two to the power of minus 1074. A finite number is therefore kept as a sign
and a natural number of such units, and each operation is exact arithmetic on units
followed by one rounding to the nearest representable count, ties going to the even
significand. No built-in floating-point operation is involved.

The sign of zero is kept, because negation produces it and the bit pattern shows it.
-/

namespace MessageCatalog

/-- A number of the 64-bit binary format. A finite number counts units of two to the power of
minus 1074; which counts are representable is not part of the type, but every operation rounds
to one. -/
inductive Binary64 where
  | nan
  | infinite (negative : Bool)
  | finite (negative : Bool) (units : Nat)
  deriving DecidableEq, Repr

namespace Binary64

def unitPlaces : Nat := 1074

def oneUnits : Nat := Nat.pow 2 unitPlaces

def overflowUnits : Nat := Nat.pow 2 (unitPlaces + 1024)

def precision : Nat := 53

/-- The quotient rounded to the nearest whole number, a tie going to the even one. -/
def roundDiv (num den : Nat) : Nat :=
  let q := num / den
  let r := 2 * (num % den)
  if r < den then q
  else if den < r then q + 1
  else q + q % 2

/-- How many binary places a count of units loses when it is rounded: none up to the
precision, and otherwise all beyond it. -/
def droppedPlaces (units : Nat) : Nat :=
  if units < Nat.pow 2 precision then 0 else units.log2 + 1 - precision

/-- The representable count of units nearest to a quotient. -/
def roundUnits (num den : Nat) : Nat :=
  let places := droppedPlaces (num / den)
  let step := Nat.pow 2 places
  roundDiv num (den * step) * step

def ofUnits (negative : Bool) (num den : Nat) : Binary64 :=
  let units := roundUnits num den
  if units < overflowUnits then .finite negative units else .infinite negative

def ofRatio (negative : Bool) (num den : Nat) : Binary64 :=
  ofUnits negative (num * oneUnits) den

def ofNat (n : Nat) : Binary64 :=
  ofRatio false n 1

/-- Append a digit to the digits of a number, to some base. There is one rounding. -/
def appendDigit (base : Nat) (x : Binary64) (digit : Nat) : Binary64 :=
  match x with
  | .finite negative units => ofUnits negative (units * base + digit * oneUnits) 1
  | x => x

def zero : Binary64 := .finite false 0

def one : Binary64 := .finite false oneUnits

def neg : Binary64 → Binary64
  | .nan => .nan
  | .infinite negative => .infinite !negative
  | .finite negative units => .finite (!negative) units

def isZero : Binary64 → Bool
  | .finite _ units => units == 0
  | _ => false

/-- Add two numbers. Sums of opposite numbers are positive zero, and zeros of one sign keep
their sign. -/
def add : Binary64 → Binary64 → Binary64
  | .nan, _ => .nan
  | _, .nan => .nan
  | .infinite a, .infinite b => if a = b then .infinite a else .nan
  | .infinite a, .finite _ _ => .infinite a
  | .finite _ _, .infinite b => .infinite b
  | .finite a m, .finite b n =>
    if a = b then ofUnits a (m + n) 1
    else if n < m then ofUnits a (m - n) 1
    else if m < n then ofUnits b (n - m) 1
    else .finite false 0

def mul : Binary64 → Binary64 → Binary64
  | .nan, _ => .nan
  | _, .nan => .nan
  | .infinite a, .infinite b => .infinite (a != b)
  | .infinite a, .finite b n => if n = 0 then .nan else .infinite (a != b)
  | .finite a m, .infinite b => if m = 0 then .nan else .infinite (a != b)
  | .finite a m, .finite b n => ofUnits (a != b) (m * n) oneUnits

def div : Binary64 → Binary64 → Binary64
  | .nan, _ => .nan
  | _, .nan => .nan
  | .infinite _, .infinite _ => .nan
  | .infinite a, .finite b _ => .infinite (a != b)
  | .finite a _, .infinite b => .finite (a != b) 0
  | .finite a m, .finite b n =>
    if n = 0 then if m = 0 then .nan else .infinite (a != b)
    else ofUnits (a != b) (m * oneUnits) n

def toInt? : Binary64 → Option Int
  | .finite negative units =>
    if units % oneUnits = 0 then
      let n : Int := (units / oneUnits : Nat)
      some (if negative then -n else n)
    else none
  | _ => none

/-- The 64 bits of a finite count of units, the sign apart: the biased exponent field
above the 52 stored digits of the significand. -/
def magnitudeBits (units : Nat) : Nat :=
  let leading := Nat.pow 2 (precision - 1)
  if units < leading then units
  else
    let places := units.log2 + 1 - precision
    (places + 1) * leading + (units / Nat.pow 2 places - leading)

def signBit (negative : Bool) : Nat :=
  if negative then 0x8000000000000000 else 0

/-- The bit pattern of a number. All undefined results share one pattern. -/
def toBits : Binary64 → Nat
  | .nan => 0x7ff8000000000000
  | .infinite negative => signBit negative + 0x7ff0000000000000
  | .finite negative units => signBit negative + magnitudeBits units

@[simp] theorem isZero_neg (x : Binary64) : x.neg.isZero = x.isZero := by
  cases x <;> rfl

end Binary64

end MessageCatalog
