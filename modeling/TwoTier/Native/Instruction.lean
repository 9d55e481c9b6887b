import TwoTier.Number.Binary64

/-! Integer operations by wrapping words and tests of bits; nothing is given where code is left. -/

namespace TwoTier.Native

/-- Whether a wrapped sum differs from the true one: both addends have the other sign. -/
def addOverflows (x y sum : Int64) : Bool := (x ^^^ sum) &&& (y ^^^ sum) < 0

def checkedAdd (x y : Int64) : Option Int64 :=
  let sum := x + y
  if addOverflows x y sum then none else some sum

def checkedSub (x y : Int64) : Option Int64 :=
  let diff := x - y
  if (x ^^^ y) &&& (x ^^^ diff) < 0 then none else some diff

/-- The upper half of the signed product of two words. -/
def mulHigh (x y : Int64) : Int64 := Int64.ofInt ((x.toInt * y.toInt).shiftRight 64)

def checkedMul (x y : Int64) : Option Int64 :=
  let low := x * y
  if mulHigh x y ≠ low >>> 63 then none else some low

def checkedNeg (x : Int64) : Option Int64 := if x = Int64.minValue then none else some (-x)

def checkedAbs (x : Int64) : Option Int64 :=
  if x = Int64.minValue then none else some (if x < 0 then -x else x)

/-- Division by one stands in for division by minus one, which can overflow. -/
def safeDivisor (y : Int64) : Int64 := if y = -1 then 1 else y

/-- Whether rounding toward zero has to be lowered by one. -/
def roundsUp (remainder y : Int64) : Bool := remainder ≠ 0 && remainder ^^^ y < 0

def floorQuotient (x y : Int64) : Option Int64 :=
  if y = 0 then none
  else if y = -1 ∧ x = Int64.minValue then none
  else
    let quotient := x / safeDivisor y
    let lowered := if roundsUp (x % safeDivisor y) y then quotient + -1 else quotient
    some (if y = -1 then -x else lowered)

def floorRemainder (x y : Int64) : Option Int64 :=
  if y = 0 then none
  else
    let remainder := x % safeDivisor y
    some (if roundsUp remainder y then remainder + y else remainder)

def clampShift (count : Int64) : Int64 := if count > 63 then 63 else count

def checkedShl (x y : Int64) : Option Int64 :=
  if y < 0 then none
  else
    let shifted := x <<< clampShift y
    let fits := shifted >>> clampShift y = x && y ≤ 63
    if fits || x = 0 then some shifted else none

def checkedShr (x y : Int64) : Option Int64 :=
  if y < 0 then none else some (x >>> clampShift y)

/-- The distance from zero, which fits in an unsigned word. -/
def unsignedAbs (x : Int64) : UInt64 := (if x < 0 then -x else x).toUInt64

/-- Whether an integer is in the range in which all integers are floats. -/
def fitsExactly (x : Int64) : Bool :=
  (x + Binary64.exactLimit).toUInt64 ≤ (2 * Binary64.exactLimit).toUInt64

/-- The position of an element; a negative index counts from the end. -/
def elementPosition (index length : Int64) : Option Nat :=
  let position := if index < 0 then index + length else index
  if position.toUInt64 ≥ length.toUInt64 then none else some position.toUInt64.toNat

/-- A total of distances with one more, unless it wraps. -/
def addDistance (total : UInt64) (before after : Int64) : Option UInt64 :=
  let sum := total + unsignedAbs (after - before)
  if sum < total then none else some sum

/-- Whether a sum that starts at `base` and moves by `total` in all stays in range. -/
def staysInRange (base : Int64) (total : UInt64) : Bool :=
  let bound := unsignedAbs base + total
  !(bound < unsignedAbs base) && !(bound.toInt64 < 0)

end TwoTier.Native
