import TwoTier.Number.Word

/-! Exact decomposition, rounding of ratios, remainders, powers and comparisons of floats. -/

namespace TwoTier.Binary64

def signBit : UInt64 := 0x8000000000000000

def infinity : Float := Float.ofBits 0x7ff0000000000000

def isNegative (x : Float) : Bool := x.toBits &&& signBit != 0

def withSign (negative : Bool) (x : Float) : Float :=
  let bits := x.toBits &&& 0x7fffffffffffffff
  Float.ofBits (if negative then bits ||| signBit else bits)

/-- The magnitude of the first number with the sign of the second. -/
def copySign (x sign : Float) : Float := withSign (isNegative sign) x

/-- A finite magnitude as `mantissa * 2 ^ (exponent - 1074)`, with a mantissa below `2 ^ 53`. -/
structure Scaled where
  mantissa : Nat
  exponent : Nat

def scaled (x : Float) : Scaled :=
  let bits := x.toBits.toNat % Nat.pow 2 63
  let biased := bits / Nat.pow 2 52
  let fraction := bits % Nat.pow 2 52
  if biased = 0 then ⟨fraction, 0⟩ else ⟨fraction + Nat.pow 2 52, biased - 1⟩

/-- The quotient rounded to the nearest integer, a tie going to the even one. -/
def roundDiv (num den : Nat) : Nat :=
  let quotient := num / den
  let twice := 2 * (num % den)
  if twice > den ∨ (twice = den ∧ quotient % 2 = 1) then quotient + 1 else quotient

/-- The bits of the float nearest to `num / den`, or of infinity beyond the largest one. -/
def nearestBits (num den : Nat) : Nat :=
  if num = 0 then 0
  else
    -- the position of the leading bit, up to one, counted from the smallest float
    let lead := (num.log2 : Int) - den.log2 + 1074
    let guess := (lead - 52).toNat
    let scaleBy (shift : Nat) (exponent : Nat) : Nat × Nat :=
      if exponent ≤ shift then (num * Nat.pow 2 (shift - exponent), den)
      else (num, den * Nat.pow 2 (exponent - shift))
    let exponent :=
      let (top, bottom) := scaleBy 1074 guess
      if top / bottom < Nat.pow 2 52 then guess - 1 else guess
    let (top, bottom) := scaleBy 1074 exponent
    min (exponent * Nat.pow 2 52 + roundDiv top bottom) 0x7ff0000000000000

def nearest (negative : Bool) (num den : Nat) : Float :=
  withSign negative (Float.ofBits (UInt64.ofNat (nearestBits num den)))

/-- Integers up to this magnitude convert to floats without rounding. -/
def exactLimit : Int64 := 9007199254740992

def isExact (i : Int64) : Bool := Word.magnitude i ≤ exactLimit.toUInt64

def ofQuotient (a b : Int64) : Except ArithFault Float :=
  if b = 0 then .error .zeroDivision
  else if isExact a && isExact b then .ok (a.toFloat / b.toFloat)
  else
    let negative := decide (a < 0) != decide (b < 0)
    .ok (nearest negative a.toInt.natAbs b.toInt.natAbs)

def truncate (x : Float) : Float := if x < 0 then x.ceil else x.floor

def hasFraction (x : Float) : Bool := x - truncate x != 0

/-- The remainder of truncating division, exact, with the sign of the dividend. -/
def remainder (a b : Float) : Float :=
  if a.isNaN || b.isNaN || a.isInf || b == 0 then 0.0 / 0.0
  else if b.isInf then a
  else
    let x := scaled a
    let y := scaled b
    let low := min x.exponent y.exponent
    let top := x.mantissa * Nat.pow 2 (x.exponent - low)
    let bottom := y.mantissa * Nat.pow 2 (y.exponent - low)
    nearest (isNegative a) (top % bottom * Nat.pow 2 low) (Nat.pow 2 1074)

def floorModNonzero (a b : Float) : Float :=
  let m := remainder a b
  if m != 0 then
    if (b < 0) != (m < 0) then m + b else m
  else copySign 0.0 b

def floorDivNonzero (a b : Float) : Float :=
  let m := remainder a b
  let div := (a - m) / b
  let div := if m != 0 && ((b < 0) != (m < 0)) then div - 1.0 else div
  if div != 0 then
    let floor := div.floor
    if div - floor > 0.5 then floor + 1.0 else floor
  else copySign 0.0 (a / b)

def nonzero (b : Float) (result : Float) : Except ArithFault Float :=
  if b == 0 then .error .zeroDivision else .ok result

def floorMod (a b : Float) : Except ArithFault Float := nonzero b (floorModNonzero a b)

def floorDiv (a b : Float) : Except ArithFault Float := nonzero b (floorDivNonzero a b)

def div (a b : Float) : Except ArithFault Float := nonzero b (a / b)

def isOddInteger (x : Float) : Bool := !hasFraction x && (remainder x 2.0).abs == 1.0

/-- A power of an infinite base with a finite nonzero exponent. -/
def powInfinite (base exponent : Float) : Float :=
  if base > 0 then (if exponent > 0 then base else 0.0)
  else if exponent > 0 then (if isOddInteger exponent then base else -base)
  else if isOddInteger exponent then -0.0 else 0.0

/-- A power in the real domain; a result beyond the largest float is an overflow. -/
def pow (base exponent : Float) : Except ArithFault Float :=
  if exponent == 0 then .ok 1.0
  else if base.isNaN then .ok base
  else if exponent.isNaN then .ok (if base == 1.0 then 1.0 else exponent)
  else if exponent.isInf then
    .ok (if base.abs == 1.0 then 1.0
      else if (exponent > 0) == (base.abs > 1.0) then infinity else 0.0)
  else if base.isInf then .ok (powInfinite base exponent)
  else if base == 0 then
    if exponent < 0 then .error .zeroDivision
    else .ok (if isOddInteger exponent then base else 0.0)
  else if base < 0 && hasFraction exponent then .error .domain
  else
    let negate := base < 0 && isOddInteger exponent
    let magnitude := if base < 0 then -base else base
    if magnitude == 1.0 then .ok (if negate then -1.0 else 1.0)
    else
      let result := magnitude.pow exponent
      if result.isInf then .error .overflow else .ok (if negate then -result else result)

def wordLimit : Float := 9223372036854775808.0

def toWord (x : Float) : Except ArithFault Int64 :=
  if x.isNaN then .error .domain
  else
    let whole := truncate x
    if whole ≥ wordLimit || whole < -wordLimit then .error .overflow else .ok whole.toInt64

/-- Order of two floats, absent for a NaN. -/
def compare? (x y : Float) : Option Ordering :=
  if x < y then some .lt else if x == y then some .eq else if x > y then some .gt else none

/-- Exact order of an integer and a float, absent for a NaN. -/
def compareWord? (i : Int64) (x : Float) : Option Ordering :=
  if x.isNaN then none
  else if isExact i || x.isInf then compare? i.toFloat x
  else if x ≥ wordLimit then some .lt
  else if x < -wordLimit then some .gt
  else
    let whole := truncate x
    match compare i whole.toInt64 with
    | .eq => compare? 0.0 (x - whole)
    | other => some other

/-- The first argument wins ties and incomparable pairs. -/
def maximum (a b : Float) : Float := if b > a then b else a

/-- The first argument wins ties and incomparable pairs. -/
def minimum (a b : Float) : Float := if b < a then b else a

end TwoTier.Binary64
