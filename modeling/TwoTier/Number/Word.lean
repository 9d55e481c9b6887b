/-! Arithmetic of 64-bit signed integers: the exact result, or why there is none. -/

namespace TwoTier

inductive ArithFault where
  | overflow
  | zeroDivision
  | domain
  | negativeShift
deriving DecidableEq, Repr

def ArithFault.message : ArithFault → String
  | overflow => "integer overflow"
  | zeroDivision => "division by zero"
  | domain => "math domain error"
  | negativeShift => "negative shift count"

namespace Word

def fit? (i : Int) : Option Int64 :=
  if Int64.minValue.toInt ≤ i ∧ i ≤ Int64.maxValue.toInt then some (Int64.ofInt i) else none

def add? (x y : Int64) : Option Int64 := fit? (x.toInt + y.toInt)

def sub? (x y : Int64) : Option Int64 := fit? (x.toInt - y.toInt)

def mul? (x y : Int64) : Option Int64 := fit? (x.toInt * y.toInt)

def neg? (x : Int64) : Option Int64 := fit? (-x.toInt)

def abs? (x : Int64) : Option Int64 := fit? x.toInt.natAbs

/-- The distance from zero as an unsigned word, total also at the least integer. -/
def magnitude (x : Int64) : UInt64 := if x < 0 then (-x).toUInt64 else x.toUInt64

def floorDiv (a b : Int64) : Except ArithFault Int64 :=
  if b = 0 then .error .zeroDivision
  else if a = Int64.minValue ∧ b = -1 then .error .overflow
  else if a % b ≠ 0 ∧ (decide (a < 0) != decide (b < 0)) then .ok (a / b - 1)
  else .ok (a / b)

def floorMod (a b : Int64) : Except ArithFault Int64 :=
  if b = 0 then .error .zeroDivision
  else
    let r := a % b
    if r ≠ 0 ∧ (decide (r < 0) != decide (b < 0)) then .ok (r + b) else .ok r

/-- `acc * base ^ exponent` by repeated squaring with a check on every product. -/
def powFrom (acc base : Int64) (exponent : Nat) : Option Int64 :=
  if exponent = 0 then some acc
  else if exponent = 1 then mul? acc base
  else
    match (if exponent % 2 = 1 then mul? acc base else some acc), mul? base base with
    | some acc, some base => powFrom acc base (exponent / 2)
    | _, _ => none
termination_by exponent
decreasing_by omega

def exponentLimit : Int64 := 4294967296

/-- A power. Past the exponent limit zero and one are their own powers, and minus one counts as
squared. -/
def pow (base exponent : Int64) : Except ArithFault Int64 :=
  if exponent < 0 then .error .domain
  else if exponentLimit ≤ exponent then
    if base = 0 ∨ base = 1 then .ok base
    else if base = -1 then .ok 1
    else .error .overflow
  else
    match powFrom 1 base exponent.toInt.toNat with
    | some value => .ok value
    | none => .error .overflow

def shiftLeft (a count : Int64) : Except ArithFault Int64 :=
  if count < 0 then .error .negativeShift
  else if a = 0 then .ok 0
  else if count ≥ 64 then .error .overflow
  else if (a <<< count) >>> count = a then .ok (a <<< count)
  else .error .overflow

def shiftRight (a count : Int64) : Except ArithFault Int64 :=
  if count < 0 then .error .negativeShift
  else .ok (a >>> (if count < 63 then count else 63))

end Word
end TwoTier
