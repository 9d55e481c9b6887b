import TwoTier.Typed.Kind

namespace TwoTier

/-- Arithmetic of typed expressions. An integer power has a nonnegative constant exponent. -/
inductive ArithOp where
  | add | sub | mul | div | floorDiv | mod | pow
  | bitAnd | bitOr | bitXor | shl | shr
deriving DecidableEq, Repr, Inhabited

def ArithOp.symbol : ArithOp → String
  | add => "+" | sub => "-" | mul => "*" | div => "/" | floorDiv => "//" | mod => "%"
  | pow => "**" | bitAnd => "&" | bitOr => "|" | bitXor => "^" | shl => "<<" | shr => ">>"

/-- The update of an accumulator. Parts of a difference are folded by addition. -/
inductive ReductionOp where
  | add | sub | mul | min | max
deriving DecidableEq, Repr, Inhabited

namespace ReductionOp

def name : ReductionOp → String
  | add => "add" | sub => "sub" | mul => "mul" | min => "min" | max => "max"

/-- The operator that folds parts, except for the extrema. -/
def fold? : ReductionOp → Option ArithOp
  | add | sub => some .add
  | mul => some .mul
  | min | max => none

/-- Where a part starts. Float sums start from negative zero, which leaves every term unchanged. -/
def identity : ReductionOp → NumType → Scalar
  | add, .float | sub, .float => .float (-0.0)
  | mul, .float => .float 1.0
  | add, _ | sub, _ => .int 0
  | mul, _ => .int 1
  | min, _ => .int Int64.maxValue
  | max, _ => .int Int64.minValue

/-- Folds a part into a word accumulator, if the result is in range. -/
def foldWord? (op : ReductionOp) (acc part : Int64) : Option Int64 :=
  match op with
  | add | sub => Word.add? acc part
  | mul => Word.mul? acc part
  | min => some (if part < acc then part else acc)
  | max => some (if acc < part then part else acc)

def foldFloat (op : ReductionOp) (acc part : Float) : Float :=
  match op with
  | add | sub => acc + part
  | mul => acc * part
  | min => Binary64.minimum acc part
  | max => Binary64.maximum acc part

/-- The number under which an operator is passed between pieces of machine code. -/
def number : ReductionOp → Nat
  | add => 1 | sub => 2 | mul => 3 | min => 4 | max => 5

def ofNumber? : Nat → Option ReductionOp
  | 1 => some add | 2 => some sub | 3 => some mul | 4 => some min | 5 => some max
  | _ => none

end ReductionOp

structure Reduction where
  acc : Nat
  op : ReductionOp
  type : NumType
deriving DecidableEq, Repr, Inhabited

namespace Reduction

/-- Marks float accumulators in a code. -/
def floatMark : Nat := 16

/-- The operator with a mark for floats, and zero when there is nothing to fold. -/
def code : Option Reduction → Nat
  | none => 0
  | some reduction =>
    if reduction.type = .float then reduction.op.number + floatMark else reduction.op.number

/-- Folds a part into an accumulator, both given as patterns, by the code of the operator. -/
def foldPattern? (code : Nat) (acc part : UInt64) : Option UInt64 :=
  if code % 16 = 0 then some 0
  else
    match ReductionOp.ofNumber? (code % 16) with
    | none => none
    | some op =>
      if (code / floatMark) % 2 = 1 then
        some (op.foldFloat (Float.ofBits acc) (Float.ofBits part)).toBits
      else (op.foldWord? acc.toInt64 part.toInt64).map (·.toUInt64)

end Reduction
end TwoTier
