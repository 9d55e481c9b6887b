import TwoTier.Native.Instruction
import TwoTier.Native.Machine

namespace TwoTier.Native

open Typed (ArgOf CastOp Comparison Expr Extremum RoutineIndex UnaryOp)

variable {σ : Type}

/-- Integer arithmetic; true division has no instruction for integers. -/
def intArith (op : ArithOp) (x y : Int64) : Step σ Int64 :=
  match op with
  | .add => Step.ofOption (checkedAdd x y)
  | .sub => Step.ofOption (checkedSub x y)
  | .mul => Step.ofOption (checkedMul x y)
  | .floorDiv => Step.ofOption (floorQuotient x y)
  | .mod => Step.ofOption (floorRemainder x y)
  | .pow => Step.ofOption (Word.pow x y).toOption
  | .bitAnd => pure (x &&& y)
  | .bitOr => pure (x ||| y)
  | .bitXor => pure (x ^^^ y)
  | .shl => Step.ofOption (checkedShl x y)
  | .shr => Step.ofOption (checkedShr x y)
  | .div => Step.stuck

def floatArith (op : ArithOp) (x y : Float) : Step σ Float :=
  match op with
  | .add => pure (x + y)
  | .sub => pure (x - y)
  | .mul => pure (x * y)
  | .div => Step.ofOption (Binary64.div x y).toOption
  | .floorDiv => Step.ofOption (Binary64.floorDiv x y).toOption
  | .mod => Step.ofOption (Binary64.floorMod x y).toOption
  | .pow => Step.ofOption (Binary64.pow x y).toOption
  | .bitAnd | .bitOr | .bitXor | .shl | .shr => Step.stuck

def arith (op : ArithOp) (left right : Scalar) : Step σ Scalar :=
  match left, right with
  | .int x, .int y => do return .int (← intArith op x y)
  | .float x, .float y => do return .float (← floatArith op x y)
  | _, _ => Step.stuck

def unary (op : UnaryOp) (operand : Scalar) : Step σ Scalar :=
  match op, operand with
  | .neg, .int x => do return .int (← Step.ofOption (checkedNeg x))
  | .neg, .float x => pure (.float (-x))
  | .invert, .int x => pure (.int (~~~x))
  | .not, x => pure (.bool !x.truth)
  | _, _ => Step.stuck

def intHolds (op : Comparison) (x y : Int64) : Bool :=
  match op with
  | .eq => x == y
  | .ne => x != y
  | .lt => x < y
  | .le => x ≤ y
  | .gt => x > y
  | .ge => x ≥ y

def floatHolds (op : Comparison) (x y : Float) : Bool :=
  match op with
  | .eq => x == y
  | .ne => x != y
  | .lt => x < y
  | .le => x ≤ y
  | .gt => x > y
  | .ge => x ≥ y

def compare (op : Comparison) (left right : Scalar) : Step σ Scalar :=
  match left, right with
  | .int x, .int y => pure (.bool (intHolds op x y))
  | .float x, .float y => pure (.bool (floatHolds op x y))
  | .bool x, .bool y => pure (.bool (intHolds op (if x then 1 else 0) (if y then 1 else 0)))
  | _, _ => Step.stuck

def cast (op : CastOp) (operand : Scalar) : Step σ Scalar :=
  match op, operand with
  | .intToFloat, .int x => pure (.float x.toFloat)
  | .intToFloatExact, .int x => if fitsExactly x then pure (.float x.toFloat) else Step.deopt
  | .floatToInt, .float x => do return .int (← Step.ofOption (Binary64.toWord x).toOption)
  | .boolToInt, .bool x => pure (.int (if x then 1 else 0))
  | .boolToFloat, .bool x => pure (.float (if x then 1.0 else 0.0))
  | .toBool, x => pure (.bool x.truth)
  | _, _ => Step.stuck

def absolute (operand : Scalar) : Step σ Scalar :=
  match operand with
  | .int x => do return .int (← Step.ofOption (checkedAbs x))
  | .float x => pure (.float x.abs)
  | .bool _ => Step.stuck

/-- The first of the two that is extreme. -/
def extremum (op : Extremum) (left right : Scalar) : Step σ Scalar :=
  match op, left, right with
  | .min, .int x, .int y => pure (.int (if y < x then y else x))
  | .max, .int x, .int y => pure (.int (if y > x then y else x))
  | .min, .float x, .float y => pure (.float (if y < x then y else x))
  | .max, .float x, .float y => pure (.float (if y > x then y else x))
  | _, _, _ => Step.stuck

def requireInt (value : Scalar) : Step σ Int64 :=
  match value with
  | .int x => pure x
  | _ => Step.stuck

def requireBool (value : Scalar) : Step σ Bool :=
  match value with
  | .bool x => pure x
  | _ => Step.stuck

abbrev Callee := RoutineIndex → List Slot → Step Shared Scalar

mutual

def eval (call : Callee) (expr : Expr) : Step Machine Scalar :=
  match expr with
  | .const value => pure value
  | .var id _ => Machine.read id
  | .unary op operand => do
    let x ← eval call operand
    unary op x
  | .binary op left right => do
    let x ← eval call left
    let y ← eval call right
    arith op x y
  | .compare op left right => do
    let x ← eval call left
    let y ← eval call right
    compare op x y
  | .logic op left right => do
    let x ← eval call left
    if op.keepsLeft x.truth then pure x else eval call right
  | .select cond yes no => do
    let holds ← requireBool (← eval call cond)
    if holds then eval call yes else eval call no
  | .cast op operand => do
    let x ← eval call operand
    cast op x
  | .index array _ position => do
    let index ← requireInt (← eval call position)
    let length ← Machine.length array
    let found ← Step.ofOption (elementPosition index length)
    Machine.load array found
  | .len array => do return .int (← Machine.length array)
  | .call callee _ args => do
    let args ← evalArgs call args
    Machine.onShared (call callee args)
  | .abs operand => do
    let x ← eval call operand
    absolute x
  | .extremum op left right => do
    let x ← eval call left
    let y ← eval call right
    extremum op x y

def evalArgs (call : Callee) (args : List (ArgOf Expr)) : Step Machine (List Slot) :=
  match args with
  | [] => pure []
  | .scalar value :: rest => do
    let value ← eval call value
    let others ← evalArgs call rest
    pure (.scalar value :: others)
  | .array id :: rest => fun machine =>
    match machine.slots[id]? with
    | some (.array buffer) =>
      Step.bind (evalArgs call rest) (fun others => pure (.array buffer :: others)) machine
    | _ => .stuck

end

theorem eval_var (call : Callee) (id : Typed.LocalId) (type : NumType) :
    eval call (.var id type) = Machine.read id := by
  rw [eval]

def evalInt (call : Callee) (expr : Expr) : Step Machine Int64 := do
  requireInt (← eval call expr)

end TwoTier.Native
