import TwoTier.Surface.Expr
import TwoTier.Table
import TwoTier.Typed.Kind

/-! Dynamic values. Objects are known by their address, so two names can hold the same one. -/

namespace TwoTier.Interp

inductive MathFunction where
  | sqrt | floor | ceil | exp | log | sin | cos | fabs | isnan
deriving DecidableEq, Repr

namespace MathFunction

def name : MathFunction → String
  | sqrt => "sqrt" | floor => "floor" | ceil => "ceil" | exp => "exp" | log => "log"
  | sin => "sin" | cos => "cos" | fabs => "fabs" | isnan => "isnan"

def all : List MathFunction := [sqrt, floor, ceil, exp, log, sin, cos, fabs, isnan]

def ofName? (text : String) : Option MathFunction := all.find? (·.name == text)

end MathFunction

inductive Builtin where
  | range | len | abs | min | max | int | float | bool | sum | str | list | print
  | math (function : MathFunction)
deriving DecidableEq, Repr

namespace Builtin

def name : Builtin → String
  | range => "range" | len => "len" | abs => "abs" | min => "min" | max => "max" | int => "int"
  | float => "float" | bool => "bool" | sum => "sum" | str => "str" | list => "list"
  | print => "print" | math function => function.name

def common : List Builtin :=
  [range, len, abs, min, max, int, float, bool, sum, str, list, print]

def ofName? (text : String) : Option Builtin := common.find? (·.name == text)

end Builtin

/-- The integers from a start up to a stop in steps, none of which is stored. -/
structure RangeValue where
  start : Int64
  stop : Int64
  step : Int64
deriving DecidableEq, Repr

namespace RangeValue

def length (range : RangeValue) : Int64 :=
  let (low, high, step) :=
    if range.step > 0 then (range.start, range.stop, range.step)
    else (range.stop, range.start, -range.step)
  if low ≥ high then 0
  else Int64.ofInt ((high.toInt - low.toInt - 1).tdiv step.toInt + 1)

def count (range : RangeValue) : Nat := range.length.toInt.toNat

def nth (range : RangeValue) (position : Nat) : Int64 :=
  range.start + Int64.ofNat position * range.step

def contains (range : RangeValue) (i : Int64) : Bool :=
  let inside :=
    if range.step > 0 then decide (range.start ≤ i) && decide (i < range.stop)
    else decide (i ≤ range.start) && decide (range.stop < i)
  inside && (i.toInt - range.start.toInt).tmod range.step.toInt == 0

end RangeValue

abbrev Address := Nat

inductive Value where
  | none
  | bool (value : Bool)
  | int (value : Int64)
  | float (value : Float)
  | str (text : String)
  | list (address : Address)
  | tuple (address : Address)
  | dict (address : Address)
  | range (range : RangeValue)
  /-- a function of the module, known by its name -/
  | function (name : String)
  | builtin (builtin : Builtin)
  | closure (address : Address)
  | module (name : String)
deriving Inhabited

namespace Value

def typeName : Value → String
  | none => "NoneType"
  | bool _ => "bool"
  | int _ => "int"
  | float _ => "float"
  | str _ => "str"
  | list _ => "list"
  | tuple _ => "tuple"
  | dict _ => "dict"
  | range _ => "range"
  | function _ | closure _ => "function"
  | builtin _ => "builtin_function_or_method"
  | module _ => "module"

def ofScalar : Scalar → Value
  | .int value => int value
  | .float value => float value
  | .bool value => bool value

def isNumber : Value → Bool
  | bool _ | int _ | float _ => true
  | _ => false

def int? : Value → Option Int64
  | int value => some value
  | bool value => some (if value then 1 else 0)
  | _ => Option.none

/-- A number as a float; an integer is rounded. -/
def float? : Value → Option Float
  | float value => some value
  | int value => some value.toFloat
  | bool value => some (if value then 1.0 else 0.0)
  | _ => Option.none

end Value

/-- A function without a name, with the local values it was made among. -/
structure Closure where
  params : List String
  body : Surface.Expr
  captured : Table Value

inductive Object where
  | list (items : Array Value)
  | tuple (items : Array Value)
  /-- entries in insertion order -/
  | dict (entries : Array (Value × Value))
  | closure (closure : Closure)

structure Heap where
  objects : Array Object

namespace Heap

def empty : Heap := ⟨#[]⟩

def alloc (heap : Heap) (object : Object) : Address × Heap :=
  (heap.objects.size, ⟨heap.objects.push object⟩)

def items (heap : Heap) (address : Address) : Array Value :=
  match heap.objects[address]? with
  | some (.list items) | some (.tuple items) => items
  | _ => #[]

def entries (heap : Heap) (address : Address) : Array (Value × Value) :=
  match heap.objects[address]? with
  | some (.dict entries) => entries
  | _ => #[]

def modifyItems (heap : Heap) (address : Address) (change : Array Value → Array Value) : Heap :=
  ⟨heap.objects.modify address fun
    | .list items => .list (change items)
    | other => other⟩

def modifyEntries (heap : Heap) (address : Address)
    (change : Array (Value × Value) → Array (Value × Value)) : Heap :=
  ⟨heap.objects.modify address fun
    | .dict entries => .dict (change entries)
    | other => other⟩

def closure? (heap : Heap) (address : Address) : Option Closure :=
  match heap.objects[address]? with
  | some (.closure closure) => some closure
  | _ => none

end Heap
end TwoTier.Interp
