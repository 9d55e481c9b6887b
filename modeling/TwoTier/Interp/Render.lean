import TwoTier.Interp.Run
import TwoTier.Number.Decimal

/-! The text of values, and when two values are equal. Both follow addresses through the heap, whose
size bounds the nesting of every value that is not part of itself. -/

namespace TwoTier.Interp

/-- A text in quotes, with backslashes and quotes escaped. -/
def quoted (text : String) : String :=
  let escaped := text.toList.flatMap fun c =>
    if c = '\\' then ['\\', '\\'] else if c = '\'' then ['\\', '\''] else [c]
  "'" ++ String.ofList escaped ++ "'"

def RangeValue.text (range : RangeValue) : String :=
  let bounds := toString range.start.toInt ++ ", " ++ toString range.stop.toInt
  if range.step = 1 then "range(" ++ bounds ++ ")"
  else "range(" ++ bounds ++ ", " ++ toString range.step.toInt ++ ")"

/-- The text of a value up to a depth of nesting; strings inside containers are quoted. -/
def Heap.render (heap : Heap) : Nat → Bool → Value → String
  | 0, _, _ => "..."
  | depth + 1, quote, value =>
    match value with
    | .none => "None"
    | .bool true => "True"
    | .bool false => "False"
    | .int i => toString i.toInt
    | .float x => Decimal.printed.write x
    | .str text => if quote then quoted text else text
    | .list address =>
      "[" ++ ", ".intercalate ((heap.items address).toList.map (heap.render depth true)) ++ "]"
    | .tuple address =>
      match (heap.items address).toList.map (heap.render depth true) with
      | [single] => "(" ++ single ++ ",)"
      | parts => "(" ++ ", ".intercalate parts ++ ")"
    | .dict address =>
      let parts := (heap.entries address).toList.map fun (key, item) =>
        heap.render depth true key ++ ": " ++ heap.render depth true item
      "\x7b" ++ ", ".intercalate parts ++ "\x7d"
    | .range range => range.text
    | .function name => "<function " ++ name ++ ">"
    | .builtin builtin => "<built-in function " ++ builtin.name ++ ">"
    | .closure _ => "<function <lambda>>"
    | .module name => "<module '" ++ name ++ "'>"

def Heap.depthBound (heap : Heap) : Nat := heap.objects.size + 2

def Heap.text (heap : Heap) (value : Value) : String := heap.render heap.depthBound false value

/-- The text of a value as it would be written. -/
def Heap.repr (heap : Heap) (value : Value) : String := heap.render heap.depthBound true value

/-- Order of two numbers, absent for a NaN and for anything that is no number. -/
def Value.compareNumbers? (a b : Value) : Option Ordering :=
  match a, b with
  | .int x, .int y => some (compare x y)
  | .float x, .float y => Binary64.compare? x y
  | .float x, other =>
    other.int?.bind fun i => (Binary64.compareWord? i x).map (·.swap)
  | other, .float y => other.int?.bind fun i => Binary64.compareWord? i y
  | first, second =>
    match first.int?, second.int? with
    | some i, some j => some (compare i j)
    | _, _ => Option.none

/-- Equality up to a depth of nesting. -/
def Heap.equalWithin (heap : Heap) : Nat → Value → Value → Bool
  | 0, _, _ => false
  | depth + 1, a, b =>
    if a.isNumber && b.isNumber then a.compareNumbers? b == some .eq
    else
      match a, b with
      | .none, .none => true
      | .str x, .str y => x == y
      | .list x, .list y =>
        x == y || sameItems depth (heap.items x).toList (heap.items y).toList
      | .tuple x, .tuple y => sameItems depth (heap.items x).toList (heap.items y).toList
      | .dict x, .dict y =>
        let xs := heap.entries x
        let ys := heap.entries y
        x == y || (xs.size == ys.size && xs.all fun (key, item) =>
          ys.any fun (key', item') =>
            heap.equalWithin depth key key' && heap.equalWithin depth item item')
      | .range x, .range y => x == y
      | .function x, .function y => x == y
      | .module x, .module y => x == y
      | .builtin x, .builtin y => x == y
      | .closure x, .closure y => x == y
      | _, _ => false
where
  /-- Equality item by item. -/
  sameItems (depth : Nat) : List Value → List Value → Bool
    | [], [] => true
    | x :: xs, y :: ys => heap.equalWithin depth x y && sameItems depth xs ys
    | _, _ => false

def Heap.equal (heap : Heap) (a b : Value) : Bool := heap.equalWithin heap.depthBound a b

def Heap.isTruthy (heap : Heap) : Value → Bool
  | .none => false
  | .bool value => value
  | .int value => value != 0
  | .float value => value != 0
  | .str text => !text.isEmpty
  | .list address | .tuple address => !(heap.items address).isEmpty
  | .dict address => !(heap.entries address).isEmpty
  | .range range => range.length != 0
  | .function _ | .builtin _ | .closure _ | .module _ => true

def Value.isSame : Value → Value → Bool
  | .none, .none => true
  | .bool x, .bool y => x == y
  | .int x, .int y => x == y
  | .list x, .list y | .dict x, .dict y | .tuple x, .tuple y => x == y
  | .str x, .str y => x == y
  | .function x, .function y => x == y
  | _, _ => false

end TwoTier.Interp
