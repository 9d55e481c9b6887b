import TwoTier.Interp.Render

namespace TwoTier.Interp

open Surface (BinOp CmpOp UnaryOp)

def newList (items : Array Value) : Run Heap Value := fun heap =>
  let (address, heap) := heap.alloc (.list items)
  .ok (.list address) heap

def newTuple (items : Array Value) : Run Heap Value := fun heap =>
  let (address, heap) := heap.alloc (.tuple items)
  .ok (.tuple address) heap

def newDict (entries : Array (Value × Value)) : Run Heap Value := fun heap =>
  let (address, heap) := heap.alloc (.dict entries)
  .ok (.dict address) heap

def operandFault (op : String) (a b : Value) : Exception :=
  .type ("unsupported operand type(s) for " ++ op ++ ": '" ++ a.typeName ++ "' and '" ++
    b.typeName ++ "'")

def iterate (value : Value) : Run Heap (Array Value) := do
  let heap ← Run.get
  match value with
  | .list address | .tuple address => return heap.items address
  | .range range =>
    return ((List.range range.count).map fun k => Value.int (range.nth k)).toArray
  | .str text => return (text.toList.map fun c => Value.str (String.singleton c)).toArray
  | .dict address => return (heap.entries address).map (·.1)
  | other => Run.raise (.type ("'" ++ other.typeName ++ "' object is not iterable"))

def checked (result : Option Int64) : Run Heap Value :=
  match result with
  | some value => return .int value
  | none => Run.raise (.ofFault .overflow)

def wordBinary (op : BinOp) (x y : Int64) : Run Heap Value :=
  match op with
  | .add => checked (Word.add? x y)
  | .sub => checked (Word.sub? x y)
  | .mul => checked (Word.mul? x y)
  | .div => Value.float <$> Run.ofArith (Binary64.ofQuotient x y)
  | .floorDiv => Value.int <$> Run.ofArith (Word.floorDiv x y)
  | .mod => Value.int <$> Run.ofArith (Word.floorMod x y)
  | .pow =>
    if y < 0 then Value.float <$> Run.ofArith (Binary64.pow x.toFloat y.toFloat)
    else Value.int <$> Run.ofArith (Word.pow x y)
  | .bitAnd => return .int (x &&& y)
  | .bitOr => return .int (x ||| y)
  | .bitXor => return .int (x ^^^ y)
  | .shl => Value.int <$> Run.ofArith (Word.shiftLeft x y)
  | .shr => Value.int <$> Run.ofArith (Word.shiftRight x y)
  | .matMul => Run.raise (operandFault op.symbol (.int x) (.int y))

def floatBinary (op : BinOp) (a b : Value) : Run Heap Value :=
  match a.float?, b.float? with
  | some x, some y =>
    match op with
    | .add => return .float (x + y)
    | .sub => return .float (x - y)
    | .mul => return .float (x * y)
    | .div => Value.float <$> Run.ofArith (Binary64.div x y)
    | .floorDiv => Value.float <$> Run.ofArith (Binary64.floorDiv x y)
    | .mod => Value.float <$> Run.ofArith (Binary64.floorMod x y)
    | .pow => Value.float <$> Run.ofArith (Binary64.pow x y)
    | .bitAnd | .bitOr | .bitXor | .shl | .shr | .matMul => Run.raise (operandFault op.symbol a b)
  | _, _ => Run.raise (operandFault op.symbol a b)

def isFloat : Value → Bool
  | .float _ => true
  | _ => false

def numberBinary (op : BinOp) (a b : Value) : Run Heap Value :=
  if isFloat a || isFloat b then floatBinary op a b
  else
    match op, a, b with
    | .bitAnd, .bool x, .bool y => return .bool (x && y)
    | .bitOr, .bool x, .bool y => return .bool (x || y)
    | .bitXor, .bool x, .bool y => return .bool (x != y)
    | _, _, _ =>
      match a.int?, b.int? with
      | some x, some y => wordBinary op x y
      | _, _ => Run.raise (operandFault op.symbol a b)

/-- Addition, which also joins sequences of one type. -/
def add (a b : Value) : Run Heap Value := do
  if a.isNumber && b.isNumber then numberBinary .add a b
  else
    let heap ← Run.get
    match a, b with
    | .str x, .str y => return .str (x ++ y)
    | .list x, .list y => newList (heap.items x ++ heap.items y)
    | .tuple x, .tuple y => newTuple (heap.items x ++ heap.items y)
    | _, _ => Run.raise (operandFault "+" a b)

/-- A text or a list repeated; a negative count gives nothing. -/
def repeated (sequence : Value) (count : Int64) : Run Heap Value := do
  let heap ← Run.get
  match sequence with
  | .str text => return .str (String.join (List.replicate count.toInt.toNat text))
  | .list address =>
    newList (List.replicate count.toInt.toNat (heap.items address).toList).flatten.toArray
  | other => Run.raise (operandFault "*" other (.int count))

def isRepeatable : Value → Bool
  | .str _ | .list _ => true
  | _ => false

def binary (op : BinOp) (a b : Value) : Run Heap Value :=
  if a.isNumber && b.isNumber then numberBinary op a b
  else
    match op with
    | .add => add a b
    | .mul =>
      match (if isRepeatable a then b.int? else none), (if isRepeatable b then a.int? else none) with
      | some count, _ => repeated a count
      | none, some count => repeated b count
      | none, none => Run.raise (operandFault op.symbol a b)
    | _ => Run.raise (operandFault op.symbol a b)

def unary (op : UnaryOp) (operand : Value) : Run Heap Value := do
  let fault : Exception :=
    .type ("bad operand type for unary operator: '" ++ operand.typeName ++ "'")
  match op, operand with
  | .not, value => return .bool (!(← Run.get).isTruthy value)
  | .neg, .float x => return .float (-x)
  | .pos, .float x => return .float x
  | .invert, .float _ => Run.raise fault
  | .neg, value =>
    match value.int? with
    | some i => checked (Word.neg? i)
    | none => Run.raise fault
  | .pos, value =>
    match value.int? with
    | some i => return .int i
    | none => Run.raise fault
  | .invert, value =>
    match value.int? with
    | some i => return .int (~~~i)
    | none => Run.raise fault

/-- Order of two values, defined for numbers and for strings. -/
def order? (op : CmpOp) (a b : Value) : Except Exception (Option Ordering) :=
  if a.isNumber && b.isNumber then .ok (a.compareNumbers? b)
  else
    match a, b with
    | .str x, .str y => .ok (some (compare x y))
    | _, _ =>
      .error (.type ("'" ++ op.symbol ++ "' not supported between instances of '" ++ a.typeName ++
        "' and '" ++ b.typeName ++ "'"))

/-- Whether some element of a range is equal to a value. -/
def Heap.rangeHolds (heap : Heap) (range : RangeValue) (item : Value) : Nat → Bool
  | 0 => false
  | count + 1 =>
    heap.equal (.int (range.nth count)) item || heap.rangeHolds range item count

/-- Whether some part of a text is another text. -/
def isPart (part : List Char) : List Char → Bool
  | [] => part.isEmpty
  | c :: rest => part.isPrefixOf (c :: rest) || isPart part rest

def contains (container item : Value) : Run Heap Bool := do
  let heap ← Run.get
  match container with
  | .list address | .tuple address => return (heap.items address).any (heap.equal · item)
  | .dict address => return (heap.entries address).any fun (key, _) => heap.equal key item
  | .str text =>
    match item with
    | .str part => return isPart part.toList text.toList
    | other =>
      Run.raise (.type ("'in <string>' requires string as left operand, not " ++ other.typeName))
  | .range range =>
    match item.int? with
    | some i => return range.contains i
    | none => return heap.rangeHolds range item range.count
  | other => Run.raise (.type ("argument of type '" ++ other.typeName ++ "' is not iterable"))

def compareValues (op : CmpOp) (a b : Value) : Run Heap Bool := do
  match op with
  | .eq => return (← Run.get).equal a b
  | .ne => return !(← Run.get).equal a b
  | .lt => return (← Run.ofExcept (order? op a b)) == some .lt
  | .le => return (← Run.ofExcept (order? op a b)) ∈ [some .lt, some .eq]
  | .gt => return (← Run.ofExcept (order? op a b)) == some .gt
  | .ge => return (← Run.ofExcept (order? op a b)) ∈ [some .gt, some .eq]
  | .is => return a.isSame b
  | .isNot => return !a.isSame b
  | .isIn => contains b a
  | .notIn => return !(← contains b a)

end TwoTier.Interp
