import TwoTier.Interp.Operator

namespace TwoTier.Interp

def checkHashable (key : Value) : Except Exception Unit :=
  match key with
  | .list _ | .dict _ => .error (.type ("unhashable type: '" ++ key.typeName ++ "'"))
  | _ => .ok ()

/-- The position that an index means in a sequence; a negative one counts from the end. -/
def position (length : Int64) (index : Int64) : Option Nat :=
  let place := if index < 0 then index + length else index
  if place < 0 ∨ length ≤ place then none else some place.toInt.toNat

def sequenceIndex (index : Value) (length : Int64) (what : String) : Except Exception Nat :=
  match index.int? with
  | none => .error (.type (what ++ " indices must be integers, not '" ++ index.typeName ++ "'"))
  | some i =>
    match position length i with
    | none => .error (.index (what ++ " index out of range"))
    | some place => .ok place

def itemsLength {α : Type} (items : Array α) : Int64 := Int64.ofNat items.size

def Heap.findKey? (heap : Heap) (entries : Array (Value × Value)) (key : Value) : Option Nat :=
  entries.findIdx? fun (other, _) => heap.equal other key

def getItem (container index : Value) : Run Heap Value := do
  let heap ← Run.get
  match container with
  | .list address =>
    let items := heap.items address
    let place ← Run.ofExcept (sequenceIndex index (itemsLength items) "list")
    return items.getD place .none
  | .tuple address =>
    let items := heap.items address
    let place ← Run.ofExcept (sequenceIndex index (itemsLength items) "tuple")
    return items.getD place .none
  | .str text =>
    let chars := text.toList.toArray
    let place ← Run.ofExcept (sequenceIndex index (itemsLength chars) "string")
    return .str (String.singleton (chars.getD place ' '))
  | .range range =>
    let place ← Run.ofExcept (sequenceIndex index range.length "range")
    return .int (range.nth place)
  | .dict address =>
    Run.ofExcept (checkHashable index)
    let entries := heap.entries address
    match (heap.findKey? entries index).bind (entries[·]?) with
    | some (_, item) => return item
    | none => Run.raise (.key (heap.repr index))
  | other => Run.raise (.type ("'" ++ other.typeName ++ "' object is not subscriptable"))

/-- Entries with an item under a key, which has its place among them or comes last. -/
def putAt (place : Option Nat) (key item : Value) (entries : Array (Value × Value)) :
    Array (Value × Value) :=
  match place with
  | some place => entries.modify place fun (old, _) => (old, item)
  | none => entries.push (key, item)

/-- Entries with an item under a key, in the place of an equal key if there is one. -/
def Heap.putEntry (heap : Heap) (entries : Array (Value × Value)) (key item : Value) :
    Array (Value × Value) :=
  putAt (heap.findKey? entries key) key item entries

def setItem (container index item : Value) : Run Heap Unit := do
  let heap ← Run.get
  match container with
  | .list address =>
    let place ← Run.ofExcept
      (sequenceIndex index (itemsLength (heap.items address)) "list assignment")
    Run.modify (·.modifyItems address (·.setIfInBounds place item))
  | .dict address =>
    Run.ofExcept (checkHashable index)
    let place := heap.findKey? (heap.entries address) index
    Run.modify (·.modifyEntries address (putAt place index item))
  | other =>
    Run.raise (.type ("'" ++ other.typeName ++ "' object does not support item assignment"))

def extendList (address : Address) (extra : Array Value) : Run Heap Unit :=
  Run.modify (·.modifyItems address (· ++ extra))

def checkArity (method : String) (args : List Value) (least most : Nat) : Run Heap Unit :=
  if args.length < least ∨ most < args.length then
    Run.raise (.type (method ++ "() takes " ++ toString least ++ " to " ++ toString most ++
      " arguments (" ++ toString args.length ++ " given)"))
  else pure ()

/-- Pairs of keys and items, each a new tuple. -/
def entryTuples : List (Value × Value) → Run Heap (List Value)
  | [] => return []
  | (key, item) :: rest => do
    let pair ← newTuple #[key, item]
    return pair :: (← entryTuples rest)

def dictMethod (address : Address) (method : String) (args : List Value) :
    Run Heap Value := do
  let heap ← Run.get
  let entries := heap.entries address
  match method with
  | "get" =>
    checkArity method args 1 2
    let key := args.headD .none
    Run.ofExcept (checkHashable key)
    match (heap.findKey? entries key).bind (entries[·]?) with
    | some (_, item) => return item
    | none => return args.getD 1 .none
  | "keys" =>
    checkArity method args 0 0
    newList (entries.map (·.1))
  | "values" =>
    checkArity method args 0 0
    newList (entries.map (·.2))
  | "items" =>
    checkArity method args 0 0
    newList (← entryTuples entries.toList).toArray
  | _ => Run.raise (.missing ("'dict' object has no attribute '" ++ method ++ "'"))

def popItem (address : Address) (index : Option Value) : Run Heap Value := do
  let heap ← Run.get
  let items := heap.items address
  if items.isEmpty then Run.raise (.index "pop from empty list")
  else
    let place ←
      match index with
      | some index => Run.ofExcept (sequenceIndex index (itemsLength items) "pop")
      | none => pure (items.size - 1)
    let item := items.getD place .none
    Run.modify (·.modifyItems address (·.eraseIdxIfInBounds place))
    return item

def listMethod (address : Address) (method : String) (args : List Value) :
    Run Heap Value := do
  match method with
  | "append" =>
    checkArity method args 1 1
    extendList address args.toArray
    return .none
  | "extend" =>
    checkArity method args 1 1
    extendList address (← iterate (args.headD .none))
    return .none
  | "pop" =>
    checkArity method args 0 1
    popItem address args.head?
  | _ => Run.raise (.missing ("'list' object has no attribute '" ++ method ++ "'"))

def callMethod (receiver : Value) (method : String) (args : List Value) : Run Heap Value :=
  match receiver with
  | .dict address => dictMethod address method args
  | .list address => listMethod address method args
  | other =>
    Run.raise (.missing ("'" ++ other.typeName ++ "' object has no attribute '" ++ method ++ "'"))

end TwoTier.Interp
