import TwoTier.Candidate
import TwoTier.Interp.Value
import TwoTier.Native.Invoke

/-! How dynamic values are handed to compiled code and back. -/

namespace TwoTier.Dispatch

open Interp (Address Heap Value)

open Native (Frame)

def scalar? : Value → Option Scalar
  | .int value => some (.int value)
  | .float value => some (.float value)
  | .bool value => some (.bool value)
  | _ => none

/-- The pattern of a value that has this machine type. -/
def pattern? (type : NumType) (value : Value) : Option UInt64 :=
  match scalar? value with
  | some scalar => if scalar.type = type then some scalar.bits else none
  | none => none

/-- The pattern of a list item; no list holds machine booleans. -/
def itemPattern? (element : NumType) (value : Value) : Option UInt64 :=
  if element = .bool then none else pattern? element value

/-- Whether all items of a list fit one type of elements. -/
def holdsOnly (element : NumType) (items : Array Value) : Bool :=
  items.all fun item => (itemPattern? element item).isSome

/-- The kind of a value, if compiled code can take it; that of a list is read off its items. -/
def kindOf? (heap : Heap) (value : Value) : Option Kind :=
  match value with
  | .list address =>
    let items := heap.items address
    match (items[0]?).bind scalar? with
    | some first => if holdsOnly first.type items then some (.array first.type) else none
    | none => none
  | value => (scalar? value).map fun scalar => .scalar scalar.type

/-- Whether a value can be passed for a parameter of this kind. -/
def fitsKind (heap : Heap) (kind : Kind) (value : Value) : Bool :=
  match value, kind with
  | .list address, .array element => holdsOnly element (heap.items address)
  | value, kind => kindOf? heap value == some kind

/-- The kinds to compile a function for, given the values of one call; declared ones are binding. -/
def observedKinds? (heap : Heap) (candidate : Candidate) (args : List Value) :
    Option (List Kind) :=
  if args.length ≠ candidate.arity then none
  else
    (candidate.definition.params.zip args).mapM fun (param, value) =>
      match declaredKind? param.annotation with
      | some kind => if fitsKind heap kind value then some kind else none
      | none => kindOf? heap value

/-- A list that was copied into a buffer, with the position of its parameter. -/
structure LoweredList where
  address : Address
  element : NumType
  position : Nat
deriving DecidableEq, Repr

structure Lowered where
  frame : Frame := ⟨[], []⟩
  lists : List LoweredList := []

namespace Lowered

def withScalar (lowered : Lowered) (bits : UInt64) : Lowered :=
  { lowered with frame := { lowered.frame with scalars := lowered.frame.scalars ++ [bits] } }

def withList (lowered : Lowered) (list : LoweredList) (buffer : Array UInt64) : Lowered :=
  { frame := { lowered.frame with arrays := lowered.frame.arrays ++ [buffer] }
    lists := lowered.lists ++ [list] }

def holds (lowered : Lowered) (address : Address) : Bool :=
  lowered.lists.any (·.address = address)

/-- Adds the argument at a position. One list may not stand for two arrays. -/
def add? (heap : Heap) (lowered : Lowered) (position : Nat) : Kind × Value → Option Lowered
  | (.scalar type, value) => (pattern? type value).map lowered.withScalar
  | (.array element, .list address) =>
    if lowered.holds address then none
    else
      ((heap.items address).mapM (itemPattern? element)).map
        (lowered.withList ⟨address, element, position⟩)
  | _ => none

def addAll? (heap : Heap) : Lowered → Nat → List (Kind × Value) → Option Lowered
  | lowered, _, [] => some lowered
  | lowered, position, arg :: rest =>
    match lowered.add? heap position arg with
    | some lowered => addAll? heap lowered (position + 1) rest
    | none => none

def ofArgs? (heap : Heap) (kinds : List Kind) (args : List Value) : Option Lowered :=
  if kinds.length ≠ args.length then none else addAll? heap {} 0 (kinds.zip args)

end Lowered

/-- The items of a list after its buffer was stored into. -/
def refreshed (element : NumType) (items : Array Value) (buffer : Array UInt64) : Array Value :=
  items.mapIdx fun index item =>
    match buffer[index]? with
    | some bits => .ofScalar (.ofBits (if element = .float then .float else .int) bits)
    | none => item

/-- The lists of the parameters at the given positions with their buffers. -/
def Lowered.stores (lowered : Lowered) (stored : List Nat) (arrays : List (Array UInt64)) :
    List (LoweredList × Array UInt64) :=
  (lowered.lists.zip arrays).filter fun (list, _) => stored.contains list.position

def writeBack (heap : Heap) (stores : List (LoweredList × Array UInt64)) : Heap :=
  stores.foldl
    (fun heap (list, buffer) =>
      heap.modifyItems list.address fun items => refreshed list.element items buffer)
    heap

/-- The value of a result pattern. A returned array is the argument itself. -/
def resultValue (result : ReturnKind) (bits : UInt64) (args : List Value) : Value :=
  match result with
  | .scalar type => .ofScalar (.ofBits type bits)
  | .array _ => (args[bits.toNat]?).getD .none
  | .nothing => .none

end TwoTier.Dispatch
