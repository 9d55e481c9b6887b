import TwoTier.Typed.Stmt

namespace TwoTier.Native

open Typed (LocalId Label RoutineIndex)

/-- What a local holds. An array local refers to a buffer, or to none. -/
inductive Slot where
  | scalar (value : Scalar)
  | array (buffer : Option Nat)
deriving Inhabited

structure OpenCall where
  routine : RoutineIndex
  args : List Slot
  depth : UInt32

inductive Outcome (σ α : Type) where
  | ok (value : α) (state : σ)
  /-- the call has to be interpreted instead; the calls that were under way, outermost first -/
  | deopt (calls : List OpenCall)
  /-- the code does not fit the machine -/
  | stuck
  /-- more loop iterations, nested calls or storage than granted -/
  | exhausted

def Step (σ α : Type) : Type := σ → Outcome σ α

namespace Step

variable {σ α β : Type}

@[always_inline, inline]
protected def pure (value : α) : Step σ α := fun state => .ok value state

@[always_inline, inline]
protected def bind (step : Step σ α) (next : α → Step σ β) : Step σ β := fun state =>
  match step state with
  | .ok value state => next value state
  | .deopt calls => .deopt calls
  | .stuck => .stuck
  | .exhausted => .exhausted

instance : Monad (Step σ) where
  pure := Step.pure
  bind := Step.bind

def deopt : Step σ α := fun _ => .deopt []

def stuck : Step σ α := fun _ => .stuck

def exhausted : Step σ α := fun _ => .exhausted

/-- Leaves the code where an operation has no result. -/
@[always_inline, inline]
def ofOption : Option α → Step σ α
  | some value => Step.pure value
  | none => deopt

/-- Ends the run where what was asked for is not granted. -/
def grant : Option α → Step σ α
  | some value => Step.pure value
  | none => exhausted

end Step

/-- What all routines of a run share: the arrays passed in, and the depth of calls. -/
structure Shared where
  buffers : Array (Array Scalar)
  depth : UInt32

structure Machine where
  slots : Array Slot
  /-- for each integer sum that is split, how far its updates have moved it in all -/
  distances : List (LocalId × UInt64)
  shared : Shared

inductive Flow where
  | next
  | leave
  | skip
  | giveBack (result : Scalar)
  | exit (label : Label)
deriving Inhabited

namespace Machine

def read (id : LocalId) : Step Machine Scalar := fun machine =>
  match machine.slots[id]? with
  | some (.scalar value) => .ok value machine
  | _ => .stuck

def write (id : LocalId) (value : Scalar) : Step Machine Unit := fun machine =>
  if id < machine.slots.size then
    .ok () { machine with slots := machine.slots.setIfInBounds id (.scalar value) }
  else .stuck

def readInt (id : LocalId) : Step Machine Int64 := do
  match ← read id with
  | .int value => pure value
  | _ => Step.stuck

def buffer (id : LocalId) : Step Machine (Array Scalar) := fun machine =>
  match machine.slots[id]? with
  | some (.array (some index)) => .ok (machine.shared.buffers.getD index #[]) machine
  | some (.array none) => .ok #[] machine
  | _ => .stuck

def length (id : LocalId) : Step Machine Int64 := fun machine =>
  match machine.slots[id]? with
  | some (.array (some index)) =>
    .ok (Int64.ofNat (machine.shared.buffers.getD index #[]).size) machine
  | some (.array none) => .ok 0 machine
  | _ => .stuck

def load (id : LocalId) (position : Nat) : Step Machine Scalar := do
  match (← buffer id)[position]? with
  | some value => pure value
  | none => Step.stuck

def store (id : LocalId) (position : Nat) (value : Scalar) : Step Machine Unit := fun machine =>
  match machine.slots[id]? with
  | some (.array (some index)) =>
    let buffers := machine.shared.buffers.modify index (·.setIfInBounds position value)
    .ok () { machine with shared := { machine.shared with buffers } }
  | _ => .stuck

/-- Runs on what is shared. The machine is taken apart first, so that nothing else refers to the
buffers and they can be changed in place. -/
@[always_inline, inline]
def onShared {α : Type} (step : Step Shared α) : Step Machine α :=
  fun ⟨slots, distances, shared⟩ =>
    match step shared with
    | .ok value shared => .ok value ⟨slots, distances, shared⟩
    | .deopt calls => .deopt calls
    | .stuck => .stuck
    | .exhausted => .exhausted

end Machine
end TwoTier.Native
