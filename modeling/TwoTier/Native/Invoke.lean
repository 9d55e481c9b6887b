import TwoTier.Native.Code
import TwoTier.Native.Stmt

namespace TwoTier.Native

open Typed (Body Routine RoutineIndex)

structure Limits where
  maxDepth : UInt32
  leastChunk : Int64
  targetChunks : Int64
  fuel : Nat
deriving DecidableEq

def entrySlots (routine : Routine) (args : List Slot) : Array Slot :=
  (routine.params.zip args).foldl (fun slots (param, arg) => slots.setIfInBounds param arg)
    (emptySlots routine)

def leaveRoutine (routine : Routine) (depth : UInt32) :
    Outcome Machine Flow → Outcome Shared Scalar
  | .ok (.giveBack result) machine => .ok result { machine.shared with depth }
  | .ok .next machine => .ok (emptyResult routine.result) { machine.shared with depth }
  | .ok _ _ => .stuck
  | .deopt calls => .deopt calls
  | .stuck => .stuck
  | .exhausted => .exhausted

/-- Enters a routine one level deeper, unless that is past the limit. -/
def enter (limits : Limits) (routine : Routine) (call : Callee) (args : List Slot) :
    Step Shared Scalar := fun shared =>
  let depth := shared.depth
  if depth + 1 > limits.maxDepth then .deopt []
  else
    let ctx : Context :=
      ⟨routine, call, limits.fuel, limits.leastChunk, limits.targetChunks⟩
    leaveRoutine routine depth
      (execBlock ctx routine.body
        ⟨entrySlots routine args, [], { shared with depth := depth + 1 }⟩)

/-- Adds the call around the others to those that were under way. -/
@[inline]
def within {σ α : Type} (call : OpenCall) : Outcome σ α → Outcome σ α
  | .deopt calls => .deopt (call :: calls)
  | outcome => outcome

/-- Calls a routine of a body with this many nested calls granted. -/
def callRoutine (body : Body) (limits : Limits) : Nat → Callee
  | 0, _, _ => Step.exhausted
  | frames + 1, index, args => fun shared =>
    within ⟨index, args, shared.depth⟩
      (enter limits (body.routine index) (callRoutine body limits frames) args shared)

/-- Nested calls that the limit admits to a call at this depth: past the limit the depth can wrap
before it meets it. -/
def frameCount (limits : Limits) (depth : UInt32) : Nat :=
  if depth ≤ limits.maxDepth then limits.maxDepth.toNat - depth.toNat + 1
  else limits.maxDepth.toNat + 2

/-- The arguments of one call: scalars in the order of their parameters, and arrays in theirs. -/
structure Frame where
  scalars : List UInt64
  arrays : List (Array UInt64)

inductive Completion where
  | returned (result : UInt64) (arrays : List (Array UInt64)) (depth : UInt32)
  | deoptimized (calls : List OpenCall)
  | stuck
  | exhausted

def argSlots : List Kind → List UInt64 → Nat → List Slot
  | .scalar type :: kinds, bits :: scalars, arrays =>
    .scalar (.ofBits type bits) :: argSlots kinds scalars arrays
  | .array _ :: kinds, scalars, arrays =>
    .array (some arrays) :: argSlots kinds scalars (arrays + 1)
  | _, _, _ => []

def argBuffers (kinds : List Kind) (arrays : List (Array UInt64)) : Array (Array Scalar) :=
  (((kinds.filter (·.isArray)).zip arrays).map fun (kind, bits) =>
    bits.map (Scalar.ofBits kind.numType)).toArray

namespace Code

/-- Calls the root. The arguments must have the shape that its parameters have. -/
def invokeBy (code : Code) (call : Callee) (depth : UInt32) (frame : Frame) :
    Except CodeFault Completion :=
  let kinds := code.argKinds
  let scalars := (kinds.filter fun kind => !kind.isArray).length
  let arrays := kinds.length - scalars
  if frame.scalars.length ≠ scalars ∨ frame.arrays.length ≠ arrays then
    .error (.frameShape frame.scalars.length frame.arrays.length scalars arrays)
  else
    match call 0 (argSlots kinds frame.scalars 0) ⟨argBuffers kinds frame.arrays, depth⟩ with
    | .ok result shared =>
      let buffers := shared.buffers.toList.map fun buffer => buffer.map Scalar.bits
      .ok (.returned result.bits buffers shared.depth)
    | .deopt calls => .ok (.deoptimized calls)
    | .stuck => .ok .stuck
    | .exhausted => .ok .exhausted

def invoke (code : Code) (limits : Limits) (depth : UInt32) (frame : Frame) :
    Except CodeFault Completion :=
  code.invokeBy (callRoutine code.body limits (frameCount limits depth)) depth frame

end Code
end TwoTier.Native
