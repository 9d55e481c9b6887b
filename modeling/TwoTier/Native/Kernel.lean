import TwoTier.Native.Chunk
import TwoTier.Native.Vector
import TwoTier.Typed.Body

/-! Loops that run as a kernel over chunks, whose parts are folded in order. -/

namespace TwoTier.Native

open Typed (LocalId ParallelHead Routine)

/-- What a local holds before its first assignment. -/
def emptySlot : Kind → Slot
  | .scalar type => .scalar (.zero type)
  | .array _ => .array none

def emptySlots (routine : Routine) : Array Slot :=
  (routine.locals.map fun decl => emptySlot decl.kind).toArray

/-- What a kernel leaves: its part, and how far its updates have moved it. -/
structure ChunkResult where
  part : Option Scalar
  distance : UInt64

/-- The locals of a kernel: those it takes over, the ends of its chunk and its accumulator. -/
def kernelSlots (routine : Routine) (head : ParallelHead) (outer : Array Slot) (lo hi : Int64) :
    Array Slot :=
  let taken := (head.captures ++ head.arrays).foldl
    (fun slots id => slots.setIfInBounds id (outer.getD id default)) (emptySlots routine)
  let ends := (taken.setIfInBounds head.chunkLo (.scalar (.int lo))).setIfInBounds head.chunkHi
    (.scalar (.int hi))
  match head.reduction with
  | none => ends
  | some reduction =>
    ends.setIfInBounds reduction.acc (.scalar (reduction.op.identity reduction.type))

/-- The sum that a kernel tracks. -/
def kernelDistances (head : ParallelHead) : List (LocalId × UInt64) :=
  match head.reduction with
  | some reduction => if needsDistance reduction then [(reduction.acc, 0)] else []
  | none => []

def runChunk (routine : Routine) (head : ParallelHead) (kernel : Step Machine Flow)
    (outer : Array Slot) (lo hi : Int64) : Step Shared ChunkResult := fun shared =>
  let machine : Machine :=
    ⟨kernelSlots routine head outer lo hi, kernelDistances head, shared⟩
  match kernel machine with
  | .ok .next machine =>
    let distance := ((machine.distances.head?).map (·.2)).getD 0
    match head.reduction with
    | none => .ok ⟨none, distance⟩ machine.shared
    | some reduction =>
      match machine.slots[reduction.acc]? with
      | some (.scalar part) => .ok ⟨some part, distance⟩ machine.shared
      | _ => .stuck
  | .ok _ _ => .stuck
  | .deopt calls => .deopt calls
  | .stuck => .stuck
  | .exhausted => .exhausted

/-- Folds the part of a chunk, if no prefix of it can have left the integers. -/
def foldChunk? (reduction : Reduction) (acc : Scalar) (result : ChunkResult) : Option Scalar :=
  match acc, result.part with
  | .int x, some (.int y) =>
    if needsDistance reduction && !Chunk.sumBounded x result.distance then none
    else (reduction.op.foldWord? x y).map .int
  | .float x, some (.float y) => some (.float (reduction.op.foldFloat x y))
  | _, _ => none

def runChunks (routine : Routine) (head : ParallelHead) (kernel : Step Machine Flow)
    (outer : Array Slot) (chunks : List (Int64 × Int64)) : Step Shared (List ChunkResult) :=
  chunks.mapM fun (lo, hi) => runChunk routine head kernel outer lo hi

def foldChunks (head : ParallelHead) (results : List ChunkResult) : Step Machine Unit :=
  match head.reduction with
  | none => pure ()
  | some reduction => do
    let acc ← Machine.read reduction.acc
    let folded ← Step.ofOption (results.foldlM (foldChunk? reduction) acc)
    Machine.write reduction.acc folded

/-- A loop over chunks. The counter keeps its last value. A range that starts below zero runs in
place as one chunk. -/
def parallelLoop (routine : Routine) (head : ParallelHead) (inPlace kernel : Step Machine Flow)
    (start stop least target : Int64) : Step Machine Flow := do
  if start < 0 then
    Machine.write head.chunkLo (.int start)
    Machine.write head.chunkHi (.int stop)
    inPlace
  else
    let outer : Array Slot ← fun machine => .ok machine.slots machine
    let chunks ← Step.grant (Chunk.bounds? start stop least target)
    let results ← Machine.onShared (runChunks routine head kernel outer chunks)
    foldChunks head results
    if start < stop then Machine.write head.var (.int (stop - 1))
    pure .next

end TwoTier.Native
