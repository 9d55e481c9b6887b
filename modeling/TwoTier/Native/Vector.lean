import TwoTier.Native.Loop

/-! Loops that run several iterations at a time, with accumulators for the extra lanes. -/

namespace TwoTier.Native

open Typed (Expr LocalId Stmt VectorForm VectorHead)

/-- The accumulators of the extra lanes: for each lane one scalar for each reduction. -/
abbrev Partials := List (List Scalar)

/-- Whether splitting a sum has to prove that no prefix of it overflows. -/
def needsDistance (reduction : Reduction) : Bool :=
  reduction.type = .int && (reduction.op = .add || reduction.op = .sub)

def foldPart (reduction : Reduction) (acc part : Scalar) : Step Machine Scalar :=
  match reduction.op, acc, part with
  | .add, .float x, .float y | .sub, .float x, .float y => pure (.float (x + y))
  | .mul, .float x, .float y => pure (.float (x * y))
  | .min, .float x, .float y => pure (.float (if y < x then y else x))
  | .max, .float x, .float y => pure (.float (if y > x then y else x))
  | .add, .int x, .int y | .sub, .int x, .int y => do
    return .int (← Step.ofOption (checkedAdd x y))
  | .mul, .int x, .int y => do return .int (← Step.ofOption (checkedMul x y))
  | .min, .int x, .int y => pure (.int (if y < x then y else x))
  | .max, .int x, .int y => pure (.int (if y > x then y else x))
  | _, _, _ => Step.stuck

def foldLane (reductions : List Reduction) (lane : List Scalar) : Step Machine Unit :=
  (reductions.zip lane).forM fun (reduction, part) => do
    let acc ← Machine.read reduction.acc
    Machine.write reduction.acc (← foldPart reduction acc part)

/-- Runs the body with a lane's own accumulators in place of the real ones. -/
def withLane (reductions : List Reduction) (lane : List Scalar) (body : Step Machine Flow) :
    Step Machine (Flow × List Scalar) := do
  let kept ← reductions.mapM fun reduction => Machine.read reduction.acc
  (reductions.zip lane).forM fun (reduction, value) => Machine.write reduction.acc value
  let flow ← body
  let lane ← reductions.mapM fun reduction => Machine.read reduction.acc
  (reductions.zip kept).forM fun (reduction, value) => Machine.write reduction.acc value
  pure (flow, lane)

/-- Runs the lanes after the first, for the iterations that follow `i`. -/
def laneGroup (head : VectorHead) (body : Step Machine Flow) (i : Int64) :
    Partials → Step Machine (Flow × Partials)
  | [] => pure (.next, [])
  | lane :: lanes => do
    Machine.write head.var (.int i)
    let (flow, lane) ← withLane head.reductions lane body
    match flow with
    | .next | .skip =>
      let (flow, lanes) ← laneGroup head body (i + 1) lanes
      pure (flow, lane :: lanes)
    | flow => pure (flow, lane :: lanes)

def lanesStep (head : VectorHead) (body : Step Machine Flow) (i : Int64) (partials : Partials) :
    Step Machine (Flow × Partials) := do
  Machine.write head.var (.int i)
  match ← body with
  | .next | .skip => laneGroup head body (i + 1) partials
  | flow => pure (flow, partials)

/-- The elements `i` and `i + 1` must both be inside the array. -/
def pairPosition (array : LocalId) (i : Int64) : Step Machine Nat := do
  if i + 1 ≥ (← Machine.length array) then Step.deopt else pure i.toUInt64.toNat

def requireFloat (value : Scalar) : Step Machine Float :=
  match value with
  | .float x => pure x
  | _ => Step.stuck

/-- A pair of floats, as one packed instruction computes it. -/
def packedArith (op : ArithOp) (x y : Float × Float) : Step Machine (Float × Float) :=
  match op with
  | .add => pure (x.1 + y.1, x.2 + y.2)
  | .sub => pure (x.1 - y.1, x.2 - y.2)
  | .mul => pure (x.1 * y.1, x.2 * y.2)
  | _ => Step.stuck

def packedEval (i : Int64) : Expr → Step Machine (Float × Float)
  | .const (.float value) => pure (value, value)
  | .var id _ => do
    let value ← requireFloat (← Machine.read id)
    pure (value, value)
  | .index array _ _ => do
    let position ← pairPosition array i
    let first ← requireFloat (← Machine.load array position)
    let second ← requireFloat (← Machine.load array (position + 1))
    pure (first, second)
  | .binary op left right => do
    let x ← packedEval i left
    let y ← packedEval i right
    packedArith op x y
  | .unary .neg operand => do
    let x ← packedEval i operand
    pure (-x.1, -x.2)
  | _ => Step.stuck

def packedUpdate (op : ArithOp) (operand : Float × Float) (reductions : List Reduction)
    (acc : LocalId) (partials : Partials) : Step Machine Partials :=
  match reductions.findIdx? (·.acc = acc), partials with
  | some index, [first, second] => do
    let x ← requireFloat (first.getD index default)
    let y ← requireFloat (second.getD index default)
    let (x, y) ← packedArith op (x, y) operand
    pure [first.set index (.float x), second.set index (.float y)]
  | _, _ => Step.stuck

def packedStmt (head : VectorHead) (i : Int64) (partials : Partials) : Stmt → Step Machine Partials
  | .store array _ value => do
    let (first, second) ← packedEval i value
    let position ← pairPosition array i
    Machine.store array position (.float first)
    Machine.store array (position + 1) (.float second)
    pure partials
  | .assign acc (.binary op left right) => do
    let operand ← packedEval i (if left.var? = some acc then right else left)
    packedUpdate op operand head.reductions acc partials
  | _ => Step.stuck

/-- One group of two iterations in packed form. The counter itself is not set. -/
def packedStep (head : VectorHead) (body : List Stmt) (i : Int64) (partials : Partials) :
    Step Machine (Flow × Partials) := do
  let partials ← body.foldlM (packedStmt head i) partials
  pure (.next, partials)

/-- Where the full groups end. -/
inductive GroupsEnd where
  | done (next : Int64) (partials : Partials)
  | left (flow : Flow)

def groupsFrom (group : Int64 → Partials → Step Machine (Flow × Partials)) (width stop : Int64) :
    Nat → Int64 → Partials → Step Machine GroupsEnd
  | 0, _, _ => Step.exhausted
  | fuel + 1, i, partials => fun machine =>
    if i < stop ∧ stop - i ≥ width then
      match group i partials machine with
      | .ok (.next, partials) machine | .ok (.skip, partials) machine =>
        groupsFrom group width stop fuel (i + width) partials machine
      | .ok (flow, _) machine => .ok (.left flow) machine
      | .deopt calls => .deopt calls
      | .stuck => .stuck
      | .exhausted => .exhausted
    else .ok (.done i partials) machine

def identities (reductions : List Reduction) : List Scalar :=
  reductions.map fun reduction => reduction.op.identity reduction.type

def groupWidth : VectorForm → Nat
  | .packed => 2
  | .lanes count => count

def startPartials (head : VectorHead) : Partials :=
  match head.form with
  | .packed => List.replicate 2 (identities head.reductions)
  | .lanes count => List.replicate (count - 1) (identities head.reductions)

/-- The sums of a loop over lanes whose distance nothing tracks yet. -/
def untrackedSums (head : VectorHead) (machine : Machine) : List Reduction :=
  match head.form with
  | .packed => []
  | .lanes _ => head.reductions.filter fun reduction =>
    needsDistance reduction && (machine.distances.lookup reduction.acc).isNone

/-- The sums whose distance this loop has to track, with their values before it. -/
def newlyTracked (head : VectorHead) : Step Machine (List (LocalId × Int64)) := do
  let sums ← fun machine => .ok (untrackedSums head machine) machine
  sums.mapM fun reduction => do return (reduction.acc, ← Machine.readInt reduction.acc)

def track (ids : List LocalId) : Step Machine Unit := fun machine =>
  .ok () { machine with distances := ids.map (·, 0) ++ machine.distances }

/-- Stops tracking, and gives how far each sum has moved. -/
def untrack (ids : List LocalId) : Step Machine (List UInt64) := fun machine =>
  .ok (ids.map fun id => (machine.distances.lookup id).getD 0)
    { machine with distances := machine.distances.drop ids.length }

/-- Leaves the code if a prefix of a split sum might have left the integers. -/
def checkDistances (entries : List (LocalId × Int64)) (distances : List UInt64) :
    Step Machine Unit :=
  if (entries.zip distances).all fun ((_, base), total) => staysInRange base total then pure ()
  else Step.deopt

/-- The full groups and the fold after them; gives the first iteration of the rest. -/
def vectorPhase (head : VectorHead)
    (group : Int64 → Partials → Step Machine (Flow × Partials)) (start stop : Int64) (fuel : Nat) :
    Step Machine GroupsEnd := do
  let entries ← newlyTracked head
  let ids := entries.map (·.1)
  track ids
  let width := Int64.ofNat (groupWidth head.form)
  let groups ← groupsFrom group width stop fuel start (startPartials head)
  let distances ← untrack ids
  match groups with
  | .left flow => pure (.left flow)
  | .done next partials =>
    checkDistances entries distances
    partials.forM (foldLane head.reductions)
    pure (.done next partials)

/-- A loop in groups with a scalar rest. A range that starts below zero is all rest. -/
def vectorLoop (head : VectorHead)
    (group : Int64 → Partials → Step Machine (Flow × Partials)) (body : Step Machine Flow)
    (start stop : Int64) (fuel : Nat) : Step Machine Flow := do
  if start < 0 then unitFrom head.var stop body fuel start
  else
    match ← vectorPhase head group start stop fuel with
    | .done next _ => unitFrom head.var stop body fuel next
    | .left .leave => pure .next
    | .left flow => pure flow

end TwoTier.Native
