import TwoTier.Native.Instruction
import TwoTier.Native.Machine

namespace TwoTier.Native

open Typed (ForHead LocalId LoopBound)

def whileLoop (cond : Step Machine Bool) (body : Step Machine Flow) : Nat → Step Machine Flow
  | 0 => Step.exhausted
  | fuel + 1 => fun machine =>
    match cond machine with
    | .ok false machine => .ok .next machine
    | .ok true machine =>
      match body machine with
      | .ok .next machine | .ok .skip machine => whileLoop cond body fuel machine
      | .ok .leave machine => .ok .next machine
      | .ok flow machine => .ok flow machine
      | .deopt calls => .deopt calls
      | .stuck => .stuck
      | .exhausted => .exhausted
    | .deopt calls => .deopt calls
    | .stuck => .stuck
    | .exhausted => .exhausted

def boundHolds (bound : LoopBound) (step i stop : Int64) : Bool :=
  match bound with
  | .range => if step > 0 then i < stop else i > stop
  | .lt => i < stop
  | .le => i ≤ stop
  | .gt => i > stop
  | .ge => i ≥ stop

/-- Moves on from one iteration. Where the counter would leave the integers, a range ends and a
while loop leaves the code. -/
def nextCount (head : ForHead) (step i : Int64) : Step Machine (Option Int64) :=
  if head.exitValue then do
    let i ← Machine.readInt head.var
    let next := i + step
    if addOverflows i step next then Step.deopt
    else
      Machine.write head.var (.int next)
      pure (some next)
  else
    let next := i + step
    pure (if addOverflows i step next then none else some next)

def countFrom (head : ForHead) (stop step : Int64) (body : Step Machine Flow) :
    Nat → Int64 → Step Machine Flow
  | 0, _ => Step.exhausted
  | fuel + 1, i => fun machine =>
    if boundHolds head.bound step i stop then
      match (if head.exitValue then .ok () machine else Machine.write head.var (.int i) machine) with
      | .ok () machine =>
        match body machine with
        | .ok .next machine | .ok .skip machine =>
          match nextCount head step i machine with
          | .ok (some next) machine => countFrom head stop step body fuel next machine
          | .ok none machine => .ok .next machine
          | .deopt calls => .deopt calls
          | .stuck => .stuck
          | .exhausted => .exhausted
        | .ok .leave machine => .ok .next machine
        | .ok flow machine => .ok flow machine
        | .deopt calls => .deopt calls
        | .stuck => .stuck
        | .exhausted => .exhausted
      | .deopt calls => .deopt calls
      | .stuck => .stuck
      | .exhausted => .exhausted
    else .ok .next machine

/-- A counted loop. A range whose step is zero leaves the code. -/
def countedLoop (head : ForHead) (start stop step : Int64) (body : Step Machine Flow)
    (fuel : Nat) : Step Machine Flow := do
  if head.bound = .range ∧ step = 0 then Step.deopt
  else
    if head.exitValue then Machine.write head.var (.int start)
    countFrom head stop step body fuel start

def unitFrom (var : LocalId) (stop : Int64) (body : Step Machine Flow) :
    Nat → Int64 → Step Machine Flow
  | 0, _ => Step.exhausted
  | fuel + 1, i => fun machine =>
    if i < stop then
      match Machine.write var (.int i) machine with
      | .ok () machine =>
        match body machine with
        | .ok .next machine | .ok .skip machine => unitFrom var stop body fuel (i + 1) machine
        | .ok .leave machine => .ok .next machine
        | .ok flow machine => .ok flow machine
        | .deopt calls => .deopt calls
        | .stuck => .stuck
        | .exhausted => .exhausted
      | .deopt calls => .deopt calls
      | .stuck => .stuck
      | .exhausted => .exhausted
    else .ok .next machine

end TwoTier.Native
