import TwoTier.Native.Expr
import TwoTier.Native.Kernel

namespace TwoTier.Native

open Typed (LocalId Result Routine Stmt)

structure Context where
  routine : Routine
  call : Callee
  fuel : Nat
  leastChunk : Int64
  targetChunks : Int64

/-- Chunks inside a chunk are not split further. -/
def Context.inKernel (ctx : Context) : Context := { ctx with leastChunk := 1, targetChunks := 1 }

/-- Assigns, and tracks how far a split sum has moved. -/
def assign (ctx : Context) (id : LocalId) (value : Typed.Expr) : Step Machine Unit := fun machine =>
  match machine.distances.lookup id with
  | none => Step.bind (eval ctx.call value) (Machine.write id) machine
  | some _ =>
    Step.bind (Machine.readInt id)
      (fun before => do
        let after ← evalInt ctx.call value
        Machine.write id (.int after)
        fun machine =>
          let total := (machine.distances.lookup id).getD 0
          match addDistance total before after with
          | none => .deopt []
          | some total =>
            let distances := machine.distances.map fun (other, old) =>
              if other = id then (other, total) else (other, old)
            .ok () { machine with distances })
      machine

def emptyResult : ReturnKind → Scalar
  | .scalar type => .zero type
  | .array _ | .nothing => .int 0

/-- The result register for what a routine returns; an array is the position of its parameter. -/
def resultOf (ctx : Context) : Option Result → Step Machine Scalar
  | none => pure (emptyResult ctx.routine.result)
  | some (.scalar value) => eval ctx.call value
  | some (.array id) =>
    match (ctx.routine.decl id).origin with
    | .param position => pure (.int (Int64.ofNat position))
    | _ => Step.stuck

mutual

def exec (ctx : Context) (stmt : Stmt) : Step Machine Flow :=
  match stmt with
  | .assign id value => do
    assign ctx id value
    pure .next
  | .store array index value => do
    let value ← eval ctx.call value
    let index ← evalInt ctx.call index
    let length ← Machine.length array
    let position ← Step.ofOption (elementPosition index length)
    Machine.store array position value
    pure .next
  | .eval value => do
    let _ ← eval ctx.call value
    pure .next
  | .branch cond yes no => do
    let holds ← requireBool (← eval ctx.call cond)
    if holds then execBlock ctx yes else execBlock ctx no
  | .whileLoop cond body _ =>
    whileLoop (do requireBool (← eval ctx.call cond)) (execBlock ctx body) ctx.fuel
  | .forLoop head body => do
    let start ← evalInt ctx.call head.start
    let stop ← evalInt ctx.call head.stop
    let step ← evalInt ctx.call head.step
    countedLoop head start stop step (execBlock ctx body) ctx.fuel
  | .leave => pure .leave
  | .skip => pure .skip
  | .giveBack value => do
    let result ← resultOf ctx value
    pure (.giveBack result)
  | .block label body => do
    match ← execBlock ctx body with
    | .exit other => pure (if other = label then .next else .exit other)
    | flow => pure flow
  | .exit label => pure (.exit label)
  | .vector head body => do
    let start ← evalInt ctx.call head.start
    let stop ← evalInt ctx.call head.stop
    let run := execBlock ctx body
    let group :=
      match head.form with
      | .packed => packedStep head body
      | .lanes _ => lanesStep head run
    vectorLoop head group run start stop ctx.fuel
  | .parallel head chunk => do
    let start ← evalInt ctx.call head.start
    let stop ← evalInt ctx.call head.stop
    parallelLoop ctx.routine head (exec ctx chunk) (exec ctx.inKernel chunk) start stop
      ctx.leastChunk ctx.targetChunks

def execBlock (ctx : Context) (body : List Stmt) : Step Machine Flow :=
  match body with
  | [] => pure .next
  | stmt :: rest => do
    match ← exec ctx stmt with
    | .next => execBlock ctx rest
    | flow => pure flow

end

theorem execBlock_nil (ctx : Context) : execBlock ctx [] = pure .next := by
  rw [execBlock]

end TwoTier.Native
