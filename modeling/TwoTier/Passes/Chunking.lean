import TwoTier.Passes.Dependence
import TwoTier.Passes.Inlining

/-! Loops that run in chunks. The outermost loop that passes the dependence checks with at most one
accumulator becomes a kernel over the chunks of its range. -/

namespace TwoTier.Passes

open Typed

def outline (head : ForHead) (body : List Stmt) (use : LoopUse) : StateM Work Stmt := do
  let chunkLo ← Work.addTemp "$chunk_lo" (.scalar .int)
  let chunkHi ← Work.addTemp "$chunk_hi" (.scalar .int)
  let reduction := use.reductions.head?
  let place := "loop at " ++ head.span.text ++ " runs in chunks"
  let routine := (← get).routine
  Work.note (.applying (match reduction with
    | some reduction => place ++ " reducing '" ++ (routine.decl reduction.acc).name ++ "'"
    | none => place))
  let chunk := Stmt.forLoop
    ⟨head.var, .var chunkLo .int, .var chunkHi .int, .int 1, .range, false, head.span⟩ body
  pure (.parallel
    ⟨head.var, head.start, head.stop, chunkLo, chunkHi, reduction, use.invariants, use.arrays,
      head.span⟩
    chunk)

mutual

/-- Outlines the loops of a statement, outermost first. -/
def chunked (reads : List LocalId) (stmt : Stmt) : StateM Work Stmt :=
  match stmt with
  | .forLoop head body => do
    match loopUse (← get).routine head body .parallel reads with
    | .ok use => outline head body use
    | .error reason =>
      Work.note (.skipping ("loop at " ++ head.span.text ++ ": " ++ reason))
      return .forLoop head (← chunkedBlock reads body)
  | .branch cond yes no =>
    return .branch cond (← chunkedBlock reads yes) (← chunkedBlock reads no)
  | .whileLoop cond body span => return .whileLoop cond (← chunkedBlock reads body) span
  | .block label body => return .block label (← chunkedBlock reads body)
  | .vector head body => return .vector head (← chunkedBlock reads body)
  | _ => pure stmt

def chunkedBlock (reads : List LocalId) (body : List Stmt) : StateM Work (List Stmt) :=
  match body with
  | [] => pure []
  | stmt :: rest => return (← chunked reads stmt) :: (← chunkedBlock reads rest)

end

def chunkLoops (routine : Routine) : Notes × Routine :=
  let (body, work) := (chunkedBlock (scalarReads routine.body) routine.body).run { routine }
  (work.notes, { work.routine with body })

end TwoTier.Passes
