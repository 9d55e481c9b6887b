import TwoTier.Passes.Report

/-! While loops that count. Such a loop compares an integer local with an invariant bound, steps
it by a constant of the matching sign as its last statement, writes it nowhere else and never
starts its next iteration early. It becomes a counted loop that leaves the same counter behind. -/

namespace TwoTier.Passes

open Typed

/-- What a while loop counts with. -/
structure CountedShape where
  var : LocalId
  bound : LoopBound
  stop : Expr
  step : Int64

/-- The counter, the bound and the test of a condition, with the counter on the left. -/
def counterTest : Expr → Except String (LocalId × Expr × Comparison)
  | .compare op left right =>
    let onLeft (var : LocalId) : Bool := left.type = .int && !right.readsLocal var
    let onRight (var : LocalId) : Bool := right.type = .int && !left.readsLocal var
    match left.var?.filter onLeft, right.var?.filter onRight with
    | some var, _ => .ok (var, right, op)
    | none, some var => .ok (var, left, op.swapped)
    | none, none => .error "condition does not test an integer counter"
  | _ => .error "condition is not a comparison"

def loopBound? : Comparison → Option LoopBound
  | .lt => some .lt
  | .le => some .le
  | .gt => some .gt
  | .ge => some .ge
  | .eq | .ne => none

def isAscending (bound : LoopBound) : Bool := bound = .lt || bound = .le

def stepOf? (var : LocalId) : Stmt → Option Int64
  | .assign target (.binary op (.var read _) (.const (.int amount))) =>
    if target = var ∧ read = var then
      match op with
      | .add => some amount
      | .sub => Word.neg? amount
      | _ => none
    else none
  | _ => none

/-- Whether nothing in a block changes an expression. -/
def isInvariantIn (expr : Expr) (body : List Stmt) : Bool :=
  !expr.containsCall && expr.readLocals.all fun id =>
    !(Stmt.writtenLocals body).contains id && !(Stmt.storedArrays body).contains id

mutual

/-- Whether a statement can start the next iteration of the loop whose body it stands in. -/
def skipsAhead (stmt : Stmt) : Bool :=
  match stmt with
  | .skip => true
  | .branch _ yes no => anySkipsAhead yes || anySkipsAhead no
  | .block _ body => anySkipsAhead body
  | _ => false

def anySkipsAhead (body : List Stmt) : Bool :=
  match body with
  | [] => false
  | stmt :: rest => skipsAhead stmt || anySkipsAhead rest

end

/-- How a while loop counts, or why it does not. -/
def countedShape (cond : Expr) (body : List Stmt) : Except String CountedShape := do
  let (var, stop, op) ← counterTest cond
  let some bound := loopBound? op | throw "equality tests have no direction"
  let some last := body.getLast? | throw "empty body"
  let rest := body.dropLast
  let some step := stepOf? var last | throw "the last statement does not step the counter"
  if step = 0 ∨ decide (step > 0) ≠ isAscending bound then
    throw "step direction does not approach the bound"
  if (Stmt.writtenLocals rest).contains var then throw "the counter is written inside the body"
  if !isInvariantIn stop rest then throw "the bound changes inside the loop"
  if anySkipsAhead rest then throw "continue would skip the step"
  return ⟨var, bound, stop, step⟩

def CountedShape.loop (shape : CountedShape) (body : List Stmt) (span : Span) : Stmt :=
  .forLoop ⟨shape.var, .var shape.var .int, shape.stop, .int shape.step, shape.bound, true, span⟩
    body.dropLast

mutual

/-- Turns while loops that count into counted loops, innermost first. -/
def counted (stmt : Stmt) : Notes × Stmt :=
  match stmt with
  | .branch cond yes no =>
    let (first, yes) := countedBlock yes
    let (second, no) := countedBlock no
    (first ++ second, .branch cond yes no)
  | .whileLoop cond body span =>
    let (notes, body) := countedBlock body
    let place := "while loop at " ++ span.text
    match countedShape cond body with
    | .ok shape => (notes ++ .applying (place ++ " is counted"), shape.loop body span)
    | .error reason =>
      (notes ++ .skipping (place ++ ": " ++ reason), .whileLoop cond body span)
  | .forLoop head body =>
    let (notes, body) := countedBlock body
    (notes, .forLoop head body)
  | .block label body =>
    let (notes, body) := countedBlock body
    (notes, .block label body)
  | .vector head body =>
    let (notes, body) := countedBlock body
    (notes, .vector head body)
  | _ => ({}, stmt)

def countedBlock (body : List Stmt) : Notes × List Stmt :=
  match body with
  | [] => ({}, [])
  | stmt :: rest =>
    let (first, stmt) := counted stmt
    let (second, rest) := countedBlock rest
    (first ++ second, stmt :: rest)

end

def countLoops (routine : Routine) : Notes × Routine :=
  let (notes, body) := countedBlock routine.body
  (notes, { routine with body })

end TwoTier.Passes
