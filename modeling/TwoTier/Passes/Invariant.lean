import TwoTier.Passes.Inlining

/-! What a loop does not change and can never fail is computed once before it. -/

namespace TwoTier.Passes

open Typed

/-- Whether evaluating the outermost node never fails, whatever the operands are. -/
def cannotFail : Expr → Bool
  | .binary op left _ =>
    match left.type, op with
    | .float, .add | .float, .sub | .float, .mul => true
    | .int, .bitAnd | .int, .bitOr | .int, .bitXor => true
    | _, _ => false
  | .unary .neg operand => operand.type = .float
  | .unary _ _ => true
  | .compare _ _ _ | .logic _ _ _ | .select _ _ _ => true
  | .cast op _ => op ≠ .intToFloatExact && op ≠ .floatToInt
  | .abs operand => operand.type = .float
  | .extremum _ _ _ => true
  | .const _ | .var _ _ | .len _ => true
  | .index _ _ _ | .call _ _ _ => false

/-- Whether an expression can be computed before a loop that writes these locals. -/
def isMovable (written : List LocalId) (expr : Expr) : Bool :=
  expr.nodes.all fun
    | .var id _ => !written.contains id
    | node => cannotFail node

structure Moving where
  routine : Routine
  moved : List Stmt := []

def moveOut (expr : Expr) : StateM Moving Expr :=
  modifyGet fun moving =>
    let (id, routine) := moving.routine.addTemp "$inv" (.scalar expr.type)
    (.var id expr.type, ⟨routine, moving.moved ++ [.assign id expr]⟩)

variable (written : List LocalId)

mutual

/-- Moves the largest invariant parts of an expression that are more than a leaf. -/
def liftExpr (expr : Expr) : StateM Moving Expr :=
  if isMovable written expr then
    if expr.nodeCount > 1 then moveOut expr else pure expr
  else
    match expr with
    | .const value => pure (.const value)
    | .var id type => pure (.var id type)
    | .len array => pure (.len array)
    | .unary op operand => return .unary op (← liftExpr operand)
    | .cast op operand => return .cast op (← liftExpr operand)
    | .index array element position => return .index array element (← liftExpr position)
    | .abs operand => return .abs (← liftExpr operand)
    | .binary op left right => return .binary op (← liftExpr left) (← liftExpr right)
    | .compare op left right => return .compare op (← liftExpr left) (← liftExpr right)
    | .logic op left right => return .logic op (← liftExpr left) (← liftExpr right)
    | .extremum op left right => return .extremum op (← liftExpr left) (← liftExpr right)
    | .select cond yes no =>
      return .select (← liftExpr cond) (← liftExpr yes) (← liftExpr no)
    | .call callee result args => return .call callee result (← liftArgs args)

def liftArgs (args : List (ArgOf Expr)) : StateM Moving (List (ArgOf Expr)) :=
  match args with
  | [] => pure []
  | .scalar value :: rest => return .scalar (← liftExpr value) :: (← liftArgs rest)
  | .array id :: rest => return .array id :: (← liftArgs rest)

end

mutual

/-- Moves invariants out of a statement inside a loop, its own expressions first. -/
def liftStmt (stmt : Stmt) : StateM Moving Stmt :=
  match stmt with
  | .assign id value => return .assign id (← liftExpr written value)
  | .store array index value =>
    return .store array (← liftExpr written index) (← liftExpr written value)
  | .eval value => return .eval (← liftExpr written value)
  | .branch cond yes no =>
    return .branch (← liftExpr written cond) (← liftBlock yes) (← liftBlock no)
  | .whileLoop cond body span =>
    return .whileLoop (← liftExpr written cond) (← liftBlock body) span
  | .forLoop head body => do
    let start ← liftExpr written head.start
    let stop ← liftExpr written head.stop
    let step ← liftExpr written head.step
    return .forLoop { head with start, stop, step } (← liftBlock body)
  | .giveBack (some (.scalar value)) =>
    return .giveBack (some (.scalar (← liftExpr written value)))
  | .block label body => return .block label (← liftBlock body)
  | .vector head body => do
    let start ← liftExpr written head.start
    let stop ← liftExpr written head.stop
    return .vector { head with start, stop } (← liftBlock body)
  | .parallel head chunk => do
    let start ← liftExpr written head.start
    let stop ← liftExpr written head.stop
    return .parallel { head with start, stop } chunk
  | _ => pure stmt

def liftBlock (body : List Stmt) : StateM Moving (List Stmt) :=
  match body with
  | [] => pure []
  | stmt :: rest => return (← liftStmt stmt) :: (← liftBlock rest)

end

/-- Runs on a loop and puts what was moved before it. -/
def withMoved (lift : StateM Moving Stmt) : StateM Work (List Stmt) :=
  modifyGet fun work =>
    let (stmt, moving) := lift.run ⟨work.routine, []⟩
    let notes : Notes :=
      if moving.moved.isEmpty then {}
      else .applying (toString moving.moved.length ++ " invariant expressions hoisted")
    (moving.moved ++ [stmt], ⟨moving.routine, work.notes ++ notes⟩)

mutual

/-- Moves invariants out of the loops of a statement, inner loops first. -/
def hoisted (stmt : Stmt) : StateM Work (List Stmt) :=
  match stmt with
  | .branch cond yes no => return [.branch cond (← hoistedBlock yes) (← hoistedBlock no)]
  | .whileLoop cond body span => do
    let body ← hoistedBlock body
    let written := Stmt.writtenLocals body
    withMoved (return .whileLoop (← liftExpr written cond) (← liftBlock written body) span)
  | .forLoop head body => do
    let body ← hoistedBlock body
    let written := head.var :: Stmt.writtenLocals body
    withMoved (return .forLoop head (← liftBlock written body))
  | .block label body => return [.block label (← hoistedBlock body)]
  | .vector head body => return [.vector head (← hoistedBlock body)]
  | _ => pure [stmt]

def hoistedBlock (body : List Stmt) : StateM Work (List Stmt) :=
  match body with
  | [] => pure []
  | stmt :: rest => return (← hoisted stmt) ++ (← hoistedBlock rest)

end

def hoistInvariants (routine : Routine) : Notes × Routine :=
  let (body, work) := (hoistedBlock routine.body).run { routine }
  (work.notes, { work.routine with body })

end TwoTier.Passes
