import TwoTier.Passes.Report

/-! Which loops of unit stride may run their iterations out of order. Scalars that the body writes
are accumulators or private, and arrays that it stores into are accessed at the counter alone. -/

namespace TwoTier.Passes

open Typed

/-- What a loop is examined for. -/
inductive Lowering where
  | vector
  | parallel
deriving DecidableEq, Repr

/-- How a loop uses its locals across iterations. -/
structure LoopUse where
  reductions : List Reduction
  privates : List LocalId
  /-- scalars that the body reads and never writes, in order -/
  invariants : List LocalId
  /-- all arrays of the body -/
  arrays : List LocalId
deriving DecidableEq, Repr

def scalarReads (body : List Stmt) : List LocalId :=
  (Stmt.blockExprNodes body).filterMap Expr.var?

def isUnitStride (head : ForHead) : Bool :=
  head.bound = .range && !head.exitValue &&
    match head.step with
    | .const (.int step) => step = 1
    | _ => false

def isLoop : Stmt → Bool
  | .forLoop _ _ | .whileLoop _ _ _ | .vector _ _ | .parallel _ _ => true
  | _ => false

def isInnermost (body : List Stmt) : Bool := !(Stmt.blockNodes body).any isLoop

def splitObstacle? (stmt : Stmt) : Option String :=
  match stmt with
  | .leave => some "break leaves the loop early"
  | .giveBack _ => some "the body returns"
  | .whileLoop _ _ _ => some "the body contains a while loop"
  | .vector _ _ | .parallel _ _ => some "the body is already lowered"
  | _ => if stmt.exprs.any (·.containsCall) then some "the body calls a function" else none

def updateOp? (acc : LocalId) (value : Expr) : Option ReductionOp :=
  let isAcc (expr : Expr) : Bool := expr.var? = some acc
  let free (expr : Expr) (op : ReductionOp) : Option ReductionOp :=
    if expr.readsLocal acc then none else some op
  match value with
  | .binary .add left right =>
    if isAcc left then free right .add else if isAcc right then free left .add else none
  | .binary .mul left right =>
    if isAcc left then free right .mul else if isAcc right then free left .mul else none
  | .binary .sub left right => if isAcc left then free right .sub else none
  | .extremum op left right =>
    let op : ReductionOp :=
      match op with
      | .min => .min
      | .max => .max
    match isAcc left, isAcc right with
    | true, false => free right op
    | false, true => free left op
    | _, _ => none
  | _ => none

/-- How each write of a local updates it; nothing for a write that is no update. -/
def updatesOf (acc : LocalId) (body : List Stmt) : List (Option ReductionOp) :=
  (Stmt.blockNodes body).filterMap fun
    | .assign id value => if id = acc then some (updateOp? acc value) else none
    | .forLoop head _ => if head.var = acc then some none else none
    | _ => none

/-- The operator of an accumulator: all its writes update it by this operator, and each read of it
belongs to an update. -/
def reductionOp? (acc : LocalId) (type : NumType) (body : List Stmt) : Option ReductionOp :=
  if type = .bool then none
  else
    match updatesOf acc body with
    | some op :: rest =>
      if rest.all (· = some op) ∧ (scalarReads body).count acc = rest.length + 1 then some op
      else none
    | _ => none

def reductionObstacle? (decl : LocalDecl) (type : NumType) (op : ReductionOp) : Option String :=
  if type = .float ∧ (op = .min ∨ op = .max) then
    some ("float min/max reduction on '" ++ decl.name ++ "' depends on evaluation order")
  else if type ≠ .float ∧ op = .mul then
    some ("integer product on '" ++ decl.name ++
      "' may overflow at a different point when split")
  else none

/-- The scalars of a loop that are accumulators, and the others. -/
def classify (routine : Routine) (body : List Stmt) :
    List LocalId → Except String (List Reduction × List LocalId)
  | [] => .ok ([], [])
  | id :: rest => do
    let decl := routine.decl id
    match decl.kind with
    | .array _ => classify routine body rest
    | .scalar type =>
      match reductionOp? id type body with
      | none =>
        let (reductions, others) ← classify routine body rest
        return (reductions, id :: others)
      | some op =>
        match reductionObstacle? decl type op with
        | some reason => throw reason
        | none =>
          let (reductions, others) ← classify routine body rest
          return (⟨id, op, type⟩ :: reductions, others)

/-- The locals that an iteration has assigned on every path to a point. -/
structure Assigned where
  ids : List LocalId := []
  dead : Bool := false

def Assigned.join (a b : Assigned) : Assigned :=
  if a.dead then b else if b.dead then a else ⟨a.ids.filter b.ids.contains, false⟩

def Assigned.add (assigned : Assigned) (id : LocalId) : Assigned :=
  { assigned with ids := assigned.ids ++ [id] }

def checkReads (candidates : List LocalId) (assigned : Assigned) (expr : Expr) :
    Except LocalId Unit :=
  match (expr.nodes.filterMap Expr.var?).find? fun id =>
      candidates.contains id && !assigned.ids.contains id with
  | some id => .error id
  | none => .ok ()

mutual

/-- Follows one iteration. What inner loops and blocks assign does not count. -/
def flowStmt (candidates : List LocalId) (stmt : Stmt) (assigned : Assigned) :
    Except LocalId Assigned :=
  match stmt with
  | .assign id value => do
    checkReads candidates assigned value
    return assigned.add id
  | .branch cond yes no => do
    checkReads candidates assigned cond
    let afterYes ← flowBlock candidates yes assigned
    let afterNo ← flowBlock candidates no assigned
    return afterYes.join afterNo
  | .forLoop head body => do
    checkReads candidates assigned head.start
    checkReads candidates assigned head.stop
    checkReads candidates assigned head.step
    let _ ← flowBlock candidates body (assigned.add head.var)
    return assigned
  | .block _ body => do
    let _ ← flowBlock candidates body assigned
    return assigned
  | .skip | .leave | .giveBack _ | .exit _ => .ok { assigned with dead := true }
  | _ => do
    stmt.exprs.forM (checkReads candidates assigned)
    return assigned

def flowBlock (candidates : List LocalId) (body : List Stmt) (assigned : Assigned) :
    Except LocalId Assigned :=
  match body with
  | [] => .ok assigned
  | stmt :: rest => do
    if assigned.dead then return assigned
    let assigned ← flowStmt candidates stmt assigned
    flowBlock candidates rest assigned

end

/-- The arrays of a statement: those stored into first, then those read. -/
def arraysOf (stmt : Stmt) : List LocalId :=
  Stmt.storedArrays [stmt] ++ (Stmt.blockExprNodes [stmt]).filterMap fun
    | .index array _ _ => some array
    | .len array => some array
    | _ => none

/-- The counter and the private locals that only ever hold it. -/
def counterNames (var : LocalId) (body : List Stmt) (privates : List LocalId) : List LocalId :=
  var :: privates.filter fun id =>
    (Stmt.blockNodes body).all fun
      | .assign target value => target ≠ id || value.var? = some var
      | .forLoop head _ => head.var ≠ id
      | _ => true

/-- Whether every access to an array is at one of these locals. -/
def accessedOnlyAt (array : LocalId) (body : List Stmt) (names : List LocalId) : Bool :=
  let isName (expr : Expr) : Bool := expr.var?.any names.contains
  ((Stmt.blockNodes body).all fun
    | .store target index _ => target ≠ array || isName index
    | _ => true) &&
  (Stmt.blockExprNodes body).all fun
    | .index target _ position => target ≠ array || isName position
    | _ => true

/-- Sorted without repetition. -/
def sortedIds (ids : List LocalId) : List LocalId :=
  (Sorted.sort (fun a b => a ≤ b) ids).eraseDups

/-- Examines a loop. The reads of the whole routine show which privates are still read after it. -/
def loopUse (routine : Routine) (head : ForHead) (body : List Stmt) (lowering : Lowering)
    (routineReads : List LocalId) : Except String LoopUse := do
  if !isUnitStride head then throw "stride is not a literal 1"
  if let some reason := (Stmt.blockNodes body).findSome? splitObstacle? then throw reason
  let written := Stmt.writtenLocals body
  if written.contains head.var then throw "the loop counter is reassigned in the body"
  let (reductions, privates) ← classify routine body written.eraseDups
  if let .error id := flowBlock privates body {} then
    throw ("'" ++ (routine.decl id).name ++ "' carries a value between iterations")
  let reads := scalarReads body
  if lowering = .parallel then
    if reductions.length > 1 then throw "more than one reduction"
    if let some id := privates.find? fun id => routineReads.count id > reads.count id then
      throw ("'" ++ (routine.decl id).name ++ "' is read after the loop")
  let names := counterNames head.var body privates
  if let some array := (Stmt.storedArrays body).find? fun array =>
      !accessedOnlyAt array body names then
    throw ("cross-iteration dependency on '" ++ (routine.decl array).name ++ "'")
  let invariants := reads.filter fun id =>
    id ≠ head.var && !written.contains id && !(routine.decl id).kind.isArray
  return ⟨reductions, privates, sortedIds invariants, (body.flatMap arraysOf).eraseDups⟩

end TwoTier.Passes
