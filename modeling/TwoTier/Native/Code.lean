import TwoTier.Native.Vector
import TwoTier.Typed.CallGraph

/-! Generation of code. A body has code if every node has instructions, every local is what it is
used for and every jump has its target. -/

namespace TwoTier.Native

open Typed

inductive CodeFault where
  | unknownLocal (id : LocalId)
  | arrayAsScalar (name : String)
  | scalarAsArray (name : String)
  | capturedScalar
  | parameterKind (routine : String)
  | loopExitOutside
  | unknownLabel (label : Label)
  | foreignArrayResult
  | undeclaredCallee (name : String)
  | missingKernel
  | intDivision
  | arithOnBool (op : ArithOp)
  | arithOnFloat (op : ArithOp)
  | unaryOn (op : UnaryOp) (type : NumType)
  | absOfBool
  | packedArith (op : ArithOp)
  | packedStmt
  | packedExpr
  | packedTarget
  | packedValue
  | frameShape (scalars arrays expectedScalars expectedArrays : Nat)
deriving DecidableEq, Repr

namespace CodeFault

private def unaryWord : UnaryOp → String
  | .neg => "Neg"
  | .invert => "Invert"
  | .not => "Not"

private def typeWord : NumType → String
  | .int => "Int"
  | .float => "Float"
  | .bool => "Bool"

private def unsupportedNode (text : String) : String := "Unsupported node: " ++ text

private def internalFault (text : String) : String := "Internal JIT compiler error: " ++ text

def message : CodeFault → String
  | unknownLocal id => internalFault ("unknown local " ++ toString id)
  | arrayAsScalar name => internalFault ("'" ++ name ++ "' is an array")
  | scalarAsArray name => internalFault ("'" ++ name ++ "' is not an array")
  | capturedScalar => internalFault "captured array is a scalar"
  | parameterKind routine => internalFault ("parameter kind mismatch in '" ++ routine ++ "'")
  | loopExitOutside => internalFault "loop exit outside a loop"
  | unknownLabel label => internalFault ("unknown block label " ++ toString label)
  | foreignArrayResult => unsupportedNode "returning an array that is not a parameter"
  | undeclaredCallee name => internalFault ("'" ++ name ++ "' was not declared")
  | missingKernel => internalFault "parallel loop without a kernel"
  | intDivision => internalFault "true division of integers"
  | arithOnBool op => unsupportedNode ("'" ++ op.symbol ++ "' on bool")
  | arithOnFloat op => unsupportedNode ("'" ++ op.symbol ++ "' on float")
  | unaryOn op type => unsupportedNode ("unary " ++ unaryWord op ++ " on " ++ typeWord type)
  | absOfBool => unsupportedNode "abs of bool"
  | packedArith op => unsupportedNode ("packed '" ++ op.symbol ++ "'")
  | packedStmt => internalFault "statement cannot be packed"
  | packedExpr => internalFault "expression cannot be packed"
  | packedTarget => internalFault "packed assignment is not a reduction"
  | packedValue => internalFault "packed reduction is not binary"
  | frameShape scalars arrays expectedScalars expectedArrays =>
    internalFault ("frame has " ++ toString scalars ++ " scalars and " ++ toString arrays ++
      " arrays, expected " ++ toString expectedScalars ++ " and " ++ toString expectedArrays)

end CodeFault

abbrev Check := Except CodeFault Unit

/-- Where a statement stands: its routine and its position among the statements there, outermost
first and in order. -/
structure Address where
  routine : RoutineIndex
  position : Nat

/-- Where code is generated: the routine, the labels around, and whether there is a loop around. -/
structure Place where
  body : Body
  declared : List RoutineIndex
  /-- the loops over chunks that have kernels -/
  kernels : List Address
  index : RoutineIndex
  routine : Routine
  labels : List Label := []
  inLoop : Bool := false

namespace Place

variable (place : Place)

def inside : Place := { place with inLoop := true }

def under (label : Label) : Place := { place with labels := label :: place.labels }

def hasKernel (position : Nat) : Bool :=
  place.kernels.any fun kernel => kernel.routine == place.index && kernel.position == position

def checkScalar (id : LocalId) : Check :=
  match place.routine.locals[id]? with
  | none => .error (.unknownLocal id)
  | some decl => if decl.kind.isArray then .error (.arrayAsScalar decl.name) else .ok ()

def checkArray (id : LocalId) : Check :=
  match place.routine.locals[id]? with
  | none => .error (.unknownLocal id)
  | some decl => if decl.kind.isArray then .ok () else .error (.scalarAsArray decl.name)

def checkArith (op : ArithOp) (type : NumType) : Check :=
  match type, op with
  | .int, .div => .error .intDivision
  | .int, _ => .ok ()
  | .float, .bitAnd | .float, .bitOr | .float, .bitXor | .float, .shl | .float, .shr =>
    .error (.arithOnFloat op)
  | .float, _ => .ok ()
  | .bool, _ => .error (.arithOnBool op)

def checkUnary (op : UnaryOp) (type : NumType) : Check :=
  match op, type with
  | .neg, .int | .neg, .float | .invert, .int | .not, _ => .ok ()
  | _, _ => .error (.unaryOn op type)

mutual

def checkExpr (expr : Expr) : Check :=
  match expr with
  | .const _ => .ok ()
  | .var id _ => place.checkScalar id
  | .unary op operand => do
    checkExpr operand
    checkUnary op operand.type
  | .binary op left right => do
    checkExpr left
    checkExpr right
    checkArith op left.type
  | .compare _ left right => do
    checkExpr left
    checkExpr right
  | .logic _ left right => do
    checkExpr left
    checkExpr right
  | .select cond yes no => do
    checkExpr cond
    checkExpr yes
    checkExpr no
  | .cast _ operand => checkExpr operand
  | .index array _ position => do
    checkExpr position
    place.checkArray array
  | .len array => place.checkArray array
  | .call callee _ args => do
    if !place.declared.contains callee then
      throw (.undeclaredCallee (place.body.routine callee).name)
    checkArgs args
  | .abs operand => do
    checkExpr operand
    if operand.type = .bool then throw .absOfBool
  | .extremum _ left right => do
    checkExpr left
    checkExpr right

def checkArgs (args : List (ArgOf Expr)) : Check :=
  match args with
  | [] => .ok ()
  | .scalar value :: rest => do
    checkExpr value
    checkArgs rest
  | .array id :: rest => do
    place.checkArray id
    checkArgs rest

end

def checkPackedArith (op : ArithOp) : Check :=
  if op = .add ∨ op = .sub ∨ op = .mul then .ok () else .error (.packedArith op)

def checkPackedExpr : Expr → Check
  | .const _ => .ok ()
  | .var id _ => place.checkScalar id
  | .index array _ _ => place.checkArray array
  | .binary op left right => do
    checkPackedExpr left
    checkPackedExpr right
    checkPackedArith op
  | .unary .neg operand => checkPackedExpr operand
  | _ => .error .packedExpr

def checkPackedStmt (reductions : List Reduction) : Stmt → Check
  | .store array _ value => do
    place.checkPackedExpr value
    place.checkArray array
  | .assign acc value => do
    if !reductions.any (·.acc = acc) then throw .packedTarget
    match value with
    | .binary op left right =>
      place.checkPackedExpr (if left.var? = some acc then right else left)
      checkPackedArith op
    | _ => throw .packedValue
  | _ => .error .packedStmt

def checkReductions (reductions : List Reduction) : Check :=
  reductions.forM fun reduction => place.checkScalar reduction.acc

def checkResult : Option Result → Check
  | none => .ok ()
  | some (.scalar value) => place.checkExpr value
  | some (.array id) =>
    match (place.routine.decl id).origin with
    | .param _ => .ok ()
    | _ => .error .foreignArrayResult

/-- What a loop over chunks uses of the routine around it. -/
def checkCaptured (head : ParallelHead) : Check := do
  head.captures.forM place.checkScalar
  head.arrays.forM place.checkArray
  checkReductions place head.reduction.toList
  place.checkScalar head.var

mutual

def checkStmt (place : Place) (position : Nat) (stmt : Stmt) : Check :=
  match stmt with
  | .assign id value => do
    place.checkScalar id
    place.checkExpr value
  | .store array index value => do
    place.checkExpr value
    place.checkExpr index
    place.checkArray array
  | .eval value => place.checkExpr value
  | .branch cond yes no => do
    place.checkExpr cond
    checkBlock place (position + 1) yes
    checkBlock place (position + 1 + (Stmt.blockNodes yes).length) no
  | .whileLoop cond body _ => do
    place.checkExpr cond
    checkBlock place.inside (position + 1) body
  | .forLoop head body => do
    place.checkExpr head.start
    place.checkExpr head.stop
    place.checkExpr head.step
    place.checkScalar head.var
    checkBlock place.inside (position + 1) body
  | .leave => if place.inLoop then .ok () else .error .loopExitOutside
  | .skip => if place.inLoop then .ok () else .error .loopExitOutside
  | .giveBack value => place.checkResult value
  | .block label body => checkBlock (place.under label) (position + 1) body
  | .exit label => if place.labels.contains label then .ok () else .error (.unknownLabel label)
  | .vector head body => do
    place.checkExpr head.start
    place.checkExpr head.stop
    match head.form with
    | .packed => body.forM (place.checkPackedStmt head.reductions)
    | .lanes _ => place.checkReductions (head.reductions.filter needsDistance)
    place.checkReductions head.reductions
    place.checkScalar head.var
    checkBlock place.inside (position + 1) body
  | .parallel head chunk => do
    if !place.hasKernel position then throw .missingKernel
    place.checkExpr head.start
    place.checkExpr head.stop
    place.checkScalar head.chunkLo
    place.checkScalar head.chunkHi
    checkStmt place (position + 1) chunk
    place.checkCaptured head

def checkBlock (place : Place) (position : Nat) (body : List Stmt) : Check :=
  match body with
  | [] => .ok ()
  | stmt :: rest => do
    checkStmt place position stmt
    checkBlock place (position + stmt.nodes.length) rest

end

def checkKernelArray (id : LocalId) : Check :=
  match place.routine.locals[id]? with
  | none => .error (.unknownLocal id)
  | some decl => if decl.kind.isArray then .ok () else .error .capturedScalar

/-- A kernel knows no label and no loop of the routine it comes from. -/
def checkKernel (position : Nat) (head : ParallelHead) (chunk : Stmt) : Check := do
  let place := { place with labels := [], inLoop := false }
  head.captures.forM place.checkScalar
  head.arrays.forM place.checkKernelArray
  place.checkScalar head.chunkLo
  place.checkScalar head.chunkHi
  place.checkReductions head.reduction.toList
  checkStmt place (position + 1) chunk

def checkParams : Check :=
  (place.routine.params.zip place.routine.argKinds).forM fun (param, kind) =>
    match place.routine.locals[param]? with
    | none => .error (.unknownLocal param)
    | some decl =>
      if decl.kind.isArray = kind.isArray then .ok ()
      else .error (.parameterKind place.routine.name)

def checkRoutine : Check := do
  place.checkParams
  checkBlock place 0 place.routine.body

def checkKernels : Check :=
  (Stmt.blockNodes place.routine.body).zipIdx.forM fun
    | (.parallel head chunk, position) => place.checkKernel position head chunk
    | _ => .ok ()

end Place

structure Code where
  body : Body

namespace Code

def argKinds (code : Code) : List Kind := code.body.root.argKinds

def result (code : Code) : ReturnKind := code.body.root.result

/-- The loops over chunks of a routine, each of which gets a kernel. -/
def kernelsOf (body : Body) (index : RoutineIndex) : List Address :=
  (Stmt.blockNodes (body.routine index).body).zipIdx.filterMap fun
    | (.parallel _ _, position) => some ⟨index, position⟩
    | _ => none

/-- Declares routines and kernels, generates the routines and then the kernels, or gives the first
fault. -/
def generate (body : Body) : Except CodeFault Code := do
  let reachable := body.reachable
  let kernels := reachable.flatMap (kernelsOf body)
  let placeOf (index : RoutineIndex) : Place :=
    { body, declared := reachable, kernels, index, routine := body.routine index }
  reachable.forM fun index => (placeOf index).checkRoutine
  reachable.forM fun index => (placeOf index).checkKernels
  return ⟨body⟩

end Code
end TwoTier.Native
