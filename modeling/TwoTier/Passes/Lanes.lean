import TwoTier.Passes.Dependence

/-! Loops that run several iterations at a time, in packed pairs or split into lanes. -/

namespace TwoTier.Passes

open Typed

def isFloatArray (routine : Routine) (id : LocalId) : Bool :=
  (routine.decl id).kind = .array .float

/-- Whether an expression has a packed form. -/
def isPackable (routine : Routine) (var : LocalId) (invariants : List LocalId) : Expr → Bool
  | .const (.float _) => true
  | .var id type => type = .float && invariants.contains id
  | .index array element position =>
    element = .float && isFloatArray routine array && position.var? = some var
  | .binary op left right =>
    left.type = .float && (op = .add || op = .sub || op = .mul) &&
      isPackable routine var invariants left && isPackable routine var invariants right
  | .unary .neg operand => operand.type = .float && isPackable routine var invariants operand
  | _ => false

/-- Whether a value updates an accumulator by something that has a packed form. -/
def isPackableUpdate (routine : Routine) (var : LocalId) (invariants : List LocalId)
    (acc : LocalId) : Expr → Bool
  | .binary _ left right =>
    if left.var? = some acc then isPackable routine var invariants right
    else if right.var? = some acc then isPackable routine var invariants left
    else false
  | _ => false

def isPackableStmt (routine : Routine) (var : LocalId) (use : LoopUse) : Stmt → Bool
  | .store array index value =>
    isFloatArray routine array && index.var? = some var &&
      isPackable routine var use.invariants value
  | .assign acc value =>
    use.reductions.any (·.acc = acc) && isPackableUpdate routine var use.invariants acc value
  | _ => false

def isPackedReduction (reduction : Reduction) : Bool :=
  reduction.type = .float && (reduction.op = .add || reduction.op = .sub || reduction.op = .mul)

def isPackedLoop (routine : Routine) (head : ForHead) (body : List Stmt) (use : LoopUse) : Bool :=
  use.privates.isEmpty && use.reductions.all isPackedReduction &&
    body.all (isPackableStmt routine head.var use)

def vectorize (routine : Routine) (width : Nat) (head : ForHead) (body : List Stmt)
    (use : LoopUse) : Notes × Stmt :=
  let place := "loop at " ++ head.span.text
  let split (form : VectorForm) (arrays : List LocalId) : Stmt :=
    .vector ⟨head.var, head.start, head.stop, use.reductions, form, arrays, head.span⟩ body
  if isPackedLoop routine head body use then
    (.applying (place ++ " packed as f64x2"), split .packed use.arrays)
  else
    (.applying (place ++ " split into " ++ toString width ++ " lanes"), split (.lanes width) [])

mutual

/-- Splits the innermost loops of a statement, those in kernels included. -/
def laned (routine : Routine) (width : Nat) (reads : List LocalId) (stmt : Stmt) : Notes × Stmt :=
  match stmt with
  | .forLoop head body =>
    if isInnermost body then
      match loopUse routine head body .vector reads with
      | .ok use => vectorize routine width head body use
      | .error reason => (.skipping ("loop at " ++ head.span.text ++ ": " ++ reason), stmt)
    else
      let (notes, body) := lanedBlock routine width reads body
      (notes, .forLoop head body)
  | .parallel head chunk =>
    let (notes, chunk) := laned routine width reads chunk
    (notes, .parallel head chunk)
  | .branch cond yes no =>
    let (first, yes) := lanedBlock routine width reads yes
    let (second, no) := lanedBlock routine width reads no
    (first ++ second, .branch cond yes no)
  | .whileLoop cond body span =>
    let (notes, body) := lanedBlock routine width reads body
    (notes, .whileLoop cond body span)
  | .block label body =>
    let (notes, body) := lanedBlock routine width reads body
    (notes, .block label body)
  | .vector head body =>
    let (notes, body) := lanedBlock routine width reads body
    (notes, .vector head body)
  | _ => ({}, stmt)

def lanedBlock (routine : Routine) (width : Nat) (reads : List LocalId) (body : List Stmt) :
    Notes × List Stmt :=
  match body with
  | [] => ({}, [])
  | stmt :: rest =>
    let (first, stmt) := laned routine width reads stmt
    let (second, rest) := lanedBlock routine width reads rest
    (first ++ second, stmt :: rest)

end

def splitLanes (width : Nat) (routine : Routine) : Notes × Routine :=
  if width < 2 then (.skipping "vector width is below 2", routine)
  else
    let (notes, body) := lanedBlock routine width (scalarReads routine.body) routine.body
    (notes, { routine with body })

end TwoTier.Passes
