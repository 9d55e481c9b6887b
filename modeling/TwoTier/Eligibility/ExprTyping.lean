import TwoTier.Eligibility.Draft

namespace TwoTier.Eligibility

open Surface (BinOp BoolOp CmpOp Ident UnaryOp)

open Typed (Arg CastOp Comparison Expr LocalId LogicOp)

namespace Subject

variable (subject : Subject)

def requireArray (expr : Surface.Expr) : Typing LocalId := do
  match (← Typing.scope).array? expr with
  | some id => pure id
  | none =>
    subject.unsupported ("subscript of " ++ expr.describe) "only array arguments can be indexed"
      expr.span

/-- Takes a constant of the module into the code. -/
def captureConstant (name : String) (value : Scalar) : Typing Expr := do
  Typing.raisePurity .readsGlobal
  Attempt.modify fun draft =>
    { draft with
      globalsRead :=
        if draft.globalsRead.contains name then draft.globalsRead
        else draft.globalsRead ++ [name]
      closure := { draft.closure with globals := name :: draft.closure.globals } }
  pure (.const value)

def typeName (name : String) (span : Span) : Typing Expr := do
  let scope ← Typing.scope
  if scope.isLocalName name then
    match (scope.lookup? name).filter scope.definite.isAssigned with
    | none =>
      subject.unsupported ("read of '" ++ name ++ "'")
        "local variable may be referenced before assignment" span
    | some id =>
      match (scope.decl id).kind with
      | .scalar type => pure (.var id type)
      | .array _ =>
        subject.unsupported ("array '" ++ name ++ "' used as a value")
          "arrays may only be indexed, measured, passed or returned" span
  else
    match subject.program.constant? name with
    | some value => captureConstant name value
    | none =>
      subject.unsupported ("global '" ++ name ++ "'")
        "only module-level numeric constants can be read" span

def arithOp? : BinOp → Option ArithOp
  | .add => some .add | .sub => some .sub | .mul => some .mul | .div => some .div
  | .floorDiv => some .floorDiv | .mod => some .mod | .pow => some .pow
  | .bitAnd => some .bitAnd | .bitOr => some .bitOr | .bitXor => some .bitXor
  | .shl => some .shl | .shr => some .shr
  | .matMul => none

/-- An operator on two integers. The type of a power depends on the sign of its exponent. -/
def typeIntArith (op : ArithOp) (left right : Expr) (span : Span) : Typing Expr :=
  match op with
  | .div =>
    pure (.binary .div (.cast .intToFloatExact left) (.cast .intToFloatExact right))
  | .pow =>
    match right with
    | .const (.int exponent) =>
      if 0 ≤ exponent then pure (.binary .pow left right)
      else pure (.binary .pow (.cast .intToFloat left) (.cast .intToFloat right))
    | _ =>
      subject.unsupported "integer '**' with a variable exponent"
        "the result type depends on the exponent's sign" span
  | _ => pure (.binary op left right)

def typeFloatArith (op : ArithOp) (left right : Expr) (span : Span) : Typing Expr :=
  match op with
  | .bitAnd | .bitOr | .bitXor | .shl | .shr =>
    subject.unsupported ("'" ++ op.symbol ++ "' on float") "bitwise operators need integers" span
  | _ => pure (.binary op left.promoted right.promoted)

def typeArith (op : BinOp) (left right : Expr) (span : Span) : Typing Expr :=
  if left.type = .bool ∨ right.type = .bool then
    subject.unsupported ("'" ++ op.symbol ++ "' on bool") "arithmetic on booleans is not compiled"
      span
  else
    match arithOp? op with
    | none => subject.unsupported "'@'" "matrix multiplication operator" span
    | some typed =>
      if left.type = .int ∧ right.type = .int then subject.typeIntArith typed left right span
      else subject.typeFloatArith typed left right span

def typeUnary (op : UnaryOp) (operand : Expr) (span : Span) : Typing Expr :=
  match op with
  | .not => pure (.unary .not operand.truth)
  | _ =>
    if operand.type = .bool then
      subject.unsupported "arithmetic on bool" "arithmetic on booleans is not compiled" span
    else
      match op with
      | .pos => pure operand
      | .neg => pure (.unary .neg operand)
      | _ =>
        if operand.type = .int then pure (.unary .invert operand)
        else subject.unsupported "'~' on float" "bitwise operators need integers" span

def comparison? : CmpOp → Option Comparison
  | .eq => some .eq | .ne => some .ne | .lt => some .lt | .le => some .le | .gt => some .gt
  | .ge => some .ge
  | .is | .isNot | .isIn | .notIn => none

def typeComparison (op : CmpOp) (left right : Expr) (span : Span) : Typing Expr :=
  match comparison? op with
  | none =>
    subject.unsupported ("'" ++ op.symbol ++ "' test")
      "identity and membership tests need host objects" span
  | some typed =>
    match left.type, right.type with
    | .int, .float => pure (.compare typed (.cast .intToFloatExact left) right)
    | .float, .int => pure (.compare typed left (.cast .intToFloatExact right))
    | a, b =>
      if a = b then pure (.compare typed left right)
      else
        subject.unsupported ("comparison of " ++ a.name ++ " with " ++ b.name)
          "booleans only compare with booleans" span

def typeLogic (op : BoolOp) (left right : Expr) (span : Span) : Typing Expr :=
  let (typed, name) : LogicOp × String :=
    match op with
    | .and => (.and, "and")
    | .or => (.or, "or")
  if left.type = right.type then pure (.logic typed left right)
  else
    subject.inconsistent ("operands of '" ++ name ++ "' are " ++ left.type.name ++ " and " ++
      right.type.name) span

def requireInt (expr : Expr) (span : Span) : Typing Expr :=
  if expr.type = .int then pure expr
  else subject.unsupported (expr.type.name ++ " index") "array indices must be integers" span

def typeLen (arg : Surface.Expr) (span : Span) : Typing Expr := do
  match (← Typing.scope).array? arg with
  | some id => pure (.len id)
  | none =>
    subject.unsupported ("len() of " ++ arg.describe) "only array lengths are compiled" span

def typeAbs (operand : Expr) (span : Span) : Typing Expr :=
  if operand.type = .bool then
    subject.unsupported "abs() of bool" "arithmetic on booleans is not compiled" span
  else pure (.abs operand)

def typeExtremum (name : String) (left right : Expr) (span : Span) : Typing Expr :=
  if left.type ≠ right.type ∨ left.type = .bool then
    subject.inconsistent (name ++ "() of " ++ left.type.name ++ " and " ++ right.type.name) span
  else pure (.extremum (if name = "min" then .min else .max) left right)

/-- A conversion by name; to its own type an expression converts as it is. -/
def convert (name : String) (operand : Expr) : Expr :=
  match name, operand.type with
  | "int", .int => operand
  | "int", .float => .cast .floatToInt operand
  | "int", .bool => .cast .boolToInt operand
  | _, .float => operand
  | _, .int => .cast .intToFloat operand
  | _, .bool => .cast .boolToFloat operand

def arityFault (name : String) (given : Nat) (expected : String) (span : Span) : Typing Expr :=
  subject.unsupported (name ++ "() with " ++ toString given ++ " arguments")
    ("compiled " ++ name ++ "() takes " ++ expected) span

/-- Requests the callee of a call. A refusal of another function becomes a refusal of the call. -/
def requestCallee (name : String) (kinds : List Kind) (span : Span) :
    Typing (Typed.RoutineIndex × ReturnKind) :=
  Attempt.mapRefusal
    (fun refusal =>
      if refusal.function = subject.function ∧ name = subject.function then refusal
      else .unsupported subject.function ("call to " ++ name ++ "()")
        ("callee is not eligible: " ++ refusal.message) span)
    (Attempt.onPart (·.closure) (fun closure draft => { draft with closure })
      (subject.specialize name kinds span))

/-- A call of a module function with typed arguments. Only a statement may call for nothing. -/
def typeModuleCall (name : String) (args : List (Kind × Arg)) (span : Span) (isStatement : Bool) :
    Typing Expr := do
  let (callee, result) ← subject.requestCallee name (args.map (·.1)) span
  match result with
  | .scalar type => pure (.call callee type (args.map (·.2)))
  | .nothing =>
    if isStatement then pure (.call callee .int (args.map (·.2)))
    else subject.unsupported ("result of " ++ name ++ "()") "the callee returns None" span
  | .array _ =>
    subject.unsupported ("array result of " ++ name ++ "()")
      "array results are only returned to the host" span

mutual

def typeExpr (expr : Surface.Expr) : Typing Expr :=
  match expr with
  | .int _ value => pure (.const (.int value))
  | .float _ value => pure (.const (.float value))
  | .bool _ value => pure (.const (.bool value))
  | .name span text => subject.typeName text span
  | .binary span op left right => do
    let left ← typeExpr left
    let right ← typeExpr right
    subject.typeArith op left right span
  | .unary span op operand => do
    let operand ← typeExpr operand
    subject.typeUnary op operand span
  | .boolOp span op left right => do
    let left ← typeExpr left
    let right ← typeExpr right
    subject.typeLogic op left right span
  | .compare span left rest => do
    let left ← typeExpr left
    typeChain span left none rest
  | .call span func args keywords =>
    match func.name? with
    | none =>
      subject.unsupported ("call through " ++ func.describe)
        "only module functions and numeric builtins are called" span
    | some name => do
      if (← Typing.scope).isLocalName name then
        subject.unsupported ("call of local '" ++ name ++ "'")
          "locals are never callable in compiled code" span
      else if (subject.program.function? name).isSome then
        if keywords.isEmpty then
          let args ← typeArgs args
          subject.typeModuleCall name args span false
        else
          subject.unsupported ("keyword arguments to " ++ name ++ "()")
            "compiled calls pass arguments by position" span
      else if keywords.isEmpty then
        typeBuiltin name args span
      else subject.unsupported ("keyword arguments to " ++ name ++ "()") "not compilable" span
  | .subscript _ value index => do
    let array ← subject.requireArray value
    let position ← typeExpr index
    let position ← subject.requireInt position index.span
    pure (.index array ((← Typing.scope).decl array).kind.numType position)
  | .conditional span cond yes no => do
    let cond ← typeExpr cond
    let yes ← typeExpr yes
    let no ← typeExpr no
    if yes.type = no.type then pure (.select cond.truth yes no)
    else
      subject.inconsistent ("conditional expression yields " ++ yes.type.name ++ " or " ++
        no.type.name) span
  | .none _ | .str _ _ | .member _ _ _ | .list _ _ | .tuple _ _ | .dict _ _ | .lambda _ _ _ =>
    subject.unsupported expr.describe "not a numeric scalar" expr.span

/-- The rest of a chain of comparisons. A middle operand takes part in two of them. -/
def typeChain (span : Span) (left : Expr) (before : Option Expr)
    (rest : List (CmpOp × Surface.Expr)) : Typing Expr :=
  match rest with
  | [] =>
    match before with
    | some chain => pure chain
    | none => subject.unsupported "empty comparison" "not compilable" span
  | (op, written) :: rest => do
    let right ← typeExpr written
    if !rest.isEmpty && right.containsCall then
      subject.unsupported "chained comparison through a call"
        "the middle operand would be evaluated twice" written.span
    else
      let test ← subject.typeComparison op left right span
      let chain :=
        match before with
        | some chain => Expr.logic .and chain test
        | none => test
      typeChain span right (some chain) rest

def typeArgs (args : List Surface.Expr) : Typing (List (Kind × Arg)) :=
  match args with
  | [] => pure []
  | arg :: rest => do
    let scope ← Typing.scope
    let first : Kind × Arg ←
      match scope.array? arg with
      | some id => pure ((scope.decl id).kind, .array id)
      | none => do
        let value ← typeExpr arg
        pure (.scalar value.type, .scalar value)
    let others ← typeArgs rest
    pure (first :: others)

/-- A call of an operation that compiled code has of its own. -/
def typeBuiltin (name : String) (args : List Surface.Expr) (span : Span) : Typing Expr :=
  match name with
  | "len" =>
    match args with
    | [arg] => subject.typeLen arg span
    | _ => subject.arityFault name args.length "one array" span
  | "abs" =>
    match args with
    | [arg] => do subject.typeAbs (← typeExpr arg) span
    | _ => subject.arityFault name args.length "one argument" span
  | "min" | "max" =>
    match args with
    | [a, b] => do
      let left ← typeExpr a
      let right ← typeExpr b
      subject.typeExtremum name left right span
    | _ => subject.arityFault name args.length "two scalars" span
  | "int" | "float" =>
    match args with
    | [arg] => do
      let operand ← typeExpr arg
      pure (convert name operand)
    | _ => subject.arityFault name args.length "one argument" span
  | "range" =>
    subject.unsupported "range() outside a for loop" "ranges are only compiled as loop bounds" span
  | _ => subject.unsupported ("call to " ++ name ++ "()") "not a compilable function" span

end

def typeCondition (expr : Surface.Expr) : Typing Expr := do
  let cond ← subject.typeExpr expr
  pure cond.truth

end Subject
end TwoTier.Eligibility
