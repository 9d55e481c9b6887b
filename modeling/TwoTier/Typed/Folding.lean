import TwoTier.Typed.Body

/-! Constant folding of operations that cannot fail. -/

namespace TwoTier.Typed

open Binary64 (compare? isExact maximum minimum toWord)

/-- Arithmetic on literals of one type, where it has a result. -/
def foldArith? (op : ArithOp) : Scalar → Scalar → Option Scalar
  | .int x, .int y =>
    (match op with
      | .add => Word.add? x y
      | .sub => Word.sub? x y
      | .mul => Word.mul? x y
      | .floorDiv => (Word.floorDiv x y).toOption
      | .mod => (Word.floorMod x y).toOption
      | .pow => (Word.pow x y).toOption
      | .bitAnd => some (x &&& y)
      | .bitOr => some (x ||| y)
      | .bitXor => some (x ^^^ y)
      | .shl => (Word.shiftLeft x y).toOption
      | .shr => (Word.shiftRight x y).toOption
      | .div => none).map .int
  | .float x, .float y =>
    (match op with
      | .add => some (x + y)
      | .sub => some (x - y)
      | .mul => some (x * y)
      | .div => (Binary64.div x y).toOption
      | .floorDiv => (Binary64.floorDiv x y).toOption
      | .mod => (Binary64.floorMod x y).toOption
      | .pow => (Binary64.pow x y).toOption
      | _ => none).map .float
  | _, _ => none

def foldUnary? : UnaryOp → Scalar → Option Scalar
  | .neg, .int value => (Word.neg? value).map .int
  | .neg, .float value => some (.float (-value))
  | .invert, .int value => some (.int (~~~value))
  | .not, .bool value => some (.bool !value)
  | _, _ => none

def foldCompare? (op : Comparison) : Scalar → Scalar → Option Scalar
  | .int x, .int y => some (.bool (op.holds (some (compare x y))))
  | .float x, .float y => some (.bool (op.holds (compare? x y)))
  | .bool x, .bool y => some (.bool (op.holds (some (compare x y))))
  | _, _ => none

def foldCast? : CastOp → Scalar → Option Scalar
  | .intToFloat, .int value => some (.float value.toFloat)
  | .intToFloatExact, .int value => if isExact value then some (.float value.toFloat) else none
  | .floatToInt, .float value => (toWord value).toOption.map .int
  | .boolToInt, .bool value => some (.int (if value then 1 else 0))
  | .boolToFloat, .bool value => some (.float (if value then 1.0 else 0.0))
  | .toBool, value => some (.bool value.truth)
  | _, _ => none

def foldAbs? : Scalar → Option Scalar
  | .int value => (Word.abs? value).map .int
  | .float value => some (.float value.abs)
  | .bool _ => none

def foldExtremum? : Extremum → Scalar → Scalar → Option Scalar
  | .min, .int a, .int b => some (.int (if b < a then b else a))
  | .max, .int a, .int b => some (.int (if b > a then b else a))
  | .min, .float a, .float b => some (.float (minimum a b))
  | .max, .float a, .float b => some (.float (maximum a b))
  | _, _, _ => none

namespace Expr

/-- What an outermost node comes to when the operands that decide it are literals. -/
def foldNode? : Expr → Option Expr
  | unary op (const x) => (foldUnary? op x).map const
  | binary op (const x) (const y) => (foldArith? op x y).map const
  | compare op (const x) (const y) => (foldCompare? op x y).map const
  | cast op (const x) => (foldCast? op x).map const
  | abs (const x) => (foldAbs? x).map const
  | extremum op (const x) (const y) => (foldExtremum? op x y).map const
  | logic op (const x) right =>
    some (if op.keepsLeft x.truth then const x else right)
  | select (const (.bool cond)) yes no => some (if cond then yes else no)
  | _ => none

/-- Folds the outermost node, and counts it if it was folded. -/
def foldNode (count : Nat) (expr : Expr) : Nat × Expr :=
  match expr.foldNode? with
  | some folded => (count + 1, folded)
  | none => (count, expr)

mutual

/-- Folds bottom up, with the number of nodes folded. -/
def folded (expr : Expr) : Nat × Expr :=
  match expr with
  | .const value => (0, .const value)
  | .var id type => (0, .var id type)
  | .len array => (0, .len array)
  | .unary op operand =>
    let (n, operand) := folded operand
    foldNode n (.unary op operand)
  | .cast op operand =>
    let (n, operand) := folded operand
    foldNode n (.cast op operand)
  | .index array element position =>
    let (n, position) := folded position
    (n, .index array element position)
  | .abs operand =>
    let (n, operand) := folded operand
    foldNode n (.abs operand)
  | .binary op left right =>
    let (n, left) := folded left
    let (m, right) := folded right
    foldNode (n + m) (.binary op left right)
  | .compare op left right =>
    let (n, left) := folded left
    let (m, right) := folded right
    foldNode (n + m) (.compare op left right)
  | .logic op left right =>
    let (n, left) := folded left
    let (m, right) := folded right
    foldNode (n + m) (.logic op left right)
  | .extremum op left right =>
    let (n, left) := folded left
    let (m, right) := folded right
    foldNode (n + m) (.extremum op left right)
  | .select cond yes no =>
    let (n, cond) := folded cond
    let (m, yes) := folded yes
    let (k, no) := folded no
    foldNode (n + m + k) (.select cond yes no)
  | .call callee result args =>
    let (n, args) := foldedArgs args
    (n, .call callee result args)

def foldedArgs (args : List (ArgOf Expr)) : Nat × List (ArgOf Expr) :=
  match args with
  | [] => (0, [])
  | .scalar value :: rest =>
    let (n, value) := folded value
    let (m, rest) := foldedArgs rest
    (n + m, .scalar value :: rest)
  | .array id :: rest =>
    let (m, rest) := foldedArgs rest
    (m, .array id :: rest)

end

end Expr

def ForHead.folded (head : ForHead) : Nat × ForHead :=
  let (n, start) := head.start.folded
  let (m, stop) := head.stop.folded
  let (k, step) := head.step.folded
  (n + m + k, { head with start, stop, step })

def VectorHead.folded (head : VectorHead) : Nat × VectorHead :=
  let (n, start) := head.start.folded
  let (m, stop) := head.stop.folded
  (n + m, { head with start, stop })

def ParallelHead.folded (head : ParallelHead) : Nat × ParallelHead :=
  let (n, start) := head.start.folded
  let (m, stop) := head.stop.folded
  (n + m, { head with start, stop })

namespace Stmt

mutual

/-- Folds a statement. A branch on a literal gives way to the branch taken, and a loop that is
never entered goes. Kernels of parallel loops are left as they are. -/
def folded (stmt : Stmt) : Nat × List Stmt :=
  match stmt with
  | .assign id value =>
    let (n, value) := value.folded
    (n, [.assign id value])
  | .store array index value =>
    let (n, index) := index.folded
    let (m, value) := value.folded
    (n + m, [.store array index value])
  | .eval value =>
    let (n, value) := value.folded
    (n, [.eval value])
  | .branch cond yes no =>
    let (n, cond) := cond.folded
    let (m, yes) := foldedBlock yes
    let (k, no) := foldedBlock no
    match cond with
    | .const (.bool true) => (n + m + k + 1, yes)
    | .const (.bool false) => (n + m + k + 1, no)
    | _ => (n + m + k, [.branch cond yes no])
  | .whileLoop cond body span =>
    let (n, cond) := cond.folded
    let (m, body) := foldedBlock body
    match cond with
    | .const (.bool false) => (n + m + 1, [])
    | _ => (n + m, [.whileLoop cond body span])
  | .forLoop head body =>
    let (n, head) := head.folded
    let (m, body) := foldedBlock body
    (n + m, [.forLoop head body])
  | .giveBack (some (.scalar value)) =>
    let (n, value) := value.folded
    (n, [.giveBack (some (.scalar value))])
  | .block label body =>
    let (n, body) := foldedBlock body
    (n, [.block label body])
  | .vector head body =>
    let (n, head) := head.folded
    let (m, body) := foldedBlock body
    (n + m, [.vector head body])
  | .parallel head chunk =>
    let (n, head) := head.folded
    (n, [.parallel head chunk])
  | _ => (0, [stmt])

def foldedBlock (body : List Stmt) : Nat × List Stmt :=
  match body with
  | [] => (0, [])
  | stmt :: rest =>
    let (n, first) := folded stmt
    let (m, others) := foldedBlock rest
    (n + m, first ++ others)

end

end Stmt

def Routine.folded (routine : Routine) : Nat × Routine :=
  let (count, body) := Stmt.foldedBlock routine.body
  (count, { routine with body })

end TwoTier.Typed
