import TwoTier.Text.Span
import TwoTier.Typed.Expr

namespace TwoTier.Typed

inductive LoopBound where
  /-- the sign of the step picks the test -/
  | range
  | lt | le | gt | ge
deriving DecidableEq, Repr

/-- The head of a counted loop. The three expressions are evaluated once. -/
structure ForHead where
  var : LocalId
  start : Expr
  stop : Expr
  step : Expr
  bound : LoopBound
  /-- the counter ends at the first value that fails the test instead of the last one visited -/
  exitValue : Bool
  span : Span

inductive VectorForm where
  /-- instructions on pairs of floats -/
  | packed
  /-- independent scalar lanes with accumulators of their own -/
  | lanes (count : Nat)
deriving DecidableEq, Repr

/-- The head of a loop of unit stride that runs in groups of iterations with a scalar rest. -/
structure VectorHead where
  var : LocalId
  start : Expr
  stop : Expr
  reductions : List Reduction
  form : VectorForm
  /-- arrays that the packed form reads or writes at the counter -/
  arrays : List LocalId
  span : Span

/-- The head of a loop of unit stride that runs as a kernel over contiguous chunks. -/
structure ParallelHead where
  var : LocalId
  start : Expr
  stop : Expr
  chunkLo : LocalId
  chunkHi : LocalId
  reduction : Option Reduction
  /-- scalars that the kernel reads from outside -/
  captures : List LocalId
  arrays : List LocalId
  span : Span

inductive Result where
  | scalar (value : Expr)
  | array (id : LocalId)

inductive Stmt where
  | assign (id : LocalId) (value : Expr)
  | store (array : LocalId) (index value : Expr)
  /-- evaluated for its effects -/
  | eval (value : Expr)
  | branch (cond : Expr) (yes no : List Stmt)
  | whileLoop (cond : Expr) (body : List Stmt) (span : Span)
  | forLoop (head : ForHead) (body : List Stmt)
  | leave
  | skip
  | giveBack (value : Option Result)
  /-- a body that an exit of the same label leaves -/
  | block (label : Label) (body : List Stmt)
  | exit (label : Label)
  | vector (head : VectorHead) (body : List Stmt)
  /-- the chunk is a loop from the lower to the upper end of a chunk -/
  | parallel (head : ParallelHead) (chunk : Stmt)

def Result.mapLocals (rename : LocalId → LocalId) : Result → Result
  | .scalar value => .scalar (value.mapLocals rename)
  | .array id => .array (rename id)

def renameAcc (rename : LocalId → LocalId) (reduction : Reduction) : Reduction :=
  { reduction with acc := rename reduction.acc }

def ForHead.mapLocals (rename : LocalId → LocalId) (head : ForHead) : ForHead :=
  { head with
    var := rename head.var
    start := head.start.mapLocals rename
    stop := head.stop.mapLocals rename
    step := head.step.mapLocals rename }

def VectorHead.mapLocals (rename : LocalId → LocalId) (head : VectorHead) : VectorHead :=
  { head with
    var := rename head.var
    start := head.start.mapLocals rename
    stop := head.stop.mapLocals rename
    reductions := head.reductions.map (renameAcc rename)
    arrays := head.arrays.map rename }

def ParallelHead.mapLocals (rename : LocalId → LocalId) (head : ParallelHead) : ParallelHead :=
  { head with
    var := rename head.var
    start := head.start.mapLocals rename
    stop := head.stop.mapLocals rename
    chunkLo := rename head.chunkLo
    chunkHi := rename head.chunkHi
    reduction := head.reduction.map (renameAcc rename)
    captures := head.captures.map rename
    arrays := head.arrays.map rename }

namespace Stmt

instance : Inhabited Stmt := ⟨.skip⟩

def exprs : Stmt → List Expr
  | assign _ value | eval value => [value]
  | store _ index value => [index, value]
  | branch cond _ _ | whileLoop cond _ _ => [cond]
  | forLoop head _ => [head.start, head.stop, head.step]
  | giveBack (some (.scalar value)) => [value]
  | vector head _ => [head.start, head.stop]
  | parallel head _ => [head.start, head.stop]
  | giveBack _ | leave | skip | block _ _ | exit _ => []

mutual

/-- A statement and the statements nested in it, in order. -/
def nodes (stmt : Stmt) : List Stmt :=
  match stmt with
  | .branch _ yes no => stmt :: (blockNodes yes ++ blockNodes no)
  | .whileLoop _ body _ => stmt :: blockNodes body
  | .forLoop _ body => stmt :: blockNodes body
  | .block _ body => stmt :: blockNodes body
  | .vector _ body => stmt :: blockNodes body
  | .parallel _ chunk => stmt :: nodes chunk
  | _ => [stmt]

def blockNodes (body : List Stmt) : List Stmt :=
  match body with
  | [] => []
  | stmt :: rest => nodes stmt ++ blockNodes rest

end

/-- All expression nodes that a block evaluates. -/
def blockExprNodes (body : List Stmt) : List Expr :=
  (blockNodes body).flatMap fun stmt => stmt.exprs.flatMap (·.nodes)

/-- The locals that a statement itself assigns, counters included. -/
def ownWrites : Stmt → List LocalId
  | assign id _ => [id]
  | forLoop head _ => [head.var]
  | vector head _ => [head.var]
  | parallel head _ => [head.var, head.chunkLo, head.chunkHi]
  | _ => []

def writtenLocals (body : List Stmt) : List LocalId := (blockNodes body).flatMap ownWrites

def storedArrays (body : List Stmt) : List LocalId :=
  (blockNodes body).filterMap fun
    | store array _ _ => some array
    | _ => none

def blockNodeCount (body : List Stmt) : Nat :=
  (blockNodes body).foldl
    (fun count stmt => stmt.exprs.foldl (fun count expr => count + expr.nodeCount) (count + 1)) 0

mutual

def renamed (locals : LocalId → LocalId) (labels : Label → Label) (stmt : Stmt) : Stmt :=
  match stmt with
  | .assign id value => .assign (locals id) (value.mapLocals locals)
  | .store array index value =>
    .store (locals array) (index.mapLocals locals) (value.mapLocals locals)
  | .eval value => .eval (value.mapLocals locals)
  | .branch cond yes no =>
    .branch (cond.mapLocals locals) (renamedAll locals labels yes) (renamedAll locals labels no)
  | .whileLoop cond body span =>
    .whileLoop (cond.mapLocals locals) (renamedAll locals labels body) span
  | .forLoop head body => .forLoop (head.mapLocals locals) (renamedAll locals labels body)
  | .leave => .leave
  | .skip => .skip
  | .giveBack value => .giveBack (value.map (Result.mapLocals locals))
  | .block label body => .block (labels label) (renamedAll locals labels body)
  | .exit label => .exit (labels label)
  | .vector head body => .vector (head.mapLocals locals) (renamedAll locals labels body)
  | .parallel head chunk =>
    .parallel (head.mapLocals locals) (renamed locals labels chunk)

def renamedAll (locals : LocalId → LocalId) (labels : Label → Label) (body : List Stmt) :
    List Stmt :=
  match body with
  | [] => []
  | stmt :: rest => renamed locals labels stmt :: renamedAll locals labels rest

end

end Stmt
end TwoTier.Typed
