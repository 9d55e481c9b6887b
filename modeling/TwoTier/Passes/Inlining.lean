import TwoTier.Passes.Report
import TwoTier.Settings.Basic
import TwoTier.Typed.CallGraph

/-! Expansion of calls into labelled copies of the callee's body, whose returns assign a result and
leave the copy. -/

namespace TwoTier.Passes

open Typed

/-- The size limits of one run; a hot root doubles them. -/
structure Budget where
  settings : Settings
  hot : Bool

namespace Budget

def limitMax : Nat := Nat.pow 2 64 - 1

def scale (budget : Budget) (limit : Nat) : Nat :=
  if budget.hot then min (limit * 2) limitMax else limit

/-- The size beyond which a body is not given the costly passes. -/
def nodeBudget (budget : Budget) : Nat := budget.scale budget.settings.compileNodeBudget

/-- The size beyond which a callee is not expanded even on request. -/
def inlineCap (budget : Budget) : Nat := budget.scale budget.settings.inlineDirectiveCap

end Budget

/-- A routine that a pass works on, with the notes so far. -/
structure Work where
  routine : Routine
  notes : Notes := {}

namespace Work

def note (notes : Notes) : StateM Work Unit :=
  modify fun work => { work with notes := work.notes ++ notes }

def addTemp (name : String) (kind : Kind) : StateM Work LocalId :=
  modifyGet fun work =>
    let (id, routine) := work.routine.addTemp name kind
    (id, { work with routine })

end Work

/-- Where calls are expanded: the body, the place of the caller, and the limits. -/
structure Site where
  body : Body
  caller : RoutineIndex
  budget : Budget

def Site.obstacle? (site : Site) (requested : Bool) (callee : RoutineIndex) (readsArrays : Bool) :
    Option String :=
  let target := site.body.routine callee
  if callee = site.caller then some "direct recursion is never inlined"
  else if site.body.isRecursive callee then some "recursive callee"
  else if (requested || target.directives.inline) && target.nodeCount > site.budget.inlineCap then
    some "callee exceeds the inline cap"
  else if !(requested || target.directives.inline) &&
      target.nodeCount > site.budget.settings.inlineNodeThreshold then
    some "callee exceeds the inline threshold"
  else if readsArrays && site.body.callPurity callee = .mutatesContainer then
    some "callee mutates arrays read by the same statement"
  else none

mutual

/-- Turns each return into an assignment of the result and an exit. -/
def returnsToExits (result : Option LocalId) (label : Label) (stmt : Stmt) : List Stmt :=
  match stmt with
  | .giveBack value =>
    match value, result with
    | some (.scalar value), some id => [.assign id value, .exit label]
    | _, _ => [.exit label]
  | .branch cond yes no =>
    [.branch cond (returnsToExitsAll result label yes) (returnsToExitsAll result label no)]
  | .whileLoop cond body span => [.whileLoop cond (returnsToExitsAll result label body) span]
  | .forLoop head body => [.forLoop head (returnsToExitsAll result label body)]
  | .block inner body => [.block inner (returnsToExitsAll result label body)]
  | .vector head body => [.vector head (returnsToExitsAll result label body)]
  | _ => [stmt]

def returnsToExitsAll (result : Option LocalId) (label : Label) (body : List Stmt) : List Stmt :=
  match body with
  | [] => []
  | stmt :: rest => returnsToExits result label stmt ++ returnsToExitsAll result label rest

end

/-- New names for the locals of a callee, with the assignments of its scalar arguments. -/
structure NewNames where
  pairs : List (LocalId × LocalId) := []
  opening : List Stmt := []

def NewNames.apply (names : NewNames) (id : LocalId) : LocalId :=
  (names.pairs.lookup id).getD id

/-- Gives a parameter the array passed for it, or a temporary that holds the value passed. -/
def bindParam (callee : Routine) (names : NewNames) (param : LocalId) (arg : Arg) :
    StateM Work NewNames :=
  match arg with
  | .array id => pure { names with pairs := (param, id) :: names.pairs }
  | .scalar value => do
    let decl := callee.decl param
    let temp ← Work.addTemp (callee.name ++ "." ++ decl.name) decl.kind
    pure ⟨(param, temp) :: names.pairs, names.opening ++ [.assign temp value]⟩

def bindLocal (callee : Routine) (names : NewNames) (id : LocalId) : StateM Work NewNames :=
  if (names.pairs.lookup id).isSome then pure names
  else do
    let decl := callee.decl id
    let temp ← Work.addTemp (callee.name ++ "." ++ decl.name) decl.kind
    pure { names with pairs := (id, temp) :: names.pairs }

def bindLocals (callee : Routine) (args : List Arg) : StateM Work NewNames := do
  let names ← (callee.params.zip args).foldlM
    (fun names (param, arg) => bindParam callee names param arg) {}
  (List.range callee.locals.length).foldlM (bindLocal callee) names

/-- Sets aside the labels of a copy of the callee and one for the copy itself. -/
def takeLabels (callee : Routine) : StateM Work (Label × Label) :=
  modifyGet fun work =>
    let base := work.routine.nextLabel
    let label := base + callee.nextLabel
    ((base, label), { work with routine := { work.routine with nextLabel := label + 1 } })

/-- The caller now does what the callee does. -/
def absorbEffects (callee : Routine) (caller : Routine) : Routine :=
  { caller with
    purity := caller.purity.join callee.purity
    globalsRead := callee.globalsRead.foldl
      (fun names name => if names.contains name then names else names ++ [name])
      caller.globalsRead }

/-- The statements that stand for a call, and the expression that holds its result. -/
def expand (callee : Routine) (args : List Arg) : StateM Work (List Stmt × Expr) := do
  let names ← bindLocals callee args
  let result : Option (LocalId × NumType) ←
    match callee.result with
    | .scalar type => do
      let id ← Work.addTemp (callee.name ++ ".result") (.scalar type)
      pure (some (id, type))
    | .array _ | .nothing => pure none
  let (base, label) ← takeLabels callee
  let body := Stmt.renamedAll names.apply (base + ·) callee.body
  let body := returnsToExitsAll (result.map (·.1)) label body
  modify fun work => { work with routine := absorbEffects callee work.routine }
  Work.note (.applying ("inlined " ++ callee.name))
  let value :=
    match result with
    | some (id, type) => Expr.var id type
    | none => Expr.int 0
  pure (names.opening ++ [.block label body], value)

namespace Site

variable (site : Site)

def expandCall (readsArrays : Bool) (callee : RoutineIndex) (result : NumType) (args : List Arg) :
    StateM Work (List Stmt × Expr) := do
  let requested := (← get).routine.directives.inline
  match site.obstacle? requested callee readsArrays with
  | some reason =>
    Work.note (.skipping ("call to " ++ (site.body.routine callee).name ++ ": " ++ reason))
    pure ([], .call callee result args)
  | none => expand (site.body.routine callee) args

mutual

/-- Expands the calls that are evaluated on every path, innermost first. -/
def extract (readsArrays : Bool) (expr : Expr) : StateM Work (List Stmt × Expr) :=
  match expr with
  | .const value => pure ([], .const value)
  | .var id type => pure ([], .var id type)
  | .len array => pure ([], .len array)
  | .unary op operand => do
    let (before, operand) ← extract readsArrays operand
    pure (before, .unary op operand)
  | .cast op operand => do
    let (before, operand) ← extract readsArrays operand
    pure (before, .cast op operand)
  | .index array element position => do
    let (before, position) ← extract readsArrays position
    pure (before, .index array element position)
  | .abs operand => do
    let (before, operand) ← extract readsArrays operand
    pure (before, .abs operand)
  | .binary op left right => do
    let (before, left) ← extract readsArrays left
    let (between, right) ← extract readsArrays right
    pure (before ++ between, .binary op left right)
  | .compare op left right => do
    let (before, left) ← extract readsArrays left
    let (between, right) ← extract readsArrays right
    pure (before ++ between, .compare op left right)
  | .extremum op left right => do
    let (before, left) ← extract readsArrays left
    let (between, right) ← extract readsArrays right
    pure (before ++ between, .extremum op left right)
  | .logic op left right => do
    let (before, left) ← extract readsArrays left
    pure (before, .logic op left right)
  | .select cond yes no => do
    let (before, cond) ← extract readsArrays cond
    pure (before, .select cond yes no)
  | .call callee result args => do
    let (before, args) ← extractArgs readsArrays args
    let (copy, value) ← site.expandCall readsArrays callee result args
    pure (before ++ copy, value)

def extractArgs (readsArrays : Bool) (args : List (ArgOf Expr)) :
    StateM Work (List Stmt × List Arg) :=
  match args with
  | [] => pure ([], [])
  | .scalar value :: rest => do
    let (before, value) ← extract readsArrays value
    let (between, rest) ← extractArgs readsArrays rest
    pure (before ++ between, .scalar value :: rest)
  | .array id :: rest => do
    let (before, rest) ← extractArgs readsArrays rest
    pure (before, .array id :: rest)

end

def isElementRead : Expr → Bool
  | .index _ _ _ => true
  | _ => false

def readsElements (stmt : Stmt) : Bool := stmt.exprs.any fun expr => expr.nodes.any isElementRead

mutual

/-- Expands the calls of a statement, except in the test of a while loop. -/
def inlined (stmt : Stmt) : StateM Work (List Stmt) :=
  match stmt with
  | .assign id value => do
    let (before, value) ← site.extract (readsElements stmt) value
    pure (before ++ [.assign id value])
  | .store array index value => do
    let (before, index) ← site.extract (readsElements stmt) index
    let (between, value) ← site.extract (readsElements stmt) value
    pure (before ++ between ++ [.store array index value])
  | .eval value => do
    let (before, value) ← site.extract (readsElements stmt) value
    match value with
    | .const _ => pure before
    | _ => pure (before ++ [.eval value])
  | .branch cond yes no => do
    let yes ← inlinedBlock yes
    let no ← inlinedBlock no
    let (before, cond) ← site.extract (readsElements stmt) cond
    pure (before ++ [.branch cond yes no])
  | .whileLoop cond body span => do
    let body ← inlinedBlock body
    pure [.whileLoop cond body span]
  | .forLoop head body => do
    let body ← inlinedBlock body
    let (first, start) ← site.extract (readsElements stmt) head.start
    let (second, stop) ← site.extract (readsElements stmt) head.stop
    let (third, step) ← site.extract (readsElements stmt) head.step
    pure (first ++ second ++ third ++ [.forLoop { head with start, stop, step } body])
  | .giveBack (some (.scalar value)) => do
    let (before, value) ← site.extract (readsElements stmt) value
    pure (before ++ [.giveBack (some (.scalar value))])
  | .block label body => do
    let body ← inlinedBlock body
    pure [.block label body]
  | .vector head body => do
    let body ← inlinedBlock body
    let (first, start) ← site.extract (readsElements stmt) head.start
    let (second, stop) ← site.extract (readsElements stmt) head.stop
    pure (first ++ second ++ [.vector { head with start, stop } body])
  | .parallel head chunk => do
    let (first, start) ← site.extract (readsElements stmt) head.start
    let (second, stop) ← site.extract (readsElements stmt) head.stop
    pure (first ++ second ++ [.parallel { head with start, stop } chunk])
  | _ => pure [stmt]

def inlinedBlock (body : List Stmt) : StateM Work (List Stmt) :=
  match body with
  | [] => pure []
  | stmt :: rest => do
    let first ← inlined stmt
    let others ← inlinedBlock rest
    pure (first ++ others)

end

def round : Notes × Routine :=
  let caller := site.body.routine site.caller
  let (body, work) := (site.inlinedBlock caller.body).run { routine := caller }
  (work.notes, { work.routine with body })

end Site

/-- Expands calls in one routine until nothing is left to expand or the rounds are used up. -/
def inlineRounds (caller : RoutineIndex) (budget : Budget) : Nat → Body → Notes × Body
  | 0, body => ({}, body)
  | rounds + 1, body =>
    let (notes, routine) := Site.round ⟨body, caller, budget⟩
    let body := body.setRoutine caller routine
    if notes.applied.isEmpty then (notes, body)
    else
      let (later, body) := inlineRounds caller budget rounds body
      (notes ++ later, body)

end TwoTier.Passes
