import TwoTier.Interp.Eval

namespace TwoTier.Interp

open Surface (BinOp Expr Handler HandlerOf ImportName Stmt)

inductive Flow where
  | next
  | leave
  | skip
  | giveBack (value : Value)

/-- The state of a running body: its local values and the world. -/
structure Frame (τ : Type) where
  locals : Table Value
  world : World τ

variable {τ α : Type}

/-- Runs on the world alone, among the local values of the frame. -/
@[always_inline, inline]
def amongLocals (run : Table Value → Run (World τ) α) : Run (Frame τ) α := fun ⟨locals, world⟩ =>
  match run locals world with
  | .ok value world => .ok value ⟨locals, world⟩
  | .raised exception world => .raised exception ⟨locals, world⟩
  | .exhausted => .exhausted

@[always_inline, inline]
def onWorld (run : Run (World τ) α) : Run (Frame τ) α := amongLocals fun _ => run

@[always_inline, inline]
def evalHere (ctx : Context τ) (expr : Expr) : Run (Frame τ) Value :=
  amongLocals fun locals => eval ctx locals expr

def store (scope : Scope) (name : String) (value : Value) : Run (Frame τ) Unit :=
  let isGlobal :=
    match scope with
    | .module => true
    | .function _ globalNames => globalNames.contains name
    | .closure => false
  Run.modify fun frame =>
    if isGlobal then { frame with world := frame.world.setGlobal name value }
    else { frame with locals := frame.locals.set name value }

def unpackFault (expected given : Nat) : Exception :=
  .value ("expected " ++ toString expected ++ " values to unpack, got " ++ toString given)

mutual

def assign (ctx : Context τ) (target : Expr) (value : Value) : Run (Frame τ) Unit :=
  match target with
  | .name _ name => store ctx.scope name value
  | .tuple _ targets => do
    let items ← onWorld (World.onHeap (iterate value))
    if items.size = targets.length then assignAll ctx targets items.toList
    else Run.raise (unpackFault targets.length items.size)
  | .list _ targets => do
    let items ← onWorld (World.onHeap (iterate value))
    if items.size = targets.length then assignAll ctx targets items.toList
    else Run.raise (unpackFault targets.length items.size)
  | .subscript _ container index => do
    let object ← evalHere ctx container
    let place ← evalHere ctx index
    onWorld (World.onHeap (setItem object place value))
  | .member _ _ attr => Run.raise (.missing ("cannot assign attribute '" ++ attr.name ++ "'"))
  | other => Run.raise (.type ("cannot assign to " ++ other.describe))

def assignAll (ctx : Context τ) (targets : List Expr) (values : List Value) :
    Run (Frame τ) Unit :=
  match targets, values with
  | target :: targets, value :: values => do
    assign ctx target value
    assignAll ctx targets values
  | _, _ => pure ()

end

/-- Updates a target in place. A list is extended by an addition rather than replaced. -/
def update (ctx : Context τ) (target : Expr) (op : BinOp) (value : Expr) : Run (Frame τ) Unit := do
  match target with
  | .name _ name =>
    let current ← amongLocals fun locals => load ctx locals name
    let other ← evalHere ctx value
    match op, current with
    | .add, .list address =>
      onWorld (World.onHeap do extendList address (← iterate other))
    | _, _ => store ctx.scope name (← onWorld (World.onHeap (binary op current other)))
  | .subscript _ container index =>
    let object ← evalHere ctx container
    let place ← evalHere ctx index
    let current ← onWorld (World.onHeap (getItem object place))
    let other ← evalHere ctx value
    onWorld (World.onHeap do setItem object place (← binary op current other))
  | other =>
    Run.raise (.type ("illegal target for augmented assignment: " ++ other.describe))

def importModules (scope : Scope) : List ImportName → Run (Frame τ) Unit
  | [] => pure ()
  | imported :: rest => do
    if imported.path = "math" then store scope imported.boundName (.module "math")
    else Run.raise (.importing ("No module named '" ++ imported.path ++ "'"))
    importModules scope rest

def importMembers (scope : Scope) : List ImportName → Run (Frame τ) Unit
  | [] => pure ()
  | imported :: rest => do
    match mathAttribute? imported.path with
    | some value => store scope imported.boundName value
    | none =>
      Run.raise (.importing ("cannot import name '" ++ imported.path ++ "' from 'math'"))
    importMembers scope rest

/-- Raises what a raise statement names; only the first argument of a class is evaluated. -/
def raiseNamed (ctx : Context τ) (exception : Option Expr) : Run (Frame τ) Flow := do
  match exception with
  | none => Run.raise ⟨"RuntimeError", "No active exception to reraise"⟩
  | some (.name _ kind) => Run.raise ⟨kind, ""⟩
  | some (.call _ (.name _ kind) args _) =>
    match args with
    | [] => Run.raise ⟨kind, ""⟩
    | arg :: _ =>
      let value ← evalHere ctx arg
      Run.raise ⟨kind, (← Run.get).world.heap.text value⟩
  | some _ => Run.raise (.type "exceptions must derive from BaseException")

mutual

/-- Whether the kind of a handler, a class name or a tuple of them, catches an exception. -/
def catches (exception : Exception) (kind : Expr) : Bool :=
  match kind with
  | .name _ name => exception.isInstance name
  | .tuple _ kinds => catchesAny exception kinds
  | _ => false

def catchesAny (exception : Exception) (kinds : List Expr) : Bool :=
  match kinds with
  | [] => false
  | kind :: rest => catches exception kind || catchesAny exception rest

end

/-- What an iteration means for its loop: nothing to go on, or how the loop ends. -/
def afterBody : Flow → Option Flow
  | .leave => some .next
  | .giveBack value => some (.giveBack value)
  | .next | .skip => none

/-- Repeats a step until it says how the loop ends. -/
def repeatStep {σ : Type} (step : Run σ (Option Flow)) : Nat → Run σ Flow
  | 0, _ => .exhausted
  | fuel + 1, state =>
    match step state with
    | .ok none state => repeatStep step fuel state
    | .ok (some flow) state => .ok flow state
    | .raised exception state => .raised exception state
    | .exhausted => .exhausted

/-- Takes a step for each element of a range, from a position on. -/
def overRange {σ : Type} (step : Value → Run σ (Option Flow)) (range : RangeValue) :
    Nat → Nat → Run σ Flow
  | 0, _, state => .ok .next state
  | count + 1, k, state =>
    match step (.int (range.nth k)) state with
    | .ok none state => overRange step range count (k + 1) state
    | .ok (some flow) state => .ok flow state
    | .raised exception state => .raised exception state
    | .exhausted => .exhausted

/-- Takes a step for each item of a list by position, so that items appended on the way count. -/
def overList (step : Value → Run (Frame τ) (Option Flow)) (address : Address) :
    Nat → Nat → Run (Frame τ) Flow
  | 0, _, _ => .exhausted
  | fuel + 1, k, frame =>
    match (frame.world.heap.items address)[k]? with
    | none => .ok .next frame
    | some item =>
      match step item frame with
      | .ok none frame => overList step address fuel (k + 1) frame
      | .ok (some flow) frame => .ok flow frame
      | .raised exception frame => .raised exception frame
      | .exhausted => .exhausted

def overItems {σ : Type} (step : Value → Run σ (Option Flow)) : List Value → Run σ Flow
  | [], state => .ok .next state
  | item :: rest, state =>
    match step item state with
    | .ok none state => overItems step rest state
    | .ok (some flow) state => .ok flow state
    | .raised exception state => .raised exception state
    | .exhausted => .exhausted

def overValue (ctx : Context τ) (step : Value → Run (Frame τ) (Option Flow)) (iterable : Value) :
    Run (Frame τ) Flow :=
  match iterable with
  | .range range => overRange step range range.count 0
  | .list address => overList step address ctx.fuel 0
  | other => do overItems step (← onWorld (World.onHeap (iterate other))).toList

/-- Ends a guarded block: the cleanup runs either way, and its own jump or exception wins. -/
def afterCleanup (cleanup : Run (Frame τ) Flow) (outcome : Result (Frame τ) Flow) :
    Result (Frame τ) Flow :=
  match outcome with
  | .exhausted => .exhausted
  | .ok flow frame =>
    match cleanup frame with
    | .ok .next frame => .ok flow frame
    | other => other
  | .raised exception frame =>
    match cleanup frame with
    | .ok .next frame => .raised exception frame
    | other => other

mutual

def exec (ctx : Context τ) (statement : Stmt) : Run (Frame τ) Flow :=
  match statement with
  | .expr _ value => do
    discard (evalHere ctx value)
    return .next
  | .assign _ targets value => do
    let result ← evalHere ctx value
    assignAll ctx targets (List.replicate targets.length result)
    return .next
  | .update _ target op value => do
    update ctx target op value
    return .next
  | .giveBack _ none => return .giveBack .none
  | .giveBack _ (some value) => do return .giveBack (← evalHere ctx value)
  | .branch _ cond yes no => do
    let chosen ← evalHere ctx cond
    if ← onWorld (truth chosen) then execBlock ctx yes else execBlock ctx no
  | .whileLoop _ cond body =>
    repeatStep
      (do
        let chosen ← evalHere ctx cond
        if ← onWorld (truth chosen) then afterBody <$> execBlock ctx body
        else return some .next)
      ctx.fuel
  | .forLoop _ target iter body => do
    let iterable ← evalHere ctx iter
    overValue ctx
      (fun item => do
        assign ctx target item
        afterBody <$> execBlock ctx body)
      iterable
  | .leave _ => return .leave
  | .skip _ => return .skip
  | .pass _ | .globals _ _ | .define _ => return .next
  | .nonlocals _ _ => Run.raise ⟨"SyntaxError", "no binding for nonlocal found"⟩
  | .importNames _ names => do
    importModules ctx.scope names
    return .next
  | .importFrom _ module names => do
    if module = "math" then importMembers ctx.scope names
    else Run.raise (.importing ("No module named '" ++ module ++ "'"))
    return .next
  | .attempt _ body handlers cleanup => fun frame =>
    let outcome :=
      match execBlock ctx body frame with
      | .raised exception frame => execHandlers ctx exception handlers frame
      | other => other
    afterCleanup (execBlock ctx cleanup) outcome
  | .raise _ value => raiseNamed ctx value

def execBlock (ctx : Context τ) (body : List Stmt) : Run (Frame τ) Flow :=
  match body with
  | [] => return .next
  | statement :: rest => fun frame =>
    match exec ctx statement frame with
    | .ok .next frame => execBlock ctx rest frame
    | other => other

/-- The first handler that catches an exception, or the exception again. -/
def execHandlers (ctx : Context τ) (exception : Exception) (handlers : List (HandlerOf Stmt)) :
    Run (Frame τ) Flow :=
  match handlers with
  | [] => Run.raise exception
  | ⟨kind, name, body, _⟩ :: rest =>
    if kind.all (catches exception) then do
      match name with
      | some name => store ctx.scope name.name (.str exception.message)
      | none => pure ()
      execBlock ctx body
    else execHandlers ctx exception rest

end

end TwoTier.Interp
