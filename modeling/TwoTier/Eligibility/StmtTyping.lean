import TwoTier.Eligibility.ExprTyping

namespace TwoTier.Eligibility

open Surface (BinOp FunctionDef HandlerOf)

open Typed (Expr ForHead LocalId Purity Result Routine Stmt)

mutual

/-- Whether a statement can leave the loop whose body it stands in. -/
def leavesLoop (stmt : Surface.Stmt) : Bool :=
  match stmt with
  | .leave _ => true
  | .branch _ _ yes no => anyLeavesLoop yes || anyLeavesLoop no
  | .attempt _ body handlers cleanup =>
    anyLeavesLoop body || anyHandlerLeavesLoop handlers || anyLeavesLoop cleanup
  | _ => false

def anyLeavesLoop (body : List Surface.Stmt) : Bool :=
  match body with
  | [] => false
  | stmt :: rest => leavesLoop stmt || anyLeavesLoop rest

def anyHandlerLeavesLoop (handlers : List (HandlerOf Surface.Stmt)) : Bool :=
  match handlers with
  | [] => false
  | ⟨_, _, body, _⟩ :: rest => anyLeavesLoop body || anyHandlerLeavesLoop rest

end

namespace Subject

variable (subject : Subject)

/-- The local of a name, declared on first use with the kind it keeps. -/
def bindLocal (name : String) (kind : Kind) (span : Span) : Typing LocalId := do
  let scope ← Typing.scope
  match scope.lookup? name with
  | none => Typing.onScope (·.declare name kind .user)
  | some id =>
    let declared := (scope.decl id).kind
    if declared = kind then pure id
    else
      subject.inconsistent
        ("'" ++ name ++ "' is " ++ declared.name ++ " but is assigned " ++ kind.name) span

/-- Evaluates into a temporary. -/
def intoTemp (hint : String) (value : Expr) : Typing (LocalId × Stmt) := do
  let id ← Typing.onScope (·.temp hint (.scalar value.type))
  Typing.assign id
  pure (id, .assign id value)

def recordReturn (result : ReturnKind) (span : Span) : Typing Unit := fun draft =>
  match draft.result with
  | none => .ok () { draft with result := some result }
  | some found =>
    if found = result then .ok () draft
    else
      subject.inconsistent
        ("inconsistent return type: " ++ found.name ++ " and " ++ result.name) span draft

def typeReturn (value : Option Surface.Expr) (span : Span) : Typing (Option Result) :=
  match value with
  | none | some (.none _) => do
    subject.recordReturn .nothing span
    pure none
  | some expr => do
    let scope ← Typing.scope
    match scope.array? expr with
    | some id =>
      subject.recordReturn (.array (scope.decl id).kind.numType) span
      pure (some (.array id))
    | none =>
      let value ← subject.typeExpr expr
      subject.recordReturn (.scalar value.type) span
      pure (some (.scalar value))

def storeElement (array : LocalId) (index value : Expr) (span : Span) : Typing (List Stmt) := do
  let decl := (← Typing.scope).decl array
  if value.type = decl.kind.numType then
    Typing.raisePurity .mutatesContainer
    pure [.store array index value]
  else
    subject.inconsistent ("storing " ++ value.type.name ++ " into '" ++ decl.name ++ "' of " ++
      decl.kind.name) span

def storeTarget (target : Surface.Expr) (value : Expr) : Typing (List Stmt) :=
  match target with
  | .name span text => do
    let id ← subject.bindLocal text (.scalar value.type) span
    Typing.assign id
    pure [.assign id value]
  | .subscript span base index => do
    let array ← subject.requireArray base
    let position ← subject.typeExpr index
    let position ← subject.requireInt position index.span
    subject.storeElement array position value span
  | _ => subject.unsupported ("assignment to " ++ target.describe) "not compilable" target.span

/-- Stores into several targets from left to right. -/
def storeTargets (targets : List (Surface.Expr × Expr)) : Typing (List Stmt) := do
  let stores ← targets.mapM fun (target, value) => subject.storeTarget target value
  pure stores.flatten

/-- Assigns a tuple display element by element, after all elements have been evaluated. -/
def typeUnpacking (targets : List Surface.Expr) (value : Surface.Expr) (span : Span) :
    Typing (List Stmt) :=
  match value with
  | .tuple _ values =>
    if values.length = targets.length then do
      let temps ← values.mapM fun value => do
        let typed ← subject.typeExpr value
        let (id, stmt) ← intoTemp "unpack" typed
        pure (Expr.var id typed.type, stmt)
      let stores ← subject.storeTargets (targets.zip (temps.map (·.1)))
      pure (temps.map (·.2) ++ stores)
    else
      subject.unsupported "tuple unpacking"
        (toString targets.length ++ " targets for " ++ toString values.length ++ " values") span
  | _ =>
    subject.unsupported "tuple unpacking"
      "only unpacking of a tuple display of scalars is compiled" value.span

/-- Assigns one value to every target; it is evaluated once. -/
def typeScalarAssign (targets : List Surface.Expr) (value : Surface.Expr) : Typing (List Stmt) := do
  match (← Typing.scope).array? value with
  | some _ =>
    subject.unsupported "array rebinding"
      "arrays may only be indexed, measured, passed or returned" value.span
  | none =>
    let typed ← subject.typeExpr value
    match targets with
    | [target] => subject.storeTarget target typed
    | _ =>
      let (id, stmt) ← intoTemp "chain" typed
      let stores ← subject.storeTargets (targets.map fun target => (target, .var id typed.type))
      pure (stmt :: stores)

def typeAssign (targets : List Surface.Expr) (value : Surface.Expr) (span : Span) :
    Typing (List Stmt) :=
  match targets with
  | .tuple _ items :: rest | .list _ items :: rest =>
    if rest.isEmpty then subject.typeUnpacking items value span
    else subject.unsupported "chained tuple assignment" "not compilable" span
  | _ => subject.typeScalarAssign targets value

/-- Updates a local or an element, whose index is evaluated once. -/
def typeUpdate (target : Surface.Expr) (op : BinOp) (value : Surface.Expr) (span : Span) :
    Typing (List Stmt) :=
  match target with
  | .name _ _ => do
    let current ← subject.typeExpr target
    let operand ← subject.typeExpr value
    let updated ← subject.typeArith op current operand span
    subject.storeTarget target updated
  | .subscript _ base index => do
    let array ← subject.requireArray base
    let position ← subject.typeExpr index
    let position ← subject.requireInt position index.span
    let (id, stmt) ← intoTemp "idx" position
    let element := ((← Typing.scope).decl array).kind.numType
    let operand ← subject.typeExpr value
    let updated ← subject.typeArith op (.index array element (.var id .int)) operand span
    let stores ← subject.storeElement array (.var id .int) updated span
    pure (stmt :: stores)
  | _ =>
    subject.unsupported ("augmented assignment to " ++ target.describe) "not compilable"
      target.span

def typeBounds (args : List Surface.Expr) : Typing (List Expr) :=
  args.mapM fun arg => do
    let bound ← subject.typeExpr arg
    if bound.type = .int then pure bound
    else
      subject.unsupported ("range() over " ++ bound.type.name) "range() bounds must be integers"
        arg.span

/-- Start, stop and step of the range that a loop runs over. -/
def typeRange (iter : Surface.Expr) : Typing (Expr × Expr × Expr) :=
  match iter with
  | .call span func args keywords => do
    if func.name? ≠ some "range" || (← Typing.scope).isLocalName "range" || !keywords.isEmpty then
      subject.unsupported "iteration over a call result"
        "only range() and array arguments can be iterated" span
    else
      match ← subject.typeBounds args with
      | [stop] => pure (.int 0, stop, .int 1)
      | [start, stop] => pure (start, stop, .int 1)
      | [start, stop, step] => pure (start, stop, step)
      | bounds =>
        subject.unsupported ("range() with " ++ toString bounds.length ++ " arguments")
          "range() takes 1 to 3 arguments" span
  | _ =>
    subject.unsupported ("iteration over " ++ iter.describe)
      "only range() and array arguments can be iterated" iter.span

/-- The head of a loop and what begins each iteration. A loop over an array counts its indices. -/
def typeLoopHead (target iter : Surface.Expr) (span : Span) :
    Typing (ForHead × List Stmt × List LocalId) :=
  match target with
  | .name nameSpan name => do
    let scope ← Typing.scope
    match scope.array? iter with
    | some array =>
      let element := (scope.decl array).kind.numType
      let index ← Typing.onScope (·.temp "iter" (.scalar .int))
      let var ← subject.bindLocal name (.scalar element) nameSpan
      pure (⟨index, .int 0, .len array, .int 1, .range, false, span⟩,
        [.assign var (.index array element (.var index .int))], [index, var])
    | none =>
      let (start, stop, step) ← subject.typeRange iter
      let var ← subject.bindLocal name (.scalar .int) nameSpan
      pure (⟨var, start, stop, step, .range, false, span⟩, [], [var])
  | _ =>
    subject.unsupported ("loop target " ++ target.describe)
      "only a plain name can be a loop target" target.span

/-- An expression statement, which may call a function that returns nothing. -/
def typeEffect (expr : Surface.Expr) : Typing Expr :=
  match expr with
  | .call span func args keywords => do
    let scope ← Typing.scope
    match func.name? with
    | some name =>
      if !scope.isLocalName name && (subject.program.function? name).isSome then
        if keywords.isEmpty then
          let args ← subject.typeArgs args
          subject.typeModuleCall name args span true
        else
          subject.unsupported ("keyword arguments to " ++ name ++ "()")
            "compiled calls pass arguments by position" span
      else subject.typeExpr expr
    | none => subject.typeExpr expr
  | _ => subject.typeExpr expr

/-- Runs on a path of its own and gives the locals assigned at its end. -/
def onPath {α : Type} (entry : Definite) (typing : Typing α) : Typing (α × Definite) := do
  Typing.setDefinite fun _ => entry
  let value ← typing
  pure (value, (← Typing.scope).definite)

mutual

def typeStmt (stmt : Surface.Stmt) : Typing (List Stmt) :=
  match stmt with
  | .pass _ => pure []
  | .expr _ value => do
    let value ← subject.typeEffect value
    pure [.eval value]
  | .assign span targets value => subject.typeAssign targets value span
  | .update span target op value => subject.typeUpdate target op value span
  | .giveBack span value => do
    let result ← subject.typeReturn value span
    Typing.setDefinite (·.kill)
    pure [.giveBack result]
  | .branch _ cond yes no => do
    let cond ← subject.typeCondition cond
    let entry := (← Typing.scope).definite
    let (yes, afterYes) ← onPath entry (typeBlock yes)
    let (no, afterNo) ← onPath entry (typeBlock no)
    Typing.setDefinite fun _ => afterYes.join afterNo
    pure [.branch cond yes no]
  | .whileLoop span cond written => do
    let cond ← subject.typeCondition cond
    let entry := (← Typing.scope).definite
    let (body, _) ← onPath entry (typeBlock written)
    let isEndless :=
      match cond with
      | .const (.bool true) => !anyLeavesLoop written
      | _ => false
    Typing.setDefinite fun _ => if isEndless then entry.kill else entry
    pure [.whileLoop cond body span]
  | .forLoop span target iter written => do
    let (head, opening, assigned) ← subject.typeLoopHead target iter span
    let entry := (← Typing.scope).definite
    let (body, _) ← onPath (assigned.foldl Definite.assign entry) (typeBlock written)
    Typing.setDefinite fun _ => entry
    pure [.forLoop head (opening ++ body)]
  | .leave _ => do
    Typing.setDefinite (·.kill)
    pure [.leave]
  | .skip _ => do
    Typing.setDefinite (·.kill)
    pure [.skip]
  | .importNames _ _ | .importFrom _ _ _ | .globals _ _ | .nonlocals _ _ | .attempt _ _ _ _
  | .raise _ _ | .define _ => subject.unsupported stmt.describe "not compilable" stmt.span

/-- A block up to the first statement that no path reaches. -/
def typeBlock (body : List Surface.Stmt) : Typing (List Stmt) :=
  match body with
  | [] => pure []
  | stmt :: rest => do
    if (← Typing.scope).definite.dead then pure []
    else
      let first ← typeStmt stmt
      let others ← typeBlock rest
      pure (first ++ others)

end

/-- Types a whole body; its end returns nothing if a path reaches it. -/
def typeBody (definition : FunctionDef) : Typing (List Stmt) := do
  let body ← subject.typeBlock definition.body
  if !(← Typing.scope).definite.dead then subject.recordReturn .nothing definition.span
  pure body

def typeFunction (definition : FunctionDef) (kinds : List Kind) (directives : DirectiveSet) :
    Attempt Closure Routine := fun closure =>
  let names := Surface.assignedNames definition.body ++ definition.paramNames
  let (params, scope) :=
    ({ localNames := names } : Scope).declareParams (definition.paramNames.zip kinds)
  match subject.typeBody definition { closure, scope } with
  | .ok body draft =>
    .ok
      { name := subject.function
        argKinds := kinds
        params
        locals := draft.scope.locals
        body
        result := draft.result.getD .nothing
        purity := draft.purity
        directives
        globalsRead := draft.globalsRead
        nextLabel := 0 }
      draft.closure
  | .refused refusal draft => .refused refusal draft.closure
  | .exhausted => .exhausted

end Subject
end TwoTier.Eligibility
