import TwoTier.Interp.Builtin
import TwoTier.Interp.Program

/-! Evaluation of expressions, with calls of functions and closures through a parameter. -/

namespace TwoTier.Interp

open Surface (Expr Ident)

inductive Scope where
  /-- every name is global -/
  | module
  | function (localNames globalNames : List String)
  /-- captured names and parameters, and the globals behind them -/
  | closure

structure Calls (τ : Type) where
  function : String → List Value → Run (World τ) Value
  closure : Closure → List Value → Run (World τ) Value
  /-- the default of a parameter, evaluated among the names of the module -/
  default : Expr → Run (World τ) Value

structure Context (τ : Type) where
  program : Program
  calls : Calls τ
  scope : Scope
  fuel : Nat

variable {τ : Type}

def loadGlobal (program : Program) (name : String) : Run (World τ) Value := do
  match (← Run.get).globals.get? name with
  | some value => return value
  | none =>
    if (program.function? name).isSome then return .function name
    else
      match Builtin.ofName? name with
      | some builtin => return .builtin builtin
      | none => Run.raise (.unknownName name)

def load (ctx : Context τ) (locals : Table Value) (name : String) : Run (World τ) Value :=
  match ctx.scope with
  | .module => loadGlobal ctx.program name
  | .function localNames globalNames =>
    if globalNames.contains name || !localNames.contains name then loadGlobal ctx.program name
    else
      match locals.get? name with
      | some value => return value
      | none => Run.raise (.unboundLocal name)
  | .closure =>
    match locals.get? name with
    | some value => return value
    | none => loadGlobal ctx.program name

def takeKeyword? (name : String) : Table Value → Option (Value × Table Value)
  | [] => none
  | (key, value) :: rest =>
    if key = name then some (value, rest)
    else (takeKeyword? name rest).map fun (found, others) => (found, (key, value) :: others)

/-- Gives each parameter its positional argument, else its keyword, else its default. -/
def bindParams (name : String) (evalDefault : Expr → Run (World τ) Value) :
    List Surface.Param → List Value → Table Value → Run (World τ) (List Value × Table Value)
  | [], _, keywords => return ([], keywords)
  | param :: params, args, keywords => do
    match args, takeKeyword? param.name.name keywords with
    | _ :: _, some _ =>
      Run.raise (.type (name ++ "() got multiple values for argument '" ++ param.name.name ++ "'"))
    | arg :: args, none =>
      let (values, unused) ← bindParams name evalDefault params args keywords
      return (arg :: values, unused)
    | [], some (value, others) =>
      let (values, unused) ← bindParams name evalDefault params [] others
      return (value :: values, unused)
    | [], none =>
      match param.default with
      | none =>
        Run.raise (.type (name ++ "() missing required argument: '" ++ param.name.name ++ "'"))
      | some default =>
        let value ← evalDefault default
        let (values, unused) ← bindParams name evalDefault params [] keywords
        return (value :: values, unused)

/-- The arguments of a call in parameter order, with keywords and defaults filled in. -/
def completeArguments (evalDefault : Expr → Run (World τ) Value)
    (definition : Surface.FunctionDef) (args : List Value) (keywords : Table Value) :
    Run (World τ) (List Value) := do
  let name := definition.name.name
  if definition.params.length < args.length then
    Run.raise (.type (name ++ "() takes " ++ toString definition.params.length ++
      " positional arguments but " ++ toString args.length ++ " were given"))
  else
    match ← bindParams name evalDefault definition.params args keywords with
    | (values, []) => return values
    | (_, (unused, _) :: _) =>
      Run.raise (.type (name ++ "() got an unexpected keyword argument '" ++ unused ++ "'"))

/-- The separator and the ending that keywords of a print give. -/
def printMarks (heap : Heap) : Table Value → String × String → Except Exception (String × String)
  | [], marks => .ok marks
  | (name, value) :: rest, (separator, ending) =>
    match name with
    | "sep" => printMarks heap rest (heap.text value, ending)
    | "end" => printMarks heap rest (separator, heap.text value)
    | other =>
      .error (.type ("'" ++ other ++ "' is an invalid keyword argument for print()"))

def printCall (args : List Value) (keywords : Table Value) : Run (World τ) Value := do
  let heap := (← Run.get).heap
  let (separator, ending) ← Run.ofExcept (printMarks heap keywords (" ", "\n"))
  World.print (separator.intercalate (args.map heap.text) ++ ending)
  return .none

/-- Calls a value. Keywords of a function are completed before the call is routed. -/
def callValue (ctx : Context τ) (callee : Value) (args : List Value) (keywords : Table Value) :
    Run (World τ) Value := do
  match callee with
  | .function name =>
    if keywords.isEmpty then ctx.calls.function name args
    else
      match ctx.program.function? name with
      | none => Run.raise (.unknownName name)
      | some info =>
        ctx.calls.function name
          (← completeArguments ctx.calls.default info.definition args keywords)
  | .builtin .print => printCall args keywords
  | .builtin builtin =>
    match keywords with
    | (name, _) :: _ =>
      Run.raise (.type (builtin.name ++ "() takes no keyword argument '" ++ name ++ "'"))
    | [] => World.onHeap (callBuiltin builtin args)
  | .closure address =>
    match (← Run.get).heap.closure? address with
    | none => Run.raise (.type "'function' object is not callable")
    | some closure =>
      if !keywords.isEmpty || args.length != closure.params.length then
        Run.raise (.type ("<lambda>() takes " ++ toString closure.params.length ++ " arguments (" ++
          toString args.length ++ " given)"))
      else ctx.calls.closure closure args
  | other => Run.raise (.type ("'" ++ other.typeName ++ "' object is not callable"))

def isModule : Value → Bool
  | .module _ => true
  | _ => false

def getMember (object : Value) (name : String) : Except Exception Value :=
  match object with
  | .module "math" => mathAttribute name
  | other =>
    .error (.missing ("'" ++ other.typeName ++ "' object has no attribute '" ++ name ++ "'"))

def newClosure (closure : Closure) : Run (World τ) Value := World.onHeap fun heap =>
  let (address, heap) := heap.alloc (.closure closure)
  .ok (.closure address) heap

def truth (value : Value) : Run (World τ) Bool := do return (← Run.get).heap.isTruthy value

mutual

def eval (ctx : Context τ) (locals : Table Value) (expr : Expr) :
    Run (World τ) Value :=
  match expr with
  | .int _ value => return .int value
  | .float _ value => return .float value
  | .bool _ value => return .bool value
  | .none _ => return .none
  | .str _ text => return .str text
  | .name _ name => load ctx locals name
  | .binary _ op left right => do
    let a ← eval ctx locals left
    let b ← eval ctx locals right
    World.onHeap (binary op a b)
  | .unary _ op operand => do
    let value ← eval ctx locals operand
    World.onHeap (unary op value)
  | .boolOp _ op left right => do
    let value ← eval ctx locals left
    if (← truth value) == (op == .or) then return value else eval ctx locals right
  | .compare _ left rest => do
    let first ← eval ctx locals left
    return .bool (← evalChain ctx locals first rest)
  | .call _ func args keywords => do
    let method ←
      match func with
      | .member _ value attr => do
        let receiver ← eval ctx locals value
        pure (if isModule receiver then none else some (receiver, attr.name))
      | _ => pure none
    match method with
    | some (receiver, name) =>
      let values ← evalAll ctx locals args
      World.onHeap (callMethod receiver name values)
    | none =>
      let callee ← eval ctx locals func
      let values ← evalAll ctx locals args
      let named ← evalKeywords ctx locals keywords
      callValue ctx callee values named
  | .member _ value attr => do
    let object ← eval ctx locals value
    Run.ofExcept (getMember object attr.name)
  | .subscript _ value index => do
    let container ← eval ctx locals value
    let place ← eval ctx locals index
    World.onHeap (getItem container place)
  | .list _ items => do
    let values ← evalAll ctx locals items
    World.onHeap (newList values.toArray)
  | .tuple _ items => do
    let values ← evalAll ctx locals items
    World.onHeap (newTuple values.toArray)
  | .dict _ entries => do
    let entries ← evalEntries ctx locals #[] entries
    World.onHeap (newDict entries)
  | .lambda _ params body =>
    newClosure { params := params.map (·.name), body, captured := locals }
  | .conditional _ cond yes no => do
    let chosen ← eval ctx locals cond
    if ← truth chosen then eval ctx locals yes else eval ctx locals no

def evalAll (ctx : Context τ) (locals : Table Value)
    (exprs : List Expr) : Run (World τ) (List Value) :=
  match exprs with
  | [] => return []
  | expr :: rest => do
    let value ← eval ctx locals expr
    let values ← evalAll ctx locals rest
    return value :: values

def evalKeywords (ctx : Context τ) (locals : Table Value)
    (keywords : List (Ident × Expr)) : Run (World τ) (Table Value) :=
  match keywords with
  | [] => return []
  | (name, expr) :: rest => do
    let value ← eval ctx locals expr
    let values ← evalKeywords ctx locals rest
    return (name.name, value) :: values

/-- The rest of a chain of comparisons, which ends at the first that fails. -/
def evalChain (ctx : Context τ) (locals : Table Value) (left : Value)
    (rest : List (Surface.CmpOp × Expr)) : Run (World τ) Bool :=
  match rest with
  | [] => return true
  | (op, expr) :: rest => do
    let right ← eval ctx locals expr
    if ← World.onHeap (compareValues op left right) then
      evalChain ctx locals right rest
    else return false

def evalEntries (ctx : Context τ) (locals : Table Value)
    (before : Array (Value × Value)) (entries : List (Expr × Expr)) :
    Run (World τ) (Array (Value × Value)) :=
  match entries with
  | [] => return before
  | (key, item) :: rest => do
    let key ← eval ctx locals key
    Run.ofExcept (checkHashable key)
    let item ← eval ctx locals item
    evalEntries ctx locals ((← Run.get).heap.putEntry before key item) rest

end

end TwoTier.Interp
