import TwoTier.Interp.Exec

/-! Calls of functions and closures. Each uses up one of the frames left, which ends all
recursion. -/

namespace TwoTier.Interp

open Surface (Expr)

variable {τ : Type}

/-- How a call is routed, given the frames that are left and the way to interpret it. -/
abbrev Route (τ : Type) :=
  Nat → (String → List Value → Run (World τ) Value) → String → List Value → Run (World τ) Value

def Route.direct : Route τ := fun _ interpret => interpret

/-- The value of a default; defaults that need defaults nest at most this deep. -/
def defaultValue (program : Program) (fuel : Nat)
    (function : String → List Value → Run (World τ) Value)
    (closure : Closure → List Value → Run (World τ) Value) : Nat → Expr → Run (World τ) Value
  | 0, _ => Run.exhaust
  | depth + 1, expr =>
    let calls := ⟨function, closure, defaultValue program fuel function closure depth⟩
    eval { program, calls, scope := .module, fuel } [] expr

def Calls.of (program : Program) (fuel : Nat)
    (function : String → List Value → Run (World τ) Value)
    (closure : Closure → List Value → Run (World τ) Value) : Calls τ :=
  ⟨function, closure, defaultValue program fuel function closure fuel⟩

def bodyValue : Result (Frame τ) Flow → Result (World τ) Value
  | .ok (.giveBack value) frame => .ok value frame.world
  | .ok _ frame => .ok .none frame.world
  | .raised exception frame => .raised exception frame.world
  | .exhausted => .exhausted

def runFunction (program : Program) (fuel : Nat) (calls : Calls τ) (info : FunctionInfo)
    (args : List Value) : Run (World τ) Value := do
  let values ← completeArguments calls.default info.definition args []
  let ctx : Context τ :=
    { program, calls, fuel, scope := .function info.localNames info.globalNames }
  let locals := info.definition.paramNames.zip values
  fun world => bodyValue (execBlock ctx info.definition.body ⟨locals, world⟩)

def interpretIn (program : Program) (fuel : Nat) (inner : Option (Calls τ)) (name : String)
    (args : List Value) : Run (World τ) Value :=
  match program.function? name with
  | none => Run.raise (.unknownName name)
  | some info =>
    match inner with
    | none => Run.raise .recursion
    | some calls => runFunction program fuel calls info args

def runClosure (program : Program) (fuel : Nat) (calls : Calls τ) (closure : Closure)
    (args : List Value) : Run (World τ) Value :=
  let locals := (closure.params.zip args).foldl
    (fun locals (name, value) => locals.set name value) closure.captured
  eval { program, calls, fuel, scope := .closure } locals closure.body

/-- How calls are carried out when this many frames are left. -/
def callsAt (program : Program) (fuel : Nat) (route : Route τ) : Nat → Calls τ
  | 0 =>
    Calls.of program fuel (route 0 (interpretIn program fuel none))
      (fun _ _ => Run.raise .recursion)
  | remaining + 1 =>
    Calls.of program fuel
      (route (remaining + 1) fun name args world =>
        interpretIn program fuel (some (callsAt program fuel route remaining)) name args world)
      fun closure args world =>
        runClosure program fuel (callsAt program fuel route remaining) closure args world

/-- Interprets a function with this many frames left, whatever the route of its own call. -/
def interpretAt (program : Program) (fuel : Nat) (route : Route τ) :
    Nat → String → List Value → Run (World τ) Value
  | 0 => interpretIn program fuel none
  | remaining + 1 => interpretIn program fuel (some (callsAt program fuel route remaining))

def runModule (program : Program) (fuel : Nat) (calls : Calls τ) : Run (World τ) Unit :=
  fun world =>
    let ctx : Context τ := { program, calls, fuel, scope := .module }
    match execBlock ctx program.module.body ⟨[], world⟩ with
    | .ok _ frame => .ok () frame.world
    | .raised exception frame => .raised exception frame.world
    | .exhausted => .exhausted

end TwoTier.Interp
