import TwoTier.Dispatch.Routing

/-! A loaded program whose calls are dispatched. -/

namespace TwoTier.Dispatch

open Interp (Calls Image LoadFault LoadFailure Program Result Value World)

structure Engine where
  program : Program
  world : World Registry

inductive StartFault where
  | setting (fault : SettingFault)
  | load (fault : LoadFault)

structure Changes where
  added : List String := []
  /-- functions whose text is another one -/
  changed : List String := []
  removed : List String := []
  /-- functions that lost their decision, sorted -/
  invalidated : List String := []
deriving DecidableEq, Repr

def candidatesOf (program : Program) : List Candidate :=
  program.functions.map fun (_, info) => .ofDefinition info.definition

namespace Registry

def registerAll (registry : Registry) (program : Program) : Registry :=
  (candidatesOf program).foldl
    (fun registry candidate => (registry.register program candidate).2.2) registry

def digests (registry : Registry) : Table String :=
  registry.names.filterMap fun (name, id) =>
    (registry.entry? id).map fun entry => (name, entry.candidate.digest)

end Registry

/-- Whether a constant is as it was: absent, or a number of the same type and value. -/
def sameConstant : Option Scalar → Option Scalar → Bool
  | some old, some new => old.sameNumber new
  | none, none => true
  | _, _ => false

/-- The registry while a new version comes into force, with the changes so far. -/
structure Update where
  registry : Registry
  changes : Changes := {}

namespace Update

def invalidating (update : Update) (outcome : List String × Registry) : Update :=
  { registry := outcome.2
    changes := { update.changes with invalidated := update.changes.invalidated ++ outcome.1 } }

/-- Takes over a function of the new version. -/
def enter (program : Program) (before : Table String) (update : Update) (candidate : Candidate) :
    Update :=
  let changes := update.changes
  let name := candidate.name
  match before.get? name with
  | none =>
    { registry := (update.registry.register program candidate).2.2
      changes := { changes with added := changes.added ++ [name] } }
  | some digest =>
    if digest = candidate.digest then update
    else
      let update := { update with changes := { changes with changed := changes.changed ++ [name] } }
      update.invalidating (update.registry.register program candidate).2

/-- Drops a function of the old version, if the new one has none of its name. -/
def drop (program : Program) (update : Update) (name : String) : Update :=
  if (program.function? name).isSome then update
  else
    let changes := update.changes
    let update := { update with changes := { changes with removed := changes.removed ++ [name] } }
    update.invalidating (update.registry.remove program name)

/-- Resets what was derived from a constant, if that is another one now. -/
def recheck (program : Program) (update : Update) (old : String × Option Scalar) : Update :=
  if sameConstant old.2 (program.constant? old.1) then update
  else update.invalidating (update.registry.invalidate program old.1)

end Update

/-- Brings a new version of a program into force. -/
def Registry.update (registry : Registry) (old new : Program) : Changes × Registry :=
  let before := registry.digests
  let constants := registry.globalsInUse.map fun name => (name, old.constant? name)
  let entered := (candidatesOf new).foldl (Update.enter new before) { registry }
  let dropped := before.keys.foldl (Update.drop new) entered
  let update := constants.foldl (Update.recheck new) dropped
  ({ update.changes with invalidated := Text.sortedNames update.changes.invalidated },
    update.registry)

namespace Engine

variable (engine : Engine)

def start (source : String) (settings : Settings) : Except StartFault Engine :=
  match settings.fault? with
  | some fault => .error (.setting fault)
  | none =>
    match Image.load source settings.maxRecursionDepth .empty "" with
    | .error failure => .error (.load failure.fault)
    | .ok image =>
      let registry := Registry.registerAll { settings } image.program
      .ok ⟨image.program, ⟨image.heap, image.globals, image.output, registry⟩⟩

def registry : Registry := engine.world.tier

def withRegistry (registry : Registry) : Engine :=
  { engine with world := { engine.world with tier := registry } }

def maxDepth : Nat := engine.registry.settings.maxRecursionDepth

def calls : Calls Registry :=
  Interp.callsAt engine.program Interp.loopAllowance (route engine.program) engine.maxDepth

def call (name : String) (args : List Value) : Result (World Registry) Value :=
  engine.calls.function name args engine.world

def invoke (id : FunctionId) (args : List Value) : Result (World Registry) Value :=
  let interpret := Interp.interpretAt engine.program Interp.loopAllowance (route engine.program)
    engine.maxDepth
  callEntry engine.program engine.maxDepth interpret id args engine.world

def main : Result (World Registry) Unit :=
  Interp.runMain engine.program engine.calls engine.world

/-- What was printed since this was last asked. -/
def takeOutput : String × Engine :=
  (engine.world.output, { engine with world := { engine.world with output := "" } })

def wait : Engine := engine.withRegistry (engine.registry.drain engine.program)

def takeDiagnostics : List Diagnostic × Engine :=
  let (diagnostics, registry) := engine.registry.takeDiagnostics
  (diagnostics, engine.withRegistry registry)

def invalidate (name : String) : List String × Engine :=
  let (names, registry) := engine.registry.invalidate engine.program name
  (names, engine.withRegistry registry)

def remove (name : String) : List String × Engine :=
  let (names, registry) := engine.registry.remove engine.program name
  (names, engine.withRegistry registry)

/-- Loads a new version. A failure leaves the old one in place, with all that is decided for it. -/
def reload (source : String) : Except LoadFault Changes × Engine :=
  let world := engine.world
  match Image.load source engine.maxDepth world.heap world.output with
  | .ok image =>
    let (changes, registry) := engine.registry.update engine.program image.program
    (.ok changes, ⟨image.program, ⟨image.heap, image.globals, image.output, registry⟩⟩)
  | .error failure =>
    (.error failure.fault,
      { engine with world := { world with heap := failure.heap, output := failure.output } })

end Engine
end TwoTier.Dispatch
