import TwoTier.Dispatch.Engine
import TwoTier.Proofs.Names.Keeping

/-! What becomes of a loaded program between uses by its host. -/

namespace TwoTier

/-- What is found in a table that was built step by step was there before or entered by a step. -/
theorem Table.get?_foldl {value : α} {entered : Prop} {step : Table α → β → Table α}
    (items : List β)
    (each : ∀ item ∈ items, ∀ table, get? name (step table item) = some value → get? name table =
      some value ∨ entered) (table : Table α)
    (found : get? name (items.foldl step table) = some value) :
    get? name table = some value ∨ entered := by
  induction items generalizing table with
  | nil => exact .inl found
  | cons item rest ih =>
    have later := fun other member => each other (.tail _ member)
    obtain before | done := ih later _ found
    · exact each item (.head _) table before
    · exact .inr done

namespace Interp

variable {σ τ α : Type} {name : String} {held : Option Value}

/-- A run ends in this state, well or with an exception. -/
inductive Result.Ends : Result σ α → σ → Prop where
  | ok {value : α} {state : σ} : Ends (.ok value state) state
  | raised {exception : Exception} {state : σ} : Ends (.raised exception state) state

theorem Result.Leaves.ends {holds : σ → Prop} {result : Result σ α} (leaves : result.Leaves holds)
    (ends : result.Ends state) : holds state := by
  cases ends with
  | ok | raised => exact leaves

/-- The text of a program leaves a module name as it is bound. -/
structure Program.Spares (program : Program) (name : String) (held : Option Value) : Prop where
  /-- running as the main program binds this name -/
  unreserved : "__name__" ≠ name
  functions : program.FunctionsSpare name
  body : ∀ {τ : Type} {ctx : Context τ}, ctx.scope = .module → ctx.calls.Spare name held →
    FrameSpared name held (execBlock ctx program.module.body)

theorem Program.info_of_function? {module : Surface.Module} {callee : String}
    (found : (ofModule module).function? callee = some info) :
    ∃ definition ∈ module.functions, definition.name.name = callee ∧
      info = .ofDefinition definition := by
  refine (Table.get?_foldl module.functions ?_ [] found).resolve_left nofun
  intro definition member table entered
  rw [Table.get?_set] at entered
  split at entered
  · rename_i same
    cases entered
    exact .inr ⟨definition, member, same, rfl⟩
  · exact .inl entered

/-- The names that functions of a module declare global. -/
def declaredGlobals (module : Surface.Module) : List String :=
  module.functions.flatMap fun definition => Surface.globalNames definition.body

theorem Program.functionsSpare_of_not_mem {module : Surface.Module}
    (undeclared : name ∉ declaredGlobals module) : (ofModule module).FunctionsSpare name := by
  intro callee info found declared
  obtain ⟨definition, member, _, rfl⟩ := info_of_function? found
  exact undeclared (List.mem_flatMap.2 ⟨definition, member, declared⟩)

theorem World.binds_setGlobal {world : World τ} {other : String} (different : other ≠ name)
    (value : Value) (bound : world.Binds name held) :
    (world.setGlobal other value).Binds name held :=
  (Table.get?_set other name value _).trans ((if_neg different).trans bound)

/-- Running as the main program keeps what running the body and naming the program keep. -/
theorem Run.Keeps.runMain {holds : World τ → Prop}
    (body : Run.Keeps holds (runModule program loopAllowance calls))
    (renamed : ∀ {world : World τ} value, holds world → holds (world.setGlobal "__name__" value)) :
    Run.Keeps holds (runMain program calls) := by
  constructor
  intro world held
  have left := body.leaves (renamed (.str mainName) held)
  unfold Interp.runMain
  generalize runModule program loopAllowance calls _ = result at left ⊢
  cases result with
  | ok | raised => exact renamed _ left
  | exhausted => trivial

section Runs

variable {program : Program} (spares : program.Spares name held) {calls : Calls τ}
  (inner : calls.Spare name held)

include spares inner

theorem Spared.runModule (fuel : Nat) : Spared name held (runModule program fuel calls) := by
  constructor
  intro world bound
  have start : (⟨[], world⟩ : Frame τ).world.Binds name held := bound
  let ctx : Context τ := { program, calls, fuel, scope := .module }
  have body : FrameSpared name held (execBlock ctx program.module.body) := spares.body rfl inner
  have left := body.leaves start
  unfold Interp.runModule
  dsimp only
  generalize execBlock ctx program.module.body _ = result at left ⊢
  cases result with
  | ok | raised => exact left
  | exhausted => trivial

theorem Spared.runMain : Spared name held (runMain program calls) :=
  Run.Keeps.runMain (Spared.runModule spares inner loopAllowance) (World.binds_setGlobal spares.unreserved)

end Runs

def Session.ofImage (image : Image) (maxDepth : Nat) : Session :=
  ⟨image.program, ⟨image.heap, image.globals, image.output, ()⟩, maxDepth⟩

/-- What a program under interpretation can become. -/
inductive Session.Later (session : Session) : Session → Prop where
  | now : Later session session
  | called {between : Session} {callee : String} {args : List Value} {world : World Unit}
      (earlier : Later session between) (ends : (between.call callee args).Ends world) :
      Later session { between with world }
  | ranMain {between : Session} {world : World Unit} (earlier : Later session between)
      (ends : between.main.Ends world) : Later session { between with world }
  /-- the host takes the output and changes its objects -/
  | hosted {between : Session} (heap : Heap) (output : String) (earlier : Later session between) :
      Later session { between with world := { between.world with heap, output } }

namespace Session.Later

variable {session later : Session}

theorem program_eq (follows : session.Later later) : later.program = session.program := by
  induction follows with
  | now => rfl
  | called _ _ ih | ranMain _ _ ih | hosted _ _ _ ih => exact ih

theorem binds (follows : session.Later later) (spares : session.program.Spares name held)
    (bound : session.world.Binds name held) : later.world.Binds name held := by
  have calls {between : Session} (spares : between.program.Spares name held) :
      between.calls.Spare name held :=
    .callsAt Route.neutral_direct spares.functions between.maxDepth
  induction follows with
  | now => exact bound
  | @called _ callee args _ earlier ends ih =>
    exact (((calls (earlier.program_eq ▸ spares)).function callee args).leaves ih).ends ends
  | ranMain earlier ends ih =>
    have spares := earlier.program_eq ▸ spares
    exact ((Spared.runMain spares (calls spares)).leaves ih).ends ends
  | hosted _ _ _ ih => exact ih

end Session.Later
end Interp

namespace Dispatch

open Interp (Calls Heap Image Program Result Route Spared Value World)

variable {name : String} {held : Option Value} {program : Program}

/-- A call by number leaves a module name as it is bound, as compiled code has no access to it. -/
theorem spared_callEntry (interprets : ∀ callee args, Spared name held (interpret callee args))
    (remaining : Nat) (id : FunctionId) (args : List Value) :
    Spared name held (callEntry program remaining interpret id args) := by
  constructor
  rintro ⟨heap, globals, output, registry⟩ bound
  have interpreted (callee : String) (later : Registry) :
      (interpret callee args ⟨heap, globals, output, later⟩).Leaves (World.Binds name held) :=
    (interprets callee args).leaves bound
  unfold callEntry
  dsimp only
  split
  · exact bound
  · split
    · exact interpreted _ _
    · exact interpreted _ _
    · exact interpreted _ _
    · split
      · exact bound
      · exact interpreted _ _
      · exact interpreted _ _
      · trivial

theorem neutral_route (program : Program) : (route program).Neutral := by
  intro name held remaining interpret interprets callee args
  constructor
  intro world bound
  unfold route
  split
  · exact (spared_callEntry interprets remaining _ args).leaves bound
  · exact (interprets callee args).leaves bound

namespace Engine

def ofImage (image : Image) (registry : Registry) : Engine :=
  ⟨image.program, ⟨image.heap, image.globals, image.output, registry⟩⟩

/-- What a program whose calls are dispatched can become. -/
inductive Later (engine : Engine) : Engine → Prop where
  | now : Later engine engine
  | called {between : Engine} {callee : String} {args : List Value} {world : World Registry}
      (earlier : Later engine between) (ends : (between.call callee args).Ends world) :
      Later engine { between with world }
  | invoked {between : Engine} {id : FunctionId} {args : List Value} {world : World Registry}
      (earlier : Later engine between) (ends : (between.invoke id args).Ends world) :
      Later engine { between with world }
  | ranMain {between : Engine} {world : World Registry} (earlier : Later engine between)
      (ends : between.main.Ends world) : Later engine { between with world }
  /-- the host takes the output and changes its objects -/
  | hosted {between : Engine} (heap : Heap) (output : String) (earlier : Later engine between) :
      Later engine { between with world := { between.world with heap, output } }
  /-- functions are compiled, invalidated or removed -/
  | tended {between : Engine} (registry : Registry) (earlier : Later engine between) :
      Later engine (between.withRegistry registry)

namespace Later

variable {engine later : Engine}

theorem program_eq (follows : engine.Later later) : later.program = engine.program := by
  induction follows with
  | now => rfl
  | called _ _ ih | invoked _ _ ih | ranMain _ _ ih | hosted _ _ _ ih | tended _ _ ih => exact ih

theorem binds (follows : engine.Later later) (spares : engine.program.Spares name held)
    (bound : engine.world.Binds name held) : later.world.Binds name held := by
  have calls {between : Engine} (spares : between.program.Spares name held) :
      between.calls.Spare name held :=
    .callsAt (neutral_route between.program) spares.functions between.maxDepth
  induction follows with
  | now => exact bound
  | @called _ callee args _ earlier ends ih =>
    exact (((calls (earlier.program_eq ▸ spares)).function callee args).leaves ih).ends ends
  | @invoked between id args world earlier ends ih =>
    have spares := earlier.program_eq ▸ spares
    refine Interp.Result.Leaves.ends ?_ ends
    refine (spared_callEntry ?_ between.maxDepth id args).leaves ih
    exact Spared.interpretAt (neutral_route between.program) spares.functions between.maxDepth
  | ranMain earlier ends ih =>
    have spares := earlier.program_eq ▸ spares
    exact ((Spared.runMain spares (calls spares)).leaves ih).ends ends
  | hosted _ _ _ ih | tended _ _ ih => exact ih

end Later
end Engine
end Dispatch
end TwoTier
