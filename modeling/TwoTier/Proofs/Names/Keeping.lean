import TwoTier.Proofs.Worlds.Calls

namespace TwoTier.Surface.Stmt

def AllSpare (name : String) (body : List Stmt) : Prop :=
  ∀ stmt ∈ withinAll body, name ∉ stmt.storedNames

def Spares (name : String) (stmt : Stmt) : Prop := ∀ inner ∈ stmt.within, name ∉ inner.storedNames

variable {name : String}

theorem withinAll_append (first others : List Stmt) :
    withinAll (first ++ others) = withinAll first ++ withinAll others := by
  induction first with
  | nil => simp [withinAll]
  | cons stmt rest ih => simp [withinAll, ih]

theorem Spares.own {stmt : Stmt} (spares : stmt.Spares name) : name ∉ stmt.storedNames :=
  spares stmt (by cases stmt <;> simp [within])

end TwoTier.Surface.Stmt

namespace TwoTier.Interp

open Surface (Expr Stmt)

section Rules

variable {σ α β : Type} {holds : σ → Prop}

/-- The state that a result comes with has the property; a run that is exhausted leaves none. -/
def Result.Leaves (holds : σ → Prop) : Result σ α → Prop
  | .ok _ state | .raised _ state => holds state
  | .exhausted => True

/-- A run that keeps a property of states, whether it ends well or raises. -/
structure Run.Keeps (holds : σ → Prop) (run : Run σ α) : Prop where
  leaves : ∀ {state}, holds state → (run state).Leaves holds

namespace Run.Keeps

theorem pure (value : α) : Run.Keeps holds (Pure.pure value) := ⟨id⟩

theorem bind {run : Run σ α} {next : α → Run σ β} (first : Run.Keeps holds run)
    (rest : ∀ value, Run.Keeps holds (next value)) : Run.Keeps holds (run >>= next) := by
  constructor
  intro state held
  have left := first.leaves held
  rw [Run.bind_apply]
  generalize run state = result at left ⊢
  cases result with
  | ok value after => exact (rest value).leaves left
  | raised exception after => exact left
  | exhausted => trivial

theorem proceedBlock {again : Run σ Flow} (rest : Run.Keeps holds again) (flow : Flow) :
    Run.Keeps holds (proceedBlock again flow) := by
  cases flow with
  | next => exact rest
  | leave | skip | giveBack => exact .pure _

/-- A run that agrees with itself keeps what holds of a state that is related to itself. -/
theorem of_matches {related : σ → σ → Prop} {run : Run σ α}
    (iff : ∀ state, related state state ↔ holds state) (matched : run.Matches related good run) :
    run.Keeps holds := by
  constructor
  intro state held
  have agreed := matched.agrees ((iff state).2 held)
  generalize run state = result at agreed ⊢
  cases agreed with
  | ok _ linked | raised linked => exact (iff _).1 linked
  | exhausted | unfinished => trivial

end Run.Keeps
end Rules

variable {τ α : Type} {name : String} {held : Option Value}

/-- A module name is bound to this value, or to none. -/
def World.Binds (name : String) (held : Option Value) (world : World τ) : Prop :=
  world.globals.get? name = held

abbrev Spared (name : String) (held : Option Value) (run : Run (World τ) α) : Prop :=
  run.Keeps (World.Binds name held)

abbrev FrameSpared (name : String) (held : Option Value) (run : Run (Frame τ) α) : Prop :=
  run.Keeps fun frame => frame.world.Binds name held

structure Calls.Spare (name : String) (held : Option Value) (calls : Calls τ) : Prop where
  function : ∀ callee args, Spared name held (calls.function callee args)
  closure : ∀ closure args, Spared name held (calls.closure closure args)
  default : ∀ expr, Spared name held (calls.default expr)

/-- A module name is bound to this value, or to none, and no other binding of it is allowed. -/
def sparing (τ : Type) (name : String) (held : Option Value) : Policy τ τ where
  admits _ := True
  binds other := other ≠ name
  heap _ := True
  globals table := table.get? name = held
  output _ := True
  tier := Eq

theorem sound_sparing : (sparing τ name held).Sound :=
  { Policy.sound_relating (Eq : τ → τ → Prop) with
    named := fun _ _ => trivial
    bound := fun {globals other value} bound different _ =>
      (Table.get?_set other name value globals).trans ((if_neg different).trans bound) }

theorem pairs_sparing {other : World τ} :
    World.Pairs (sparing τ name held) world other ↔ world = other ∧ world.Binds name held := by
  constructor
  · rintro ⟨obeys, rfl⟩
    exact ⟨rfl, obeys.globals⟩
  · rintro ⟨rfl, bound⟩
    exact .intro ⟨trivial, bound, trivial⟩ rfl

theorem pairs_sparing_self (world : World τ) :
    World.Pairs (sparing τ name held) world world ↔ world.Binds name held := by
  rw [pairs_sparing, eq_self, true_and]

theorem pairs_sparing_frame (frame : Frame τ) :
    Frame.Pairs (sparing τ name held) frame frame ↔ frame.world.Binds name held := by
  rw [← pairs_sparing_self]
  constructor
  · rintro ⟨_, pairs⟩
    exact pairs
  · exact .intro fun _ _ => trivial

/-- A run that leaves the name obeys the policy, which says nothing of values. -/
theorem Spared.runs {run : Run (World τ) Value} (spared : Spared name held run) :
    (sparing τ name held).Runs (sparing τ name held).admits run run := by
  constructor
  intro world other pairs
  obtain ⟨rfl, bound⟩ := pairs_sparing.1 pairs
  have left := spared.leaves bound
  generalize run world = result at left ⊢
  cases result with
  | ok value after => exact .ok trivial ((pairs_sparing_self after).2 left)
  | raised exception after => exact .raised ((pairs_sparing_self after).2 left)
  | exhausted => exact .exhausted

theorem Calls.Spare.obey {calls : Calls τ} (spare : calls.Spare name held) :
    calls.Obey (sparing τ name held) calls where
  function callee _ _ := (spare.function callee _).runs
  closure _ _ := (spare.closure _ _).runs
  default expr := (spare.default expr).runs

theorem Calls.Obey.spare {calls : Calls τ} (obey : calls.Obey (sparing τ name held) calls) :
    calls.Spare name held where
  function callee _ := .of_matches pairs_sparing_self (obey.function callee fun _ _ => trivial)
  closure _ _ :=
    .of_matches pairs_sparing_self (obey.closure (fun _ _ => trivial) fun _ _ => trivial)
  default expr := .of_matches pairs_sparing_self (obey.default expr)

section Statements

variable {ctx : Context τ}

theorem Spared.eval (calls : ctx.calls.Spare name held) (locals : Table Value) (expr : Expr) :
    Spared name held (eval ctx locals expr) :=
  .of_matches pairs_sparing_self (sound_sparing.runs_eval calls.obey (fun _ _ => trivial) expr)

namespace FrameSpared

theorem store {asked : String} (value : Value) (other : scope.isGlobal name = true → asked ≠ name) :
    FrameSpared name held (store (τ := τ) scope asked value) := by
  refine .of_matches pairs_sparing_frame (sound_sparing.runs_store trivial ?_)
  rintro isGlobal rfl
  exact other isGlobal rfl

theorem assignAll (calls : ctx.calls.Spare name held) (targets : List Expr) (values : List Value)
    (spared : ctx.scope.isGlobal name = true → name ∉ Expr.targetNamesAll targets) :
    FrameSpared name held (assignAll ctx targets values) := by
  refine .of_matches pairs_sparing_frame
    (sound_sparing.runs_assignAll calls.obey targets (fun _ _ => trivial) ?_)
  rintro other member isGlobal rfl
  exact spared isGlobal member

theorem exec (calls : ctx.calls.Spare name held) (statement : Stmt)
    (spared : ctx.scope.isGlobal name = true → statement.Spares name) :
    FrameSpared name held (exec ctx statement) := by
  have anywhere : False → statement.Enclosed ⟨false, false⟩ := False.elim
  refine .of_matches pairs_sparing_frame
    (sound_sparing.runs_exec calls.obey statement ?_ anywhere)
  rintro inner inside other stored isGlobal rfl
  exact spared isGlobal inner inside stored

theorem execBlock (calls : ctx.calls.Spare name held) (body : List Stmt)
    (spared : ctx.scope.isGlobal name = true → Stmt.AllSpare name body) :
    FrameSpared name held (execBlock ctx body) := by
  have anywhere : False → Stmt.AllEnclosed ⟨false, false⟩ body := False.elim
  refine .of_matches pairs_sparing_frame
    (sound_sparing.runs_execBlock calls.obey body ?_ anywhere)
  rintro inner inside other stored isGlobal rfl
  exact spared isGlobal inner inside stored

end FrameSpared
end Statements

section Calls

variable {program : Program} {fuel : Nat}

/-- No function of a program binds a module name. -/
def Program.FunctionsSpare (program : Program) (name : String) : Prop :=
  ∀ callee info, program.function? callee = some info → name ∉ info.globalNames

theorem Program.FunctionsSpare.permits (spare : program.FunctionsSpare name) :
    program.Permits (sparing τ name held) := by
  rintro callee info found other member rfl
  exact spare callee info found member

theorem Spared.defaultValue {closure : Closure → List Value → Run (World τ) Value}
    (functions : ∀ callee args, Spared name held (function callee args))
    (closures : ∀ made args, Spared name held (closure made args)) (depth : Nat) (expr : Expr) :
    Spared name held (defaultValue program fuel function closure depth expr) := by
  refine .of_matches pairs_sparing_self (sound_sparing.runs_defaultValue ?_ ?_ depth expr)
  · exact fun callee args _ => (functions callee args).runs
  · exact fun {made args} _ _ => (closures made args).runs

/-- A route binds no module name by itself. -/
def Route.Neutral (route : Route τ) : Prop :=
  ∀ (name : String) (held : Option Value) (remaining : Nat)
    (interpret : String → List Value → Run (World τ) Value),
    (∀ callee args, Spared name held (interpret callee args)) →
    ∀ callee args, Spared name held (route remaining interpret callee args)

theorem Route.neutral_direct : Route.Neutral (Route.direct : Route τ) :=
  fun _ _ _ _ interprets => interprets

theorem Route.Neutral.obeys {route : Route τ} (neutral : route.Neutral) (maxDepth : Nat) :
    route.Obeys (sparing τ name held) program fuel maxDepth route := by
  intro remaining _ interprets callee args _
  refine (neutral name held remaining _ (fun other values => ?_) callee args).runs
  exact .of_matches pairs_sparing_self (interprets other fun _ _ => trivial)

theorem Calls.Spare.callsAt {route : Route τ} (neutral : route.Neutral)
    (functions : program.FunctionsSpare name) (remaining : Nat) :
    Calls.Spare name held (callsAt program fuel route remaining) :=
  (sound_sparing.obey_callsAt (neutral.obeys remaining) functions.permits remaining
    .refl).spare

theorem Spared.interpretAt {route : Route τ} (neutral : route.Neutral)
    (functions : program.FunctionsSpare name) (remaining : Nat) (callee : String)
    (args : List Value) :
    Spared name held (interpretAt program fuel route remaining callee args) :=
  .of_matches pairs_sparing_self
    (sound_sparing.serves_interpretAt (neutral.obeys remaining) functions.permits remaining
      .refl callee fun _ _ => trivial)

end Calls

end TwoTier.Interp
