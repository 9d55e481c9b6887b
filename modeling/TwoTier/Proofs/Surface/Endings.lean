import TwoTier.Proofs.Worlds.Calls

namespace TwoTier.Interp

open Surface (Enclosure Stmt)

variable {τ : Type} {ctx : Context τ}

theorem pairs_self (world : World τ) : World.Pairs (.relating Eq) world world :=
  .intro ⟨trivial, trivial, trivial⟩ rfl

theorem runs_self (run : Run (World τ) α) : (Policy.relating Eq).Runs (fun _ => True) run run := by
  constructor
  rintro world _ ⟨_, rfl⟩
  cases run world with
  | ok value after => exact .ok trivial (pairs_self after)
  | raised exception after => exact .raised (pairs_self after)
  | exhausted => exact .exhausted

theorem ends_execBlock {body : List Stmt} (enclosed : Stmt.AllEnclosed enclosure body)
    {frame after : Frame τ} (ran : execBlock ctx body frame = .ok flow after) :
    (Policy.relating (@Eq τ)).Ends True enclosure flow := by
  have obey : ctx.calls.Obey (.relating Eq) ctx.calls :=
    ⟨fun _ _ _ => runs_self _, fun _ _ => runs_self _, fun _ => runs_self _⟩
  have runs := (Policy.sound_relating Eq).runs_execBlock obey body (fun _ _ _ _ _ => trivial)
    fun _ : True => enclosed
  have start : Frame.Pairs (.relating Eq) frame frame :=
    .intro (fun _ _ => trivial) (pairs_self frame.world)
  have agreed := runs.agrees start
  have same : ctx.withCalls ctx.calls = ctx := rfl
  rw [same, ran] at agreed
  cases agreed with
  | ok held => exact held

/-- The body of a module that was read runs to its end, unless an exception ends it. -/
theorem flow_of_module (read : Surface.readModule source = .ok module) {after : Frame τ}
    (ran : execBlock ctx module.body frame = .ok flow after) : flow = .next := by
  have enclosed := (Surface.sited_of_readModule read).allEnclosed
  have held := ends_execBlock enclosed ran
  cases flow with
  | next => rfl
  | leave | skip => cases held trivial
  | giveBack => cases held.2 trivial

/-- In a module that was read, jumps have around them what they leave. So no function's body ends in
a jump out of a loop, and the module's body ends in no jump at all. -/
theorem jumps_land (read : Surface.readModule source = .ok module) :
    (∀ enclosure stmt, module.Holds enclosure stmt → stmt.Jumps enclosure) ∧
    (∀ enclosure function, module.Holds enclosure (.define function) →
      ∀ {τ : Type} (ctx : Context τ) (frame after : Frame τ) (flow : Flow),
        execBlock ctx function.body frame = .ok flow after →
          flow = .next ∨ ∃ value, flow = .giveBack value) ∧
    ∀ {τ : Type} (ctx : Context τ) (frame after : Frame τ) (flow : Flow),
      execBlock ctx module.body frame = .ok flow after → flow = .next := by
  refine ⟨fun _ _ held => (held.enclosed read).jumps, ?_, fun _ _ _ _ => flow_of_module read⟩
  intro enclosure function held _ ctx frame after flow ran
  have enclosed := Stmt.enclosed_define.1 (held.enclosed read)
  have within := ends_execBlock enclosed ran
  cases flow with
  | next => exact .inl rfl
  | giveBack value => exact .inr ⟨value, rfl⟩
  | leave | skip => cases within trivial

/-- Jumps out of a loop in a nested function, and around in a loop outside. -/
def jumpSource : String :=
  "def f(n):\n    def g(m):\n        while m:\n            break\n    return n\n" ++
  "for i in range(3):\n    continue\n"

theorem jumps_land_nested : ∃ module, Surface.readModule jumpSource = .ok module ∧
    module.functions.length = 1 ∧ ∀ function ∈ module.functions,
      ∀ (ctx : Context Unit) (frame after : Frame Unit) (flow : Flow),
        execBlock ctx function.body frame = .ok flow after →
          flow = .next ∨ ∃ value, flow = .giveBack value := by
  have evaluated : ((Surface.readModule jumpSource).toOption.any fun module =>
      module.functions.length = 1) = true := by
    decide +kernel
  obtain ⟨module, read, single⟩ := (Option.any_eq_true _ _).1 evaluated
  have read := eq_ok_of_toOption read
  refine ⟨module, read, of_decide_eq_true single, fun function member => ?_⟩
  exact (jumps_land read).2.1 _ function (.top (Surface.define_mem_body member))

end TwoTier.Interp
