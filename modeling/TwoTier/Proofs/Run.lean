import TwoTier.Interp.Exec

namespace TwoTier

theorem eq_ok_of_toOption {ε : Type} {result : Except ε α} {value : α}
    (found : result.toOption = some value) : result = .ok value := by
  cases result with
  | ok other => exact congrArg Except.ok (Option.some.inj found)
  | error _ => cases found

namespace Interp

variable {σ τ α β : Type}

namespace Run

theorem bind_apply (run : Run σ α) (next : α → Run σ β) (state : σ) :
    (run >>= next) state =
      match run state with
      | .ok value after => next value after
      | .raised exception after => .raised exception after
      | .exhausted => .exhausted :=
  rfl

theorem bind_eq_ok {run : Run σ α} {next : α → Run σ β} {after : σ} {value : β} :
    (run >>= next) state = .ok value after ↔
      ∃ first between, run state = .ok first between ∧ next first between = .ok value after := by
  rw [bind_apply]
  cases run state <;> simp [and_assoc]

end Run

/-- What follows a step of a loop: the rest of the loop, unless the step has ended it. -/
def proceed (again : Run σ Flow) : Option Flow → Run σ Flow
  | none => again
  | some flow => pure flow

theorem repeatStep_succ (step : Run σ (Option Flow)) (fuel : Nat) :
    repeatStep step (fuel + 1) = step >>= proceed (repeatStep step fuel) := by
  funext state
  rw [Run.bind_apply, repeatStep]
  rcases step state with ⟨_ | _, _⟩ | _ | _ <;> rfl

theorem overRange_succ (step : Value → Run σ (Option Flow)) (range : RangeValue) (count k : Nat) :
    overRange step range (count + 1) k =
      step (.int (range.nth k)) >>= proceed (overRange step range count (k + 1)) := by
  funext state
  rw [Run.bind_apply, overRange]
  rcases step (.int (range.nth k)) state with ⟨_ | _, _⟩ | _ | _ <;> rfl

theorem overItems_cons (step : Value → Run σ (Option Flow)) (item : Value) (rest : List Value) :
    overItems step (item :: rest) = step item >>= proceed (overItems step rest) := by
  funext state
  rw [Run.bind_apply, overItems]
  rcases step item state with ⟨_ | _, _⟩ | _ | _ <;> rfl

theorem overList_succ (step : Value → Run (Frame τ) (Option Flow)) (address : Address)
    (fuel k : Nat) (frame : Frame τ) :
    overList step address (fuel + 1) k frame =
      match (frame.world.heap.items address)[k]? with
      | none => .ok .next frame
      | some item => (step item >>= proceed (overList step address fuel (k + 1))) frame := by
  rw [overList]
  cases (frame.world.heap.items address)[k]? with
  | none => rfl
  | some item =>
    dsimp only
    rw [Run.bind_apply]
    rcases step item frame with ⟨_ | _, _⟩ | _ | _ <;> rfl

/-- What follows a statement of a block: the rest of the block, unless the statement jumps. -/
def proceedBlock (rest : Run σ Flow) : Flow → Run σ Flow
  | .next => rest
  | flow => pure flow

theorem execBlock_cons (ctx : Context τ) (statement : Surface.Stmt) (rest : List Surface.Stmt) :
    execBlock ctx (statement :: rest) =
      exec ctx statement >>= proceedBlock (execBlock ctx rest) := by
  funext frame
  rw [Run.bind_apply, execBlock]
  dsimp only
  rcases exec ctx statement frame with ⟨_ | _ | _ | _, _⟩ | _ | _ <;> rfl

end Interp
end TwoTier
