import TwoTier.Native.Invoke
import TwoTier.Proofs.Simulation

namespace TwoTier.Native

open Typed (Body Expr ParallelHead Routine Stmt)

namespace Follows

variable {σ α : Type}

theorem refl {step : Step σ α} : Refines step step where
  run same ran := ⟨_, same ▸ ran, rfl⟩

theorem apply {step other : Step σ α} (refines : Refines step other) {later : σ} {value : α}
    (ran : step state = .ok value later) : other state = .ok value later := by
  obtain ⟨_, again, rfl⟩ := refines.run rfl ran
  exact again

theorem of_apply {step other : Step σ α}
    (applies : ∀ {state value later}, step state = .ok value later → other state = .ok value later) :
    Refines step other where
  run same ran := ⟨_, same ▸ applies ran, rfl⟩

theorem mapM {γ : Type} {step other : γ → Step σ α}
    (each : ∀ item, Refines (step item) (other item)) (items : List γ) :
    Refines (items.mapM step) (items.mapM other) := by
  induction items with
  | nil => exact refl
  | cons item rest ih =>
    rw [List.mapM_cons, List.mapM_cons]
    exact (each item).bind fun _ => ih.bind fun _ => refl

end Follows

section Chunks

variable {run other : Step Machine Flow}

theorem refines_runChunk (routine : Routine) (head : ParallelHead) (kernel : Refines run other)
    (outer : Array Slot) (lo hi : Int64) :
    Refines (runChunk routine head run outer lo hi) (runChunk routine head other outer lo hi) := by
  refine .of_apply fun {shared result later} ran => ?_
  unfold runChunk at ran ⊢
  dsimp only at ran ⊢
  split at ran
  · rename_i machine ended
    rw [kernel.apply ended]
    exact ran
  all_goals cases ran

theorem refines_onShared {step better : Step Shared α} (refines : Refines step better) :
    Refines (Machine.onShared step) (Machine.onShared better) := by
  refine .of_apply fun ran => ?_
  obtain ⟨shared, began, rfl⟩ := Machine.onShared_eq_ok.1 ran
  exact Machine.onShared_eq_ok.2 ⟨shared, refines.apply began, rfl⟩

theorem refines_parallelLoop (routine : Routine) (head : ParallelHead)
    {inPlace otherInPlace : Step Machine Flow} (whole : Refines inPlace otherInPlace)
    (kernel : Refines run other) (start stop least target : Int64) :
    Refines (parallelLoop routine head inPlace run start stop least target)
      (parallelLoop routine head otherInPlace other start stop least target) := by
  unfold parallelLoop
  split
  · exact .bind .refl fun _ => .bind .refl fun _ => whole
  · have each (outer : Array Slot) (chunks : List (Int64 × Int64)) : Refines
        (runChunks routine head run outer chunks) (runChunks routine head other outer chunks) := by
      refine Follows.mapM (fun ends => ?_) _
      exact refines_runChunk routine head kernel outer ends.1 ends.2
    exact Follows.bind Follows.refl fun outer => .bind .refl fun chunks =>
      .bind (refines_onShared (each outer chunks)) fun _ => .refl

end Chunks

theorem refines_atNode {other : Context}
    (calls : ∀ callee args, Refines (ctx.call callee args) (other.call callee args)) (node : Stmt) :
    (following (· = ·)).AtNode ctx other node := by
  have evals (expr : Expr) : Refines (eval ctx.call expr) (eval other.call expr) := by
    refine .eval fun node _ => ?_
    cases node with
    | var | len => exact Follows.refl
    | index array element position => exact fun inner => .index inner Follows.refl fun _ => Follows.refl
    | call callee result args =>
      exact ⟨fun _ _ => Follows.refl, fun passed => passed.bind fun _ => refines_onShared (calls _ _)⟩
    | _ => trivial
  have ints (expr : Expr) : Refines (evalInt ctx.call expr) (evalInt other.call expr) :=
    (evals expr).bind fun _ => .refl
  refine ⟨fun _ expr _ => evals expr, fun {id value} _ => .of_apply fun ran => ?_, fun {_ index value} _ => ?_,
    fun _ => ⟨fun _ => Follows.refl, fun _ => Follows.refl⟩, fun _ => ⟨?_, fun _ _ _ => Follows.refl⟩,
    fun _ _ _ _ _ => refines_parallelLoop _ _⟩
  · unfold assign at ran ⊢
    split at ran
    · exact ((evals value).bind fun _ => .refl).apply ran
    · exact (Follows.refl.bind fun _ => (ints value).bind fun _ => .refl).apply ran
  · exact (evals value).bind fun _ => (ints index).bind fun _ => .refl
  · exact ⟨⟨fun _ => Follows.refl, fun _ _ => Follows.refl⟩, fun _ => Follows.refl,
      fun _ _ => Follows.refl, fun _ => Follows.refl, fun _ => Follows.refl, fun _ => Follows.refl⟩

section Calls

/-- How a body run leaves its routine is settled by how it ends and by what it shares. -/
theorem leaveRoutine_eq_ok {outcome : Outcome Machine Flow} {result : Scalar} :
    leaveRoutine routine depth outcome = .ok result shared ↔
      ∃ flow machine, outcome = .ok flow machine ∧ shared = { machine.shared with depth } ∧
        (flow = .giveBack result ∨ flow = .next ∧ result = emptyResult routine.result) := by
  constructor
  · intro left
    unfold leaveRoutine at left
    split at left
    · cases left
      exact ⟨_, _, rfl, rfl, .inl rfl⟩
    · cases left
      exact ⟨_, _, rfl, rfl, .inr ⟨rfl, rfl⟩⟩
    all_goals cases left
  · rintro ⟨flow, machine, rfl, rfl, rfl | ⟨rfl, rfl⟩⟩ <;> rfl

theorem enter_eq_ok {args : List Slot} {later : Shared} {result : Scalar} :
    enter limits routine call args shared = .ok result later ↔
      ¬ shared.depth + 1 > limits.maxDepth ∧ leaveRoutine routine shared.depth
        (execBlock ⟨routine, call, limits.fuel, limits.leastChunk, limits.targetChunks⟩ routine.body
          ⟨entrySlots routine args, [], { shared with depth := shared.depth + 1 }⟩) =
        .ok result later := by
  unfold enter
  dsimp only
  split
  · rename_i deep
    exact ⟨nofun, fun both => absurd deep both.1⟩
  · rename_i shallow
    exact ⟨fun ran => ⟨shallow, ran⟩, fun both => both.2⟩

theorem within_eq_ok {call : OpenCall} {outcome : Outcome σ α} {value : α} {later : σ} :
    within call outcome = .ok value later ↔ outcome = .ok value later := by
  cases outcome <;> simp [within]

/-- If each routine of two bodies does the same as long as its callees do, then so do calls. -/
theorem refines_callRoutine {body other : Body}
    (each : ∀ {index call better}, (∀ callee args, Refines (call callee args) (better callee args))
      → ∀ args, Refines (enter limits (body.routine index) call args) (enter larger (other.routine
      index) better args)) (frames : Nat) :
    ∀ index args, Refines (callRoutine body limits frames index args)
      (callRoutine other larger frames index args) := by
  induction frames with
  | zero => exact fun _ _ => .of_failing nofun
  | succ frames ih =>
    refine fun index args => .of_apply fun ran => ?_
    exact within_eq_ok.2 ((each ih args).apply (within_eq_ok.1 ran))

theorem refines_enter (depth : larger.maxDepth = limits.maxDepth)
    (least : larger.leastChunk = limits.leastChunk)
    (target : larger.targetChunks = limits.targetChunks) (granted : limits.fuel ≤ larger.fuel)
    (calls : ∀ callee args, Refines (call callee args) (better callee args)) (routine : Routine)
    (args : List Slot) :
    Refines (enter limits routine call args) (enter larger routine better args) := by
  refine .of_apply fun ran => ?_
  obtain ⟨shallow, left⟩ := enter_eq_ok.1 ran
  obtain ⟨flow, machine, ended, same, flows⟩ := leaveRoutine_eq_ok.1 left
  have fellow : Context.Fellow (following (· = ·))
      ⟨routine, call, limits.fuel, limits.leastChunk, limits.targetChunks⟩
      ⟨routine, better, larger.fuel, larger.leastChunk, larger.targetChunks⟩ :=
    ⟨rfl, least, target, following_grants granted⟩
  have follows : Refines
      (execBlock ⟨routine, call, limits.fuel, limits.leastChunk, limits.targetChunks⟩ routine.body)
      (execBlock ⟨routine, better, larger.fuel, larger.leastChunk, larger.targetChunks⟩
        routine.body) :=
    Likeness.Alike.execBlock fellow fun node _ => refines_atNode calls node
  exact enter_eq_ok.2 ⟨depth ▸ shallow, leaveRoutine_eq_ok.2
    ⟨flow, machine, follows.apply ended, same, flows⟩⟩

end Calls

end TwoTier.Native
