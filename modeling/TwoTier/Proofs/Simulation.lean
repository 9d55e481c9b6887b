import TwoTier.Proofs.Likeness

namespace TwoTier.Native

open Typed (Expr)

/-- Wherever a step ends well from related states, so does the other one, with the same value. -/
structure Follows {σ τ α : Type} (before : σ → τ → Prop) (after : α → σ → τ → Prop)
    (step : Step σ α) (other : Step τ α) : Prop where
  run : ∀ {state twin value later}, before state twin → step state = .ok value later →
    ∃ twinLater, other twin = .ok value twinLater ∧ after value later twinLater

abbrev FollowsIn {σ τ α : Type} (related : σ → τ → Prop) (step : Step σ α) (other : Step τ α) :
    Prop :=
  Follows related (fun _ => related) step other

namespace Follows

variable {σ τ α β : Type} {before related : σ → τ → Prop} {after : α → σ → τ → Prop}
  {last : β → σ → τ → Prop}

theorem pure {value : α} (kept : ∀ {state twin}, before state twin → after value state twin) :
    Follows before after (Pure.pure value) (Pure.pure value) where
  run start ran := by
    obtain ⟨rfl, rfl⟩ := Step.pure_eq_ok.1 ran
    exact ⟨_, rfl, kept start⟩

variable {other : Step τ α} {step : Step σ α}

theorem bind {next : α → Step σ β} {otherNext : α → Step τ β}
    (first : Follows before after step other)
    (rest : ∀ value, Follows (after value) last (next value) (otherNext value)) :
    Follows before last (step >>= next) (other >>= otherNext) where
  run start ran := by
    obtain ⟨value, between, began, ended⟩ := Step.bind_eq_ok.1 ran
    obtain ⟨twin, otherBegan, middle⟩ := first.run start began
    obtain ⟨twinLater, otherEnded, finish⟩ := (rest value).run middle ended
    exact ⟨twinLater, (Step.bind_of_ok otherBegan).trans otherEnded, finish⟩

theorem weaken {former : σ → τ → Prop}
    {later : α → σ → τ → Prop} (follows : Follows before after step other)
    (starts : ∀ {state twin}, former state twin → before state twin)
    (ends : ∀ {value state twin}, after value state twin → later value state twin) :
    Follows former later step other where
  run start ran := by
    obtain ⟨twinLater, otherRan, finish⟩ := follows.run (starts start) ran
    exact ⟨twinLater, otherRan, ends finish⟩

theorem of_failing (fails : ∀ state value later, step state ≠ .ok value later) :
    Follows before after step other where
  run _ ran := (fails _ _ _ ran).elim

theorem ofOption :
    FollowsIn related (Step.ofOption option) (Step.ofOption option) where
  run start ran := by
    obtain ⟨rfl, rfl⟩ := Step.ofOption_eq_ok.1 ran
    exact ⟨_, rfl, start⟩

end Follows

theorem Follows.of_constant {related : Machine → Machine → Prop} {step : Step Machine α}
    (constant : step.Constant) : FollowsIn related step step := by
  cases constant with
  | pure value => exact .pure id
  | deopt | stuck => exact .of_failing nofun

/-- Wherever a step on what is shared ends well, so does the other one, in the same way. -/
abbrev Refines {σ α : Type} (step other : Step σ α) : Prop := FollowsIn (· = ·) step other

section Evaluation

variable {related : Machine → Machine → Prop} {call other : Callee}

def following (related : Machine → Machine → Prop) : Likeness where
  Alike := FollowsIn related
  constant := .of_constant
  sequence := .bind
  exhausted := .of_failing nofun

theorem following_grants (enough : fuel ≤ more) : (following related).Grants fuel more :=
  .inr ⟨enough, .of_failing nofun⟩

abbrev Access (related : Machine → Machine → Prop) (call other : Callee) (node : Expr) : Prop :=
  (following related).Access call other node

theorem Follows.eval (accesses : ∀ node ∈ expr.nodes, Access related call other node) :
    FollowsIn related (eval call expr) (eval other expr) :=
  Likeness.Alike.eval accesses

theorem Follows.evalInt (accesses : ∀ node ∈ expr.nodes, Access related call other node) :
    FollowsIn related (evalInt call expr) (evalInt other expr) :=
  .bind (.eval accesses) fun _ => .of_constant (constant_requireInt _)

end Evaluation

section Loops

variable {outer inner : Machine → Machine → Prop} {run other : Step Machine Flow} {fuel more : Nat}

theorem Follows.afterBody {again : Step Machine Flow}
    (exits : ∀ {machine twin}, inner machine twin → outer machine twin)
    (rest : Follows inner (fun _ => outer) again otherAgain) (flow : Flow) :
    Follows inner (fun _ => outer) (afterBody again flow) (afterBody otherAgain flow) := by
  cases flow with
  | next | skip => exact rest
  | leave | giveBack | exit => exact .pure exits

/-- A counted loop. The machines are related in one way at its test and in another in its body. -/
theorem Follows.countFrom {step : Int64}
    (exits : ∀ {machine twin}, inner machine twin → outer machine twin)
    (enters : ∀ i, Follows outer (fun _ => inner) (setCount head i) (setCount head i))
    (body : FollowsIn inner run other)
    (moves : ∀ i, Follows inner (fun _ => outer) (nextCount head step i) (nextCount head step i))
    (granted : fuel ≤ more) (i : Int64) :
    FollowsIn outer (countFrom head stop step run fuel i)
      (countFrom head stop step other more i) := by
  induction fuel generalizing i more with
  | zero => exact .of_failing fun _ _ _ ran => by simp [Native.countFrom, Step.exhausted] at ran
  | succ fuel ih =>
    obtain ⟨more, rfl⟩ := Nat.exists_eq_add_of_le' granted
    rw [countFrom_succ, ← Nat.add_assoc, countFrom_succ]
    split
    · refine .bind (enters i) fun _ => body.bind fun flow =>
        .afterBody exits ((moves i).bind fun next => ?_) flow
      cases next with
      | none => exact .pure id
      | some next => exact ih (by omega) next
    · exact .pure id

/-- A counted loop whose counter, once it is set, is one of the things that the machines agree on. -/
theorem Follows.countedLoop
    (writes : ∀ value, Follows outer (fun _ => inner) (Machine.write head.var value) (Machine.write
      head.var value))
    (reads : head.exitValue = true → FollowsIn inner (Machine.readInt head.var) (Machine.readInt
      head.var)) (exits : ∀ {machine twin}, inner machine twin → outer machine twin)
    (body : FollowsIn inner run other) (granted : fuel ≤ more) (start stop step : Int64) :
    FollowsIn outer (countedLoop head start stop step run fuel)
      (countedLoop head start stop step other more) := by
  unfold Native.countedLoop
  split
  · exact .of_constant .deopt
  · split
    · rename_i kept
      refine (writes _).bind fun _ => Follows.weaken
        (.countFrom id (fun i => ?_) body (fun i => ?_) granted start) id exits
      · rw [setCount, if_pos kept]
        exact .pure id
      · rw [nextCount, if_pos kept]
        refine (reads kept).bind fun i => ?_
        dsimp only
        split
        · exact .of_constant .deopt
        · exact ((writes _).weaken exits id).bind fun _ => .pure id
    · rename_i visited
      refine .countFrom exits (fun i => ?_) body (fun i => ?_) granted start
      · rw [setCount, if_neg visited]
        exact writes _
      · rw [nextCount, if_neg visited]
        exact .pure exits

end Loops
end TwoTier.Native
