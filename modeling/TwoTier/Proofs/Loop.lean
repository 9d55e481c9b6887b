import TwoTier.Proofs.Step
import TwoTier.Native.Vector

namespace TwoTier.Native

open Typed (ForHead LocalId)

/-- What follows an iteration of a loop, given how its body has ended. -/
def afterBody (again : Step Machine Flow) : Flow → Step Machine Flow
  | .next | .skip => again
  | .leave => pure .next
  | .giveBack result => pure (.giveBack result)
  | .exit label => pure (.exit label)

def setCount (head : ForHead) (i : Int64) : Step Machine Unit :=
  if head.exitValue then pure () else Machine.write head.var (.int i)

theorem countFrom_succ (head : ForHead) (stop step : Int64) (body : Step Machine Flow) (fuel : Nat)
    (i : Int64) :
    countFrom head stop step body (fuel + 1) i =
      if boundHolds head.bound step i stop then
        setCount head i >>= fun _ => body >>= afterBody (nextCount head step i >>= fun next =>
          match next with
          | some next => countFrom head stop step body fuel next
          | none => pure .next)
      else pure .next := by
  funext machine
  rw [countFrom]
  cases boundHolds head.bound step i stop with
  | false => rfl
  | true =>
    have entered : (if head.exitValue = true then Outcome.ok () machine
        else Machine.write head.var (.int i) machine) = setCount head i machine := by
      unfold setCount
      split <;> rfl
    simp only [↓reduceIte, Step.bind_apply, entered, Step.bind]
    cases setCount head i machine with
    | ok done machine =>
      dsimp only
      cases body machine with
      | ok flow machine =>
        cases flow with
        | next | skip =>
          simp only [afterBody, Step.bind_apply, Step.bind]
          cases nextCount head step i machine with
          | ok next machine => cases next <;> rfl
          | deopt | stuck | exhausted => rfl
        | leave | giveBack | exit => rfl
      | deopt | stuck | exhausted => rfl
    | deopt | stuck | exhausted => rfl

/-- A counted loop has the values of the bounds in its head, and does not look at them again. -/
theorem countedLoop_with (head : ForHead) (x y z : Typed.Expr) (start stop step : Int64)
    (body : Step Machine Flow) (fuel : Nat) :
    countedLoop { head with start := x, stop := y, step := z } start stop step body fuel =
      countedLoop head start stop step body fuel := by
  have counts (i : Int64) : countFrom { head with start := x, stop := y, step := z } stop step body
      fuel i = countFrom head stop step body fuel i := by
    induction fuel generalizing i with
    | zero => rfl
    | succ fuel ih =>
      rw [countFrom_succ, countFrom_succ]
      simp only [ih]
      rfl
  unfold countedLoop
  simp only [counts]

theorem unitFrom_succ (var : LocalId) (stop : Int64) (body : Step Machine Flow) (fuel : Nat)
    (i : Int64) :
    unitFrom var stop body (fuel + 1) i =
      if i < stop then
        Machine.write var (.int i) >>= fun _ =>
          body >>= afterBody (unitFrom var stop body fuel (i + 1))
      else pure .next := by
  funext machine
  rw [unitFrom]
  by_cases below : i < stop
  · simp only [below, ↓reduceIte, Step.bind_apply, Step.bind]
    cases Machine.write var (.int i) machine with
    | ok done machine =>
      dsimp only
      cases body machine with
      | ok flow machine => cases flow <;> rfl
      | deopt | stuck | exhausted => rfl
    | deopt | stuck | exhausted => rfl
  · simp only [below]
    rfl

theorem whileLoop_succ (cond : Step Machine Bool) (body : Step Machine Flow) (fuel : Nat) :
    whileLoop cond body (fuel + 1) = (cond >>= fun holds =>
      if holds then body >>= afterBody (whileLoop cond body fuel) else pure .next) := by
  funext machine
  simp only [whileLoop, Step.bind_apply, Step.bind]
  cases cond machine with
  | ok holds machine =>
    cases holds with
    | false => rfl
    | true =>
      simp only [↓reduceIte, Step.bind_apply, Step.bind]
      cases body machine with
      | ok flow machine => cases flow <;> rfl
      | deopt | stuck | exhausted => rfl
  | deopt | stuck | exhausted => rfl

def afterGroup (again : Partials → Step Machine GroupsEnd) : Flow × Partials → Step Machine GroupsEnd
  | (.next, partials) | (.skip, partials) => again partials
  | (.leave, _) => pure (.left .leave)
  | (.giveBack result, _) => pure (.left (.giveBack result))
  | (.exit label, _) => pure (.left (.exit label))

theorem groupsFrom_succ (group : Int64 → Partials → Step Machine (Flow × Partials))
    (width stop : Int64) (fuel : Nat) (i : Int64) (partials : Partials) :
    groupsFrom group width stop (fuel + 1) i partials =
      if i < stop ∧ stop - i ≥ width then
        group i partials >>= afterGroup (groupsFrom group width stop fuel (i + width))
      else pure (.done i partials) := by
  funext machine
  rw [groupsFrom]
  split
  · simp only [Step.bind_apply, Step.bind]
    cases group i partials machine with
    | ok ended machine =>
      obtain ⟨flow, partials⟩ := ended
      cases flow <;> rfl
    | deopt | stuck | exhausted => rfl
  · rfl

end TwoTier.Native
