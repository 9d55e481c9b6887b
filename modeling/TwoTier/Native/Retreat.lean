import TwoTier.Native.Invoke

/-! Calls that are known to be left whenever they are made. When code was left, the interpreter makes
again the calls that were under way, and each would be run only to be left as before. -/

namespace TwoTier.Native

open Typed (Body)

/-- A call without arrays, and the calls that are under way when it is left. -/
structure Retreat where
  limits : Limits
  call : OpenCall
  calls : List OpenCall

/-- Whether the call is left. Without arrays there is nothing that could differ another time. -/
def Retreat.Sure (retreat : Retreat) (body : Body) : Prop :=
  callRoutine body retreat.limits (frameCount retreat.limits retreat.call.depth)
    retreat.call.routine retreat.call.args ⟨#[], retreat.call.depth⟩ = .deopt retreat.calls

/-- Whether arguments are the same words; no others are compared. -/
def sameSlots : List Slot → List Slot → Bool
  | [], [] => true
  | .scalar (.int value) :: slots, .scalar (.int other) :: others =>
    value = other && sameSlots slots others
  | .scalar (.bool value) :: slots, .scalar (.bool other) :: others =>
    value = other && sameSlots slots others
  | _, _ => false

theorem eq_of_sameSlots {slots others : List Slot} (same : sameSlots slots others = true) :
    slots = others := by
  fun_induction sameSlots slots others <;> simp_all

def Retreat.covers (retreat : Retreat) (limits : Limits) (call : OpenCall) : Bool :=
  retreat.limits = limits && retreat.call.routine = call.routine &&
    retreat.call.depth = call.depth && sameSlots retreat.call.args call.args

/-- Calls, except that one which is known to be left is not run. -/
def anticipate (body : Body) (limits : Limits) (known : Option Retreat) (frames : Nat) : Callee :=
  fun routine args shared =>
    match known with
    | none => callRoutine body limits frames routine args shared
    | some retreat =>
      if shared.buffers = #[] ∧ frameCount limits shared.depth = frames ∧
          retreat.covers limits ⟨routine, args, shared.depth⟩ = true then .deopt retreat.calls
      else callRoutine body limits frames routine args shared

theorem anticipate_eq {body : Body} {known : Option Retreat} (limits : Limits) (frames : Nat)
    (sure : ∀ retreat ∈ known, retreat.Sure body) :
    anticipate body limits known frames = callRoutine body limits frames := by
  funext routine args ⟨buffers, depth⟩
  unfold anticipate
  split
  · rfl
  · rename_i retreat
    split
    · rename_i covered
      simp only [Retreat.covers, Bool.and_eq_true, decide_eq_true_eq] at covered
      obtain ⟨rfl, rfl, ⟨⟨rfl, rfl⟩, rfl⟩, same⟩ := covered
      cases eq_of_sameSlots same
      exact (sure retreat rfl).symm
    · rfl

/-- Runs the calls again that were under way, the innermost first. One frame is enough for each, as
the call inside it is known to be left by then. -/
def confirm? (body : Body) (limits : Limits) : List OpenCall → Option (List Retreat)
  | [] => some []
  | call :: rest => do
    let later ← confirm? body limits rest
    match frameCount limits call.depth with
    | 0 => none
    | frames + 1 =>
      if sameSlots call.args call.args then
        match within call (enter limits (body.routine call.routine)
            (anticipate body limits later.head? frames) call.args ⟨#[], call.depth⟩) with
        | .deopt calls => some (⟨limits, call, calls⟩ :: later)
        | _ => none
      else none

theorem sure_confirm? {body : Body} {limits : Limits} {calls : List OpenCall} :
    ∀ {found : List Retreat}, confirm? body limits calls = some found →
      ∀ retreat ∈ found, retreat.Sure body := by
  induction calls with
  | nil => simp [confirm?]
  | cons call rest ih =>
    intro found confirmed
    simp only [confirm?, Option.bind_eq_bind, Option.bind_eq_some_iff] at confirmed
    obtain ⟨later, earlier, confirmed⟩ := confirmed
    have sure := ih earlier
    split at confirmed
    · cases confirmed
    · rename_i frames count
      split at confirmed
      · split at confirmed
        · rename_i calls left
          cases confirmed
          rw [anticipate_eq limits frames fun other first =>
            sure other (List.mem_of_head? first)] at left
          refine List.forall_mem_cons.2 ⟨?_, sure⟩
          simpa only [Retreat.Sure, count, callRoutine] using left
        · cases confirmed
      · cases confirmed

/-- The calls of the root that are to be expected inside one that was left, outermost first. -/
def foresee (body : Body) (limits : Limits) (known : List Retreat) (calls : List OpenCall) :
    List Retreat :=
  if known.head?.any fun retreat => calls.head?.any (retreat.covers limits ·) then known.tail
  else (((confirm? body limits calls).getD []).filter (·.call.routine = 0)).tail

theorem sure_foresee {body : Body} {known : List Retreat} (limits : Limits)
    (calls : List OpenCall) (sure : ∀ retreat ∈ known, retreat.Sure body) :
    ∀ retreat ∈ foresee body limits known calls, retreat.Sure body := by
  intro retreat member
  unfold foresee at member
  split at member
  · exact sure retreat (List.mem_of_mem_tail member)
  · have found := (List.mem_filter.1 (List.mem_of_mem_tail member)).1
    cases confirmed : confirm? body limits calls with
    | none => simp [confirmed] at found
    | some all => exact sure_confirm? confirmed retreat (by simpa [confirmed] using found)

end TwoTier.Native
