import TwoTier.Native.Invoke
import TwoTier.Proofs.Soundness.Execution

namespace TwoTier.Native

open Typed (Body LocalId Profile Routine RoutineIndex)

section Entry

def fillSlots (slots : Array Slot) (pairs : List (LocalId × Slot)) : Array Slot :=
  pairs.foldl (fun slots (param, arg) => slots.setIfInBounds param arg) slots

/-- The locals of a routine entered with these arguments. No other can be read before it is
assigned. -/
def strictSlots (routine : Routine) (args : List Slot) : Array Slot :=
  fillSlots (Array.replicate routine.locals.length (.array none)) (routine.params.zip args)

theorem entrySlots_eq_fillSlots (routine : Routine) (args : List Slot) :
    entrySlots routine args = fillSlots (emptySlots routine) (routine.params.zip args) := rfl

variable {slots : Array Slot} {pairs : List (LocalId × Slot)} {id : LocalId}

@[simp] theorem size_fillSlots : (fillSlots slots pairs).size = slots.size := by
  unfold fillSlots
  induction pairs generalizing slots with
  | nil => rfl
  | cons pair rest ih => rw [List.foldl_cons, ih, Array.size_setIfInBounds]

theorem getElem?_fillSlots_of_not_mem (others : id ∉ pairs.map Prod.fst) :
    (fillSlots slots pairs)[id]? = slots[id]? := by
  unfold fillSlots
  induction pairs generalizing slots with
  | nil => rfl
  | cons pair rest ih =>
    rw [List.map_cons, List.mem_cons, not_or] at others
    rw [List.foldl_cons, ih others.2, Array.getElem?_setIfInBounds_ne (Ne.symm others.1)]

theorem getElem?_fillSlots (distinct : (pairs.map Prod.fst).Nodup) (member : (id, slot) ∈ pairs)
    (inside : id < slots.size) : (fillSlots slots pairs)[id]? = some slot := by
  induction pairs generalizing slots with
  | nil => cases member
  | cons pair rest ih =>
    have step : fillSlots slots (pair :: rest) =
        fillSlots (slots.setIfInBounds pair.1 pair.2) rest := rfl
    rw [List.map_cons, List.nodup_cons] at distinct
    rw [step]
    obtain _ | ⟨_, later⟩ := member
    · rw [getElem?_fillSlots_of_not_mem distinct.1, Array.getElem?_setIfInBounds_self_of_lt inside]
    · exact ih distinct.2 later (by simpa using inside)

end Entry

section Calls

abbrev Entry := Routine → List Slot → Array Slot

def runBody (entry : Entry) (limits : Limits) (routine : Routine) (call : Callee)
    (args : List Slot) (shared : Shared) : Outcome Machine Flow :=
  execBlock ⟨routine, call, limits.fuel, limits.leastChunk, limits.targetChunks⟩ routine.body
    ⟨entry routine args, [], { shared with depth := shared.depth + 1 }⟩

/-- Calls a routine of a body, where routines are entered in a certain way. -/
def callFrom (entry : Entry) (body : Body) (limits : Limits) : Nat → Callee
  | 0, _, _ => Step.exhausted
  | frames + 1, index, args => fun shared =>
    within ⟨index, args, shared.depth⟩
      (if shared.depth + 1 > limits.maxDepth then .deopt []
      else leaveRoutine (body.routine index) shared.depth
        (runBody entry limits (body.routine index) (callFrom entry body limits frames) args shared))

theorem callFrom_entrySlots (body : Body) (limits : Limits) (frames : Nat) :
    callFrom entrySlots body limits frames = callRoutine body limits frames := by
  induction frames with
  | zero => rfl
  | succ frames ih =>
    funext index args shared
    rw [callFrom, ih]
    rfl

variable {profile? : RoutineIndex → Option Profile} {routine : Routine} {contents : Contents}
  {args : List Slot}

theorem holds_param (sound : routine.Sound profile? True)
    (fits : List.Forall₂ (Slot.Fits contents) args routine.argKinds) {id : LocalId}
    (member : id ∈ routine.params) (declared : (routine.domain profile?).Declares id kind) :
    ∃ slot, slot.Fits contents kind ∧ ∀ {slots : Array Slot},
      slots.size = routine.locals.length →
        (fillSlots slots (routine.params.zip args))[id]? = some slot := by
  obtain ⟨position, inside, rfl⟩ := List.getElem_of_mem member
  have params := sound.params.length_eq
  have lengths := fits.length_eq
  have within : position < args.length := by omega
  have fit := fits.get within (lengths ▸ within)
  have same := (sound.params.get inside (params ▸ inside)).eq declared
  refine ⟨args[position], ?_, fun size => ?_⟩
  · rw [← same]
    exact fit
  · apply getElem?_fillSlots
    · rw [List.map_fst_zip (by omega)]
      exact sound.distinct
    · exact List.mem_iff_getElem.2 ⟨position, by simp; omega, by simp⟩
    · exact size ▸ declared.lt

theorem paired_entry (sound : routine.Sound profile? True)
    (fits : List.Forall₂ (Slot.Fits contents) args routine.argKinds)
    (typed : shared.contents = contents) :
    Paired (routine.domain profile?) contents routine.params
      ⟨strictSlots routine args, [], shared⟩ ⟨entrySlots routine args, [], shared⟩ where
  shared := rfl
  typed := typed
  untracked := ⟨rfl, rfl⟩
  room := by
    constructor
    · simp [strictSlots, Routine.domain]
    · simp [entrySlots_eq_fillSlots, emptySlots, Routine.domain]
  held member declared := by
    obtain ⟨slot, fit, filled⟩ := holds_param sound fits member declared
    refine ⟨slot, fit, filled (by simp), ?_⟩
    exact filled (by simp [emptySlots])

theorem agree_runBody (sound : routine.Sound profile? True) (limits : Limits) {other : Callee}
    (calls : CallsAgree False (routine.domain profile?) contents call other)
    (fits : List.Forall₂ (Slot.Fits contents) args routine.argKinds)
    (typed : shared.contents = contents) :
    ∃ gained, (∀ now, gained = some now → routine.result = .nothing) ∧
      Outcome.Agree False (Ends False (routine.domain profile?) contents False False routine.params
          gained)
        (runBody strictSlots limits routine call args shared)
        (runBody entrySlots limits routine other args shared) := by
  obtain ⟨gained, body, silent⟩ := sound.body
  have entered (input : LocalId × Kind) (member : input ∈ routine.inputs) :
      input.1 ∈ routine.params := (List.of_mem_zip member).1
  let twins : Twins := ⟨False, routine.domain profile?, contents,
    ⟨routine, call, limits.fuel, limits.leastChunk, limits.targetChunks⟩,
    ⟨routine, other, limits.fuel, limits.leastChunk, limits.targetChunks⟩,
    ⟨⟨rfl, rfl⟩, ⟨rfl, rfl⟩, rfl, calls⟩⟩
  have alike : twins.RunsAll (¬True) True _ _ _ := runsAll_of_sound entered body
  have deeper : ({ shared with depth := shared.depth + 1 } : Shared).contents = contents := typed
  have ran := alike.run (paired_entry sound fits deeper)
  refine ⟨gained, silent, ran.weaken fun {flow _ _} ended => ?_⟩
  cases flow with
  | skip => exact absurd trivial ended.1
  | leave => exact absurd trivial ended.1.1
  | next | giveBack | exit => exact ended

/-- A result of the type that the routine has, with the buffers of the types that they had. -/
def Returns (contents : Contents) (result : ReturnKind) (value : Scalar)
    (first second : Shared) : Prop :=
  value.type = result.register ∧ first = second ∧ second.contents = contents

theorem agree_leaveRoutine {bare full : Outcome Machine Flow}
    (silent : ∀ now, gained = some now → routine.result = .nothing)
    (same : domain.result = routine.result) (depth : UInt32)
    (agree : Outcome.Agree False (Ends False domain contents False False known gained) bare full) :
    Outcome.Agree False (Returns contents routine.result) (leaveRoutine routine depth bare)
      (leaveRoutine routine depth full) := by
  cases agree with
  | deopt => exact .deopt _
  | stuck may => exact may.elim
  | exhausted => exact .exhausted
  | @ok flow _ _ ended =>
    cases flow with
    | next =>
      obtain ⟨now, reached, paired⟩ := ended
      refine .ok ⟨?_, ?_, paired.typed⟩
      · rw [silent now reached]
        rfl
      · rw [paired.shared]
    | giveBack result =>
      obtain ⟨typed, paired⟩ := ended
      refine .ok ⟨same ▸ typed, ?_, paired.typed⟩
      rw [paired.shared]
    | leave => exact ended.1.1.elim
    | skip => exact ended.1.elim
    | exit => exact ended.1.elim

theorem Outcome.Agree.within {related : α → σ → τ → Prop} {first : Outcome σ α}
    {second : Outcome τ α} (agree : Agree loose related first second) (call : OpenCall) :
    Agree loose related (within call first) (within call second) := by
  cases agree with
  | ok held => exact .ok held
  | stuck may => exact .stuck may
  | deopt => exact .deopt _
  | exhausted => exact .exhausted

/-- Calls of sound routines agree, by induction on the calls that may be nested. -/
theorem agree_callFrom {body : Body} (limits : Limits)
    (sound : ∀ {callee profile}, profile? callee = some profile →
      (body.routine callee).profile = profile ∧ (body.routine callee).Sound profile? True) (frames : Nat) :
    ∀ {callee profile args shared}, profile? callee = some profile →
      List.Forall₂ (Slot.Fits contents) args profile.kinds → shared.contents = contents →
        Outcome.Agree False (Returns contents profile.result)
          (callFrom strictSlots body limits frames callee args shared)
          (callFrom entrySlots body limits frames callee args shared) := by
  induction frames with
  | zero => exact fun _ _ _ => .exhausted
  | succ frames ih =>
    intro callee profile args shared known fits typed
    obtain ⟨rfl, sound⟩ := sound known
    refine Outcome.Agree.within ?_ _
    split
    · exact .deopt []
    · obtain ⟨gained, silent, agree⟩ := agree_runBody sound limits ih fits typed
      exact agree_leaveRoutine silent rfl shared.depth agree

end Calls

end TwoTier.Native
