import TwoTier.Proofs.Hoisting.Alignment
import TwoTier.Proofs.Soundness.Calls
import TwoTier.Proofs.Stores.Reach

namespace TwoTier

open Typed (Body LocalId Profile Routine RoutineIndex)

theorem Scalar.type_zero (type : NumType) : (Scalar.zero type).type = type := by
  cases type <;> rfl

namespace Native

section Entry

variable {profile? : RoutineIndex → Option Profile} {routine : Routine} {contents : Contents}
  {args : List Slot}

theorem Slot.fits_emptySlot (kind : Kind) : (emptySlot kind).Fits contents kind := by
  cases kind with
  | scalar type => exact Scalar.type_zero type
  | array => trivial

theorem fits_entry
    (params : List.Forall₂ (routine.domain profile?).Declares routine.params routine.argKinds)
    (fits : List.Forall₂ (Slot.Fits contents) args routine.argKinds)
    (typed : shared.contents = contents) :
    Machine.Fits (routine.domain profile?) contents ⟨entrySlots routine args, [], shared⟩ := by
  have size : (entrySlots routine args).size = routine.locals.length := by
    simp [entrySlots_eq_fillSlots, emptySlots]
  refine ⟨rfl, typed, ⟨rfl, rfl⟩, ⟨size, size⟩, fun {id kind} _ declared => ?_⟩
  have found := Array.getElem?_eq_getElem (size ▸ declared.lt : id < (entrySlots routine args).size)
  refine ⟨_, ?_, found, found⟩
  obtain empty | ⟨⟨param, arg⟩, member, rfl, same⟩ :=
    slot_of_foldl Prod.fst Prod.snd (routine.params.zip args) found
  · rw [emptySlots, List.getElem?_toArray, List.getElem?_map, Option.map_eq_some_iff] at empty
    obtain ⟨decl, own, same⟩ := empty
    rw [← same, declared.eq ⟨decl, own, rfl⟩]
    exact Slot.fits_emptySlot _
  · obtain ⟨position, inside, pair⟩ := List.mem_iff_getElem.1 member
    rw [List.getElem_zip] at pair
    cases pair
    rw [List.length_zip, Nat.lt_min] at inside
    have kind := params.get inside.1 (params.length_eq ▸ inside.1)
    rw [← same, ← kind.eq declared]
    exact fits.get inside.2 (fits.length_eq ▸ inside.2)

theorem AgreeBelow.fill (pairs : List (LocalId × Slot)) : ∀ {machine twin : Machine},
    AgreeBelow count machine twin →
      AgreeBelow count { machine with slots := fillSlots machine.slots pairs }
        { twin with slots := fillSlots twin.slots pairs } := by
  induction pairs with
  | nil => exact id
  | cons pair rest ih => exact fun agree => ih (agree.write pair.1 pair.2)

theorem agreeBelow_entry (gains : routine.Gains changed) (shared : Shared) :
    AgreeBelow routine.locals.length ⟨entrySlots routine args, [], shared⟩
      ⟨entrySlots changed args, [], shared⟩ := by
  rw [entrySlots_eq_fillSlots, entrySlots_eq_fillSlots, gains.params]
  obtain ⟨temps, same⟩ := gains.locals
  have empty : AgreeBelow routine.locals.length ⟨emptySlots routine, [], shared⟩
      ⟨emptySlots changed, [], shared⟩ := by
    refine ⟨rfl, ⟨rfl, rfl⟩, ?_, fun id inside => ?_⟩
    · simp [emptySlots, ← same]
    · simp [emptySlots, ← same, List.getElem?_append_left, inside]
  exact empty.fill _

theorem type_emptyResult (result : ReturnKind) : (emptyResult result).type = result.register := by
  cases result with
  | scalar type => exact Scalar.type_zero type
  | array | nothing => rfl

theorem agree_left (same : changed.result = routine.result) (depth : UInt32)
    {first second : Outcome Machine Flow}
    (agree : Outcome.Agree True (fun flow machine twin => (∀ result, flow = .giveBack result →
      result.type = routine.result.register) ∧ machine.shared = twin.shared ∧ twin.shared.contents =
      contents) first second) :
    Outcome.Agree True (Returns contents routine.result) (leaveRoutine routine depth first)
      (leaveRoutine changed depth second) := by
  cases agree with
  | deopt => exact .deopt _
  | stuck => exact .stuck trivial
  | exhausted => exact .exhausted
  | @ok flow _ _ ended =>
    obtain ⟨gives, shared, typed⟩ := ended
    cases flow with
    | next =>
      rw [leaveRoutine, leaveRoutine, same, shared]
      exact .ok ⟨type_emptyResult _, rfl, typed⟩
    | giveBack result =>
      rw [leaveRoutine, shared]
      exact .ok ⟨gives result rfl, rfl, typed⟩
    | leave | skip | exit => exact .stuck trivial

end Entry

section Calls

variable {profile? : RoutineIndex → Option Profile} {rule : Passes.Rule} {routine changed : Routine}
  {contents : Contents} {call other : Callee}

theorem CallsAgree.twin (calls : CallsAgree True domain contents call other) :
    CallsAgree True domain contents other other := fun known fits typed => by
  refine ((calls known fits typed).symm.trans (calls known fits typed)).weaken ?_
  rintro _ _ _ ⟨_, one, two⟩
  exact ⟨two.1, one.2.1.symm.trans two.2.1, two.2.2⟩

/-- A routine can take the place of another: it is entered and ends with the same, as far as their
callees do. -/
structure Supplants (profile? : RoutineIndex → Option Profile) (routine changed : Routine) :
    Prop where
  gains : routine.Gains changed
  params : List.Forall₂ (changed.domain profile?).Declares changed.params changed.argKinds
  runs : ∀ {contents : Contents} {call other : Callee} {machine twin : Machine} (limits : Limits),
    CallsAgree True (routine.domain profile?) contents call other →
    machine.Fits (routine.domain profile?) contents →
    twin.Fits (changed.domain profile?) contents →
    AgreeBelow routine.locals.length machine twin →
      Outcome.Agree True (fun flow later next =>
          (∀ result, flow = .giveBack result → result.type = routine.result.register) ∧
            AgreeBelow routine.locals.length later next ∧ next.shared.contents = contents)
        (execBlock ⟨routine, call, limits.fuel, limits.leastChunk, limits.targetChunks⟩
          routine.body machine)
        (execBlock ⟨changed, other, limits.fuel, limits.leastChunk, limits.targetChunks⟩
          changed.body twin)

theorem agree_runs (formed : routine.Formed profile? rule) (flat : rule.unlowered) (limits : Limits)
    (calls : CallsAgree True (routine.domain profile?) contents call other)
    (fits : machine.Fits (routine.domain profile?) contents) :
    Outcome.Agree True (fun flow later next =>
        (∀ result, flow = .giveBack result → result.type = routine.result.register) ∧
          Paired (routine.domain profile?) contents (everyLocal (routine.domain profile?)) later next)
      (execBlock ⟨routine, call, limits.fuel, limits.leastChunk, limits.targetChunks⟩
        routine.body machine)
      (execBlock ⟨routine, other, limits.fuel, limits.leastChunk, limits.targetChunks⟩
        routine.body machine) := by
  let twins : Twins := ⟨True, routine.domain profile?, contents,
    ⟨routine, call, limits.fuel, limits.leastChunk, limits.targetChunks⟩,
    ⟨routine, other, limits.fuel, limits.leastChunk, limits.targetChunks⟩,
    ⟨⟨rfl, rfl⟩, ⟨rfl, rfl⟩, rfl, calls⟩⟩
  have runs : twins.RunsAll True True _ _ _ :=
    runsAll_of_formed trivial flat reads_everyLocal formed.body
  refine (runs.run fits).weaken fun {flow later next} ended => ⟨?_, ended.paired⟩
  rintro result rfl
  exact ended.1

theorem Paired.agreeBelow (paired : Paired domain contents (everyLocal domain) machine twin) :
    AgreeBelow domain.locals.length machine twin where
  shared := paired.shared.symm
  untracked := paired.untracked
  room := ⟨paired.room.1.ge, paired.room.2.ge⟩
  slots id inside := by
    have declared : domain.Declares id domain.locals[id].kind :=
      ⟨_, List.getElem?_eq_getElem inside, rfl⟩
    obtain ⟨_, -, one, two⟩ := paired.held (Declares.mem_everyLocal declared) declared
    rw [one, two]

theorem AgreeBelow.eq (agree : AgreeBelow domain.locals.length machine twin)
    (fits : machine.Fits domain contents) (also : twin.Fits domain contents) : machine = twin := by
  have slots : machine.slots = twin.slots := by
    refine Array.ext (fits.room.1.trans also.room.1.symm) fun id inside beyond => ?_
    have same := agree.slots id (fits.room.1 ▸ inside)
    rw [Array.getElem?_eq_getElem inside, Array.getElem?_eq_getElem beyond] at same
    exact (Option.some.inj same).symm
  cases machine
  cases slots
  cases agree.shared
  cases agree.untracked.1.trans agree.untracked.2.symm
  rfl

theorem Supplants.refl (formed : routine.Formed profile? rule) (flat : rule.unlowered) :
    Supplants profile? routine routine where
  gains := .refl
  params := formed.params
  runs limits calls fits also agree := by
    cases agree.eq fits also
    refine (agree_runs formed flat limits calls fits).weaken fun held => ?_
    exact ⟨held.1, held.2.agreeBelow, held.2.typed⟩

def CallsMatch (body : Body) (contents : Contents) (call other : Callee) : Prop :=
  ∀ {callee args shared}, List.Forall₂ (Slot.Fits contents) args (body.routine callee).argKinds →
    shared.contents = contents →
      Outcome.Agree True (Returns contents (body.routine callee).result) (call callee args shared)
        (other callee args shared)

theorem CallsMatch.agree {body : Body} (known : ∀ {callee profile}, profile? callee = some profile →
      (body.routine callee).profile = profile)
    (calls : CallsMatch body contents call other) :
    CallsAgree True (routine.domain profile?) contents call other := by
  intro callee profile args shared found fits typed
  cases known found
  exact calls fits typed

theorem agree_supplanted {body after : Body} (limits : Limits)
    (known : ∀ {callee profile}, profile? callee = some profile →
      (body.routine callee).profile = profile)
    (supplants : ∀ index, Supplants profile? (body.routine index) (after.routine index))
    (params : ∀ index, List.Forall₂ ((body.routine index).domain profile?).Declares
      (body.routine index).params (body.routine index).argKinds) (frames : Nat) :
    CallsMatch body contents (callRoutine body limits frames)
      (callRoutine after limits frames) := by
  induction frames with
  | zero => exact fun _ _ => .exhausted
  | succ frames ih =>
    intro callee args shared fits typed
    refine Outcome.Agree.within ?_ _
    unfold enter
    dsimp only
    split
    · exact .deopt []
    · have gains := (supplants callee).gains
      have deeper : ({ shared with depth := shared.depth + 1 } : Shared).contents = contents := typed
      refine agree_left gains.result _ (((supplants callee).runs limits (ih.agree known)
        (fits_entry (params callee) fits deeper)
        (fits_entry (supplants callee).params (gains.argKinds ▸ fits) deeper)
        (agreeBelow_entry gains _)).weaken fun ended => ?_)
      exact ⟨ended.1, ended.2.1.shared.symm, ended.2.2⟩

end Calls

end Native
end TwoTier
