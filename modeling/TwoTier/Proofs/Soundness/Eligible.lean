import TwoTier.Proofs.Eligibility.Samples
import TwoTier.Proofs.Forms.Eligible
import TwoTier.Proofs.Soundness.Calls

namespace TwoTier.Native

open Eligibility (analyze)
open Interp (Program)
open Typed (Body Routine RoutineIndex)

/-- The code of an eligible function is sound: locals and callees are declared, operands have the
types of their operators, calls fit the routines that they enter, arrays are parameters, returns fit
the routine, jumps stand in loops, and on every path a local is assigned before it is read. A call
with arguments of the kinds of the parameters does the same on a machine where no local can be read
before it is assigned; it is not stuck, it gives a result of the type of the routine and keeps the
types of all buffers, and the end of its code is reached only if it returns nothing. -/
theorem sound_of_eligible {source : String} {module : Surface.Module} {candidate : Candidate}
    {kinds : List Kind} {body : Body} (read : Surface.readModule source = .ok module)
    (eligible : (analyze (Program.ofModule module) candidate kinds).verdict = .eligible body)
    (listed : ∃ info, (Program.ofModule module).function? candidate.name = some info ∧
      info.definition = candidate.definition) {index : RoutineIndex} {routine : Routine}
    (present : body.routines[index]? = some routine) :
    routine.Sound body.listed? True ∧
      ∀ (limits : Limits) (frames : Nat) (args : List Slot) (shared : Shared),
        List.Forall₂ (Slot.Fits shared.contents) args routine.argKinds →
          callFrom strictSlots body limits frames index args shared =
              callRoutine body limits frames index args shared ∧
            callRoutine body limits frames index args shared ≠ .stuck ∧
            (∀ result later, callRoutine body limits frames index args shared = .ok result later →
              result.type = routine.result.register ∧ later.contents = shared.contents) ∧
            ∀ machine, runBody entrySlots limits routine (callRoutine body limits frames) args
              shared = .ok .next machine → routine.result = .nothing := by
  have placed : Eligibility.JumpsPlaced (Program.ofModule module) = True :=
    eq_true (Eligibility.jumpsPlaced_of_readModule read)
  have sound {routine : Routine} (member : routine ∈ body.routines) :
      routine.Sound body.listed? True := by
    obtain ⟨_, _, _, _, _, rfl, sound⟩ := Eligibility.written_of_eligible eligible listed member
    exact placed ▸ sound.folded
  have own := sound (List.mem_of_getElem? present)
  refine ⟨own, fun limits frames args shared fits => ?_⟩
  have known : body.listed? index = some routine.profile := by
    rw [Body.listed?, present, Option.map_some]
  have each : ∀ {callee profile}, body.listed? callee = some profile →
      (body.routine callee).profile = profile ∧ (body.routine callee).Sound body.listed? True := by
    intro callee profile known
    obtain ⟨other, found, same⟩ := Option.map_eq_some_iff.1 known
    rw [Body.routine, List.getD_eq_getElem?_getD, found]
    exact ⟨same, sound (List.mem_of_getElem? found)⟩
  have agree := agree_callFrom limits each frames known fits rfl
  rw [callFrom_entrySlots] at agree
  refine ⟨agree.eq fun held => held.2.1, agree.ne_stuck, fun result later ran => ?_, ?_⟩
  · obtain ⟨_, typed, _, kept⟩ := (ran ▸ agree).of_ok
    exact ⟨typed, kept⟩
  · intro machine ran
    obtain ⟨gained, silent, ended⟩ :=
      agree_runBody own limits (agree_callFrom limits each frames) fits rfl
    rw [callFrom_entrySlots, ran] at ended
    obtain ⟨_, now, reached, _⟩ := ended.of_ok
    exact silent now reached

/-- A sum over an array that leaves out what is below zero; a local is assigned in two branches. -/
def positivesSource : String :=
  "def clamp(x: int) -> int:\n    if x < 0:\n        y = 0\n    else:\n        y = x\n" ++
  "    return y\n\ndef f(a: list[int]) -> int:\n    total = 0\n    for x in a:\n" ++
  "        total += clamp(x)\n    return total\n"

/-- The sum over two elements, where locals are read only after they are assigned. -/
theorem sound_of_eligible_positives :
    ∃ sample, Eligibility.sample? positivesSource "f" [.array .int] = some sample ∧
      callFrom strictSlots sample.body ⟨9, 1024, 8, 9⟩ 9 0 [.array (some 0)]
          ⟨#[#[.int 3, .int (-4)]], 0⟩ =
        callRoutine sample.body ⟨9, 1024, 8, 9⟩ 9 0 [.array (some 0)]
          ⟨#[#[.int 3, .int (-4)]], 0⟩ ∧
      callRoutine sample.body ⟨9, 1024, 8, 9⟩ 9 0 [.array (some 0)]
        ⟨#[#[.int 3, .int (-4)]], 0⟩ ≠ .stuck := by
  have evaluated : ((Eligibility.sample? positivesSource "f" [.array .int]).any fun sample =>
      decide (sample.body.routines[0]?.map Routine.argKinds = some [.array .int])) = true := by
    decide +kernel
  obtain ⟨sample, found, first⟩ := (Option.any_eq_true _ _).1 evaluated
  obtain ⟨routine, present, kinds⟩ := Option.map_eq_some_iff.1 (of_decide_eq_true first)
  obtain ⟨module, read, same⟩ := Eligibility.read_of_sample? found
  obtain ⟨eligible, listed⟩ := Eligibility.eligible_of_sample? found
  rw [same] at eligible listed
  have fits : List.Forall₂ (Slot.Fits (Shared.contents ⟨#[#[.int 3, .int (-4)]], 0⟩))
      [.array (some 0)] routine.argKinds := by
    rw [kinds]
    refine .cons (fun position type held => ?_) .nil
    obtain ⟨value, element, rfl⟩ := Option.map_eq_some_iff.1 held
    match position with
    | 0 | 1 =>
      cases element
      rfl
  obtain ⟨alike, fitting, _⟩ := (sound_of_eligible read eligible listed present).2
    ⟨9, 1024, 8, 9⟩ 9 [.array (some 0)] ⟨#[#[.int 3, .int (-4)]], 0⟩ fits
  exact ⟨sample, found, alike, fitting⟩

end TwoTier.Native
