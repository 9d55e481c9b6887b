import TwoTier.Eligibility.Analysis
import TwoTier.Interp.Session

namespace TwoTier.Eligibility

open Interp (Program)

variable {source name : String} {kinds : List Kind} {sample : Sample}

structure Sample where
  program : Program
  candidate : Candidate
  body : Typed.Body

/-- The code of a function of a program text for arguments of given kinds. -/
def sample? (source name : String) (kinds : List Kind) : Option Sample :=
  match Interp.Image.load source 0 .empty "" with
  | .error _ => none
  | .ok image =>
    (image.program.function? name).bind fun info =>
      match (analyze image.program (.ofDefinition info.definition) kinds).verdict with
      | .eligible body =>
        if info.definition.name.name = name then
          some ⟨image.program, .ofDefinition info.definition, body⟩
        else none
      | .rejected _ => none

section

variable (found : sample? source name kinds = some sample)

include found

theorem eligible_of_sample? :
    (analyze sample.program sample.candidate kinds).verdict = .eligible sample.body ∧
      ∃ info, sample.program.function? sample.candidate.name = some info ∧
        info.definition = sample.candidate.definition := by
  unfold sample? at found
  split at found
  · cases found
  · obtain ⟨info, listed, typed⟩ := Option.bind_eq_some_iff.1 found
    split at typed
    · rename_i body eligible
      split at typed
      · rename_i named
        cases typed
        exact ⟨eligible, info, by rw [Candidate.name, Candidate.ofDefinition, named, listed], rfl⟩
      · cases typed
    · cases typed

theorem load_of_sample? :
    ∃ image, Interp.Image.load source 0 .empty "" = .ok image ∧ sample.program = image.program := by
  unfold sample? at found
  split at found
  · cases found
  · rename_i image loaded
    obtain ⟨info, listed, typed⟩ := Option.bind_eq_some_iff.1 found
    split at typed
    · split at typed
      · cases typed
        exact ⟨image, loaded, rfl⟩
      · cases typed
    · cases typed

theorem read_of_sample? :
    ∃ module, Surface.readModule source = .ok module ∧ sample.program = .ofModule module := by
  obtain ⟨image, loaded, program⟩ := load_of_sample? found
  unfold Interp.Image.load at loaded
  split at loaded
  · cases loaded
  · rename_i module read
    dsimp only at loaded
    split at loaded
    · cases loaded
      exact ⟨module, read, program⟩
    · cases loaded
    · cases loaded

end

end TwoTier.Eligibility
