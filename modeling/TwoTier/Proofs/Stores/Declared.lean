import TwoTier.Proofs.Forms.Eligible
import TwoTier.Proofs.Stores.Positions

namespace TwoTier.Passes

open Interp (Program)

open Typed (Body Stmt)

theorem storedArrays_eq_nil (formed : Typed.BlockFormed domain place body)
    (storeless : place.rule.storeless) : Stmt.storedArrays body = [] := by
  refine List.eq_nil_iff_forall_not_mem.2 fun array stored => ?_
  obtain ⟨index, value, member⟩ := Stmt.mem_storedArrays.1 stored
  obtain ⟨around, same, held⟩ := formed.nodes _ member
  rw [← same] at storeless
  exact held.1.2 storeless

section

variable {program : Program} {candidate : Candidate} {kinds : List Kind} {body : Body}

/-- Optimized code that can store into a parameter says that it mutates a container. -/
theorem purity_of_mem_storedParams (settings : Settings)
    (eligible : (Eligibility.analyze program candidate kinds).verdict = .eligible body)
    (listed : ∃ info, program.function? candidate.name = some info ∧ info.definition =
      candidate.definition) (placed : Eligibility.JumpsPlaced program)
    (member : position ∈ (optimize settings body).2.storedParams) :
    (optimize settings body).2.purity = .mutatesContainer := by
  by_contra other
  have formed := (Eligibility.bodyFormed_of_placed eligible listed placed).optimize
    Eligibility.copying_runRules settings
  have silent : StoresNothing (optimize settings body).2 := by
    intro routine among
    obtain ⟨index, inside, rfl⟩ := List.getElem_of_mem among
    have held := formed.routine index
    rw [Body.routine, List.getD_eq_getElem?_getD, List.getElem?_eq_getElem inside] at held
    exact storedArrays_eq_nil held.body fun stores => other (formed.effects stores)
  rw [Body.storedParams_eq_nil silent] at member
  cases member

end
end TwoTier.Passes
