import TwoTier.Proofs.Eligibility.Samples
import TwoTier.Proofs.Forms.Eligible
import TwoTier.Proofs.Lanes.Exits

namespace TwoTier

open Typed (BlockFormed Body Domain Label Routine Stmt)

namespace Typed

open Passes (Place)

variable {domain : Domain}

mutual

theorem Stmt.Formed.no_jumps {place : Place} {stmt : Stmt} (formed : stmt.Formed domain place)
    (unbroken : place.rule.unbroken) (inside : place.lowered = true) :
    ∀ node ∈ stmt.nodes, node.isBreak = false ∧ node.isReturn = false := by
  match stmt with
  | .branch _ _ _ =>
    have first := formed.2.1.no_jumps unbroken inside
    have second := formed.2.2.no_jumps unbroken inside
    refine List.forall_mem_cons.2 ⟨⟨rfl, rfl⟩, fun node member => ?_⟩
    exact (List.mem_append.1 member).elim (first node) (second node)
  | .whileLoop _ _ _ | .forLoop _ _ =>
    exact List.forall_mem_cons.2 ⟨⟨rfl, rfl⟩, formed.2.no_jumps unbroken inside⟩
  | .block label body =>
    have held : BlockFormed domain (place.inBlock label) body := formed
    exact List.forall_mem_cons.2 ⟨⟨rfl, rfl⟩, held.no_jumps unbroken inside⟩
  | .vector _ _ => exact List.forall_mem_cons.2 ⟨⟨rfl, rfl⟩, formed.2.2.no_jumps unbroken rfl⟩
  | .parallel _ _ => exact List.forall_mem_cons.2 ⟨⟨rfl, rfl⟩, formed.2.no_jumps unbroken rfl⟩
  | .leave => exact nomatch inside.symm.trans (formed.2 unbroken)
  | .giveBack _ => exact nomatch inside.symm.trans formed.2.1
  | .assign _ _ | .store _ _ _ | .eval _ | .skip | .exit _ =>
    exact List.forall_mem_singleton.2 ⟨rfl, rfl⟩

theorem BlockFormed.no_jumps : ∀ {place : Place} {body : List Stmt}, BlockFormed domain place body →
    place.rule.unbroken → place.lowered = true →
      ∀ node ∈ Stmt.blockNodes body, node.isBreak = false ∧ node.isReturn = false
  | _, [], _, _, _ => nofun
  | _, _ :: _, formed, unbroken, inside => fun node member =>
    (List.mem_append.1 member).elim (formed.1.no_jumps unbroken inside node)
      (formed.2.no_jumps unbroken inside node)

end

mutual

theorem Stmt.Formed.exitsWithin {place : Place} {stmt : Stmt} {labels : List Label}
    (formed : stmt.Formed domain place) (near : place.rule.nearExits)
    (known : ∀ label ∈ place.labels, label ∈ labels) : stmt.exitsWithin labels = true := by
  match stmt with
  | .branch _ _ _ =>
    simp only [Stmt.exitsWithin, Bool.and_eq_true]
    exact ⟨formed.2.1.exitsWithin near known, formed.2.2.exitsWithin near known⟩
  | .whileLoop _ _ _ | .forLoop _ _ => exact formed.2.exitsWithin near nofun
  | .block label body =>
    have held : BlockFormed domain (place.inBlock label) body := formed
    exact held.exitsWithin near fun _ member => (List.mem_cons.1 member).elim (· ▸ List.mem_cons_self)
      (.tail _ <| known _ ·)
  | .vector _ _ => exact formed.2.2.exitsWithin near nofun
  | .parallel _ chunk =>
    have inner : chunk.exitsWithin labels = true := formed.2.exitsWithin near nofun
    exact inner
  | .exit label => exact List.contains_iff_mem.2 (known label (formed near))
  | .assign _ _ | .store _ _ _ | .eval _ | .skip | .leave | .giveBack _ => exact rfl

theorem BlockFormed.exitsWithin {place : Place} {body : List Stmt} {labels : List Label}
    (formed : BlockFormed domain place body) (near : place.rule.nearExits)
    (known : ∀ label ∈ place.labels, label ∈ labels) :
    Stmt.blockExitsWithin labels body = true := by
  match body with
  | [] => exact rfl
  | _ :: _ =>
    simp only [Stmt.blockExitsWithin, Bool.and_eq_true]
    exact ⟨formed.1.exitsWithin near known, formed.2.exitsWithin near known⟩

end

/-- What a lowered loop of well-formed code repeats never leaves it. -/
theorem BlockFormed.singleExit {place : Place} {body inner : List Stmt} {node : Stmt}
    (formed : BlockFormed domain place body) (unbroken : place.rule.unbroken)
    (member : node ∈ Stmt.blockNodes body) (lowered : node.lowered? = some inner) :
    (∀ stmt ∈ Stmt.blockNodes inner, stmt.isBreak = false ∧ stmt.isReturn = false) ∧
      (place.rule.nearExits → Stmt.blockExitsWithin [] inner = true) := by
  obtain ⟨around, same, held⟩ := formed.nodes _ member
  rw [← same] at unbroken ⊢
  cases node with
  | vector head body =>
    cases lowered
    exact ⟨held.2.2.no_jumps unbroken rfl, fun near => held.2.2.exitsWithin near nofun⟩
  | parallel head chunk =>
    cases lowered
    have alone : BlockFormed domain around.kernel [chunk] := ⟨held.2, blockFormed_nil⟩
    exact ⟨alone.no_jumps unbroken rfl, fun near => alone.exitsWithin near nofun⟩
  | _ => cases lowered

end Typed

namespace Passes

section

variable {program : Interp.Program} {candidate : Candidate} {kinds : List Kind} {body : Body}

/-- In the optimized code of an eligible function, nothing that a lowered loop repeats is a break or
a return, and every exit in it leaves a block that is also in it, provided that no called routine
returns from inside a loop. -/
theorem lowered_singleExit (settings : Settings)
    (eligible : (Eligibility.analyze program candidate kinds).verdict = .eligible body)
    (listed : ∃ info, program.function? candidate.name = some info ∧
      info.definition = candidate.definition)
    {routine : Routine} (member : routine ∈ (optimize settings body).2.routines) {node : Stmt}
    (present : node ∈ Stmt.blockNodes routine.body) {inner : List Stmt}
    (lowered : node.lowered? = some inner) :
    (∀ stmt ∈ Stmt.blockNodes inner, stmt.isBreak = false ∧ stmt.isReturn = false) ∧
      (ReturnsOutsideLoops body → Stmt.blockExitsWithin [] inner = true) := by
  obtain ⟨index, inside, rfl⟩ := List.getElem_of_mem member
  have formed := ((Eligibility.bodyFormed_of_eligible eligible listed).optimize
    Eligibility.copying_entryRules settings).routine index
  rw [Body.routine, List.getD_eq_getElem?_getD, List.getElem?_eq_getElem inside] at formed
  exact formed.body.singleExit trivial present lowered

end

/-- A loop that calls a routine with an early return, which becomes an exit inside the loop. -/
def halveSource : String :=
  "def halve(a: list[int], i: int):\n    if a[i] < 0:\n        return\n" ++
  "    a[i] = a[i] // 2\n\n" ++
  "def f(a: list[int]):\n    # #adrenaline:simd\n    # #adrenaline:parallel\n" ++
  "    for i in range(len(a)):\n        halve(a, i)\n"

theorem lowered_singleExit_halve :
    ∃ sample, Eligibility.sample? halveSource "f" [.array .int] = some sample ∧
      ReturnsOutsideLoops sample.body ∧
      ∃ routine ∈ (optimize {} sample.body).2.routines, ∃ node ∈ Stmt.blockNodes routine.body,
        ∃ inner, node.lowered? = some inner ∧ (Stmt.blockNodes inner).any Stmt.isExit = true ∧
          (∀ stmt ∈ Stmt.blockNodes inner, stmt.isBreak = false ∧ stmt.isReturn = false) ∧
          Stmt.blockExitsWithin [] inner = true := by
  have evaluated : ((Eligibility.sample? halveSource "f" [.array .int]).any fun sample =>
      decide (ReturnsOutsideLoops sample.body) &&
        (optimize {} sample.body).2.routines.any fun routine =>
          (Stmt.blockNodes routine.body).any fun node =>
            node.lowered?.any fun inner => (Stmt.blockNodes inner).any Stmt.isExit) = true := by
    decide +kernel
  obtain ⟨sample, found, holds⟩ := (Option.any_eq_true _ _).1 evaluated
  obtain ⟨outside, lowers⟩ := Bool.and_eq_true_iff.1 holds
  obtain ⟨routine, member, lowers⟩ := List.any_eq_true.1 lowers
  obtain ⟨node, present, lowers⟩ := List.any_eq_true.1 lowers
  obtain ⟨inner, lowered, exits⟩ := (Option.any_eq_true _ _).1 lowers
  have outside := of_decide_eq_true outside
  obtain ⟨eligible, listed⟩ := Eligibility.eligible_of_sample? found
  have single := lowered_singleExit {} eligible listed member present lowered
  exact ⟨sample, found, outside, routine, member, node, present, inner, lowered, exits, single.1,
    single.2 outside⟩

/-- A scan that returns from its loop, called by a function whose loops run in lanes. -/
def scanSource : String :=
  "def find(a: list[int], x: int):\n    t = 0\n    for i in range(len(a)):\n" ++
  "        t += a[i]\n        if a[i] == x:\n            return 1\n    return t\n\n" ++
  "def f(a: list[int], x: int):\n    # #adrenaline:simd\n    return find(a, x)\n"

/-- The return of the scan becomes an exit that leaves the loop in lanes. -/
theorem lowered_exits_scan :
    ∃ sample, Eligibility.sample? scanSource "f" [.array .int, .scalar .int] = some sample ∧
      ∃ routine ∈ (optimize {} sample.body).2.routines, ∃ node ∈ Stmt.blockNodes routine.body,
        ∃ inner, node.lowered? = some inner ∧ Stmt.blockExitsWithin [] inner = false := by
  have evaluated :
      ((Eligibility.sample? scanSource "f" [.array .int, .scalar .int]).any fun sample =>
        (optimize {} sample.body).2.routines.any fun routine =>
          (Stmt.blockNodes routine.body).any fun node =>
            node.lowered?.any fun inner => !Stmt.blockExitsWithin [] inner) = true := by
    decide +kernel
  obtain ⟨sample, found, lowers⟩ := (Option.any_eq_true _ _).1 evaluated
  obtain ⟨routine, member, lowers⟩ := List.any_eq_true.1 lowers
  obtain ⟨node, present, lowers⟩ := List.any_eq_true.1 lowers
  obtain ⟨inner, lowered, exits⟩ := (Option.any_eq_true _ _).1 lowers
  exact ⟨sample, found, routine, member, node, present, inner, lowered,
    by simpa using exits⟩

end Passes
end TwoTier
