import TwoTier.Proofs.Lanes.Acceptance
import TwoTier.Proofs.Lanes.Exits

namespace TwoTier.Native

open Passes (splitObstacle?)
open Typed (LocalId Stmt)

def Footprint.outside (written : List LocalId) : Footprint Machine where
  rel before after := after.slots.size = before.slots.size ∧
    ∀ id, id ∉ written → after.slots[id]? = before.slots[id]?
  refl _ := ⟨rfl, fun _ _ => rfl⟩
  trans first second :=
    ⟨second.1.trans first.1, fun id apart => (second.2 id apart).trans (first.2 id apart)⟩

section Frame

variable {written : List LocalId} {ctx : Context}

theorem outside_of_locals {step : Step Machine α} (keeps : Footprint.locals.Keeps step) :
    (Footprint.outside written).Keeps step where
  after ran := by
    obtain ⟨slots, -⟩ := keeps.after ran
    exact ⟨by rw [slots], fun id _ => by rw [slots]⟩

theorem outside_write {id : LocalId} (member : id ∈ written) (value : Scalar) :
    (Footprint.outside written).Keeps (Machine.write id value) where
  after ran := by
    obtain ⟨_, rfl⟩ := Machine.write_eq_ok.1 ran
    refine ⟨by simp, fun other apart => Array.getElem?_setIfInBounds_ne ?_⟩
    rintro rfl
    exact apart member

theorem outside_store (id : LocalId) (position : Nat) (value : Scalar) :
    (Footprint.outside written).Keeps (Machine.store id position value) where
  after ran := by
    unfold Machine.store at ran
    split at ran
    · cases ran
      exact ⟨rfl, fun _ _ => rfl⟩
    · cases ran

theorem outside_assign {id : LocalId} (member : id ∈ written) (value : Typed.Expr) :
    (Footprint.outside written).Keeps (assign ctx id value) :=
  keeps_assign (outside_of_locals (Footprint.locals_eval _ _)) (outside_write member)
    fun _ _ => ⟨rfl, fun _ _ => rfl⟩

end Frame

section Code

variable {footprint : Footprint Machine} {ctx : Context}

/-- Statements of a loop that may be split keep what evaluations, stores and assignments keep. -/
theorem keptBy_of_unobstructed (evals : ∀ expr, footprint.Keeps (eval ctx.call expr))
    (stores : ∀ array position value, footprint.Keeps (Machine.store array position value))
    (unobstructed : splitObstacle? node = none)
    (assigns : ∀ {id value}, node = .assign id value → footprint.Keeps (assign ctx id value))
    (counts : ∀ {head body}, node = .forLoop head body → ∀ value, footprint.Keeps (Machine.write
      head.var value)) : KeptBy footprint ctx node where
  evals expr _ := evals expr
  assign := assigns
  store _ := stores _
  counter := counts
  groups := by
    rintro head body rfl
    cases unobstructed
  chunks := by
    rintro head chunk rfl
    cases unobstructed

theorem outside_execBlock {body : List Stmt}
    (unobstructed : ∀ node ∈ Stmt.blockNodes body, splitObstacle? node = none) :
    (Footprint.outside (Stmt.writtenLocals body)).Keeps (execBlock ctx body) := by
  refine keeps_execBlock fun node member => keptBy_of_unobstructed
    (fun expr => outside_of_locals (Footprint.locals_eval _ _)) outside_store
    (unobstructed node member) ?_ ?_
  · rintro id value rfl
    exact outside_assign (List.mem_flatMap.2 ⟨_, member, by simp [Stmt.ownWrites]⟩) value
  · rintro head inner rfl value
    exact outside_write (List.mem_flatMap.2 ⟨_, member, by simp [Stmt.ownWrites]⟩) value

end Code

/-- The blocks that exits of a statement leave. -/
def exitLabel? : Stmt → Option Typed.Label
  | .exit label => some label
  | _ => none

section Exits

mutual

theorem exitsWithin_of_listed {labels : List Typed.Label} (stmt : Stmt)
    (listed : ∀ node ∈ stmt.nodes, ∀ label ∈ exitLabel? node, label ∈ labels) :
    stmt.exitsWithin labels = true := by
  match stmt with
  | .branch cond yes no =>
    simp only [Stmt.exitsWithin, Bool.and_eq_true]
    exact ⟨blockExitsWithin_of_listed yes fun _ member => listed _ (by simp [Stmt.nodes, member]),
      blockExitsWithin_of_listed no fun _ member => listed _ (by simp [Stmt.nodes, member])⟩
  | .whileLoop _ body _ | .forLoop _ body | .vector _ body =>
    exact blockExitsWithin_of_listed body fun _ member => listed _ (by simp [Stmt.nodes, member])
  | .block label body =>
    exact blockExitsWithin_of_listed body fun node member other inside =>
      List.mem_cons_of_mem _ (listed node (by simp [Stmt.nodes, member]) other inside)
  | .parallel _ chunk =>
    exact exitsWithin_of_listed chunk fun _ member => listed _ (by simp [Stmt.nodes, member])
  | .exit label =>
    have inside := listed _ (Stmt.self_mem_nodes _) label rfl
    simpa [Stmt.exitsWithin] using inside
  | .assign _ _ | .store _ _ _ | .eval _ | .leave | .skip | .giveBack _ => rfl

theorem blockExitsWithin_of_listed {labels : List Typed.Label} (body : List Stmt)
    (listed : ∀ node ∈ Stmt.blockNodes body, ∀ label ∈ exitLabel? node, label ∈ labels) :
    Stmt.blockExitsWithin labels body = true := by
  match body with
  | [] => rfl
  | stmt :: rest =>
    simp only [Stmt.blockExitsWithin, Bool.and_eq_true]
    exact ⟨exitsWithin_of_listed stmt fun _ member => listed _ (by simp [Stmt.blockNodes, member]),
      blockExitsWithin_of_listed rest fun node member =>
        listed node (by simp [Stmt.blockNodes, member])⟩

end

theorem stays_of_unobstructed
    (unobstructed : ∀ node ∈ Stmt.blockNodes body, splitObstacle? node = none) :
    ∃ labels, Yields (Stays labels) (execBlock ctx body) := by
  refine ⟨(Stmt.blockNodes body).filterMap exitLabel?, yields_execBlock body unobstructed ?_⟩
  exact blockExitsWithin_of_listed body fun node member label inside =>
    List.mem_filterMap.2 ⟨node, member, inside⟩

end Exits
end TwoTier.Native
