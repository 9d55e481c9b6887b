import TwoTier.Native.Stmt
import TwoTier.Passes.Dependence
import TwoTier.Proofs.Loop
import TwoTier.Proofs.Nodes

namespace TwoTier

open Typed (Label Stmt)

namespace Typed.Stmt

mutual

/-- Whether each exit in a statement leaves one of these blocks or a block of the statement. -/
def exitsWithin (labels : List Label) (stmt : Stmt) : Bool :=
  match stmt with
  | .exit label => labels.contains label
  | .block label body => blockExitsWithin (label :: labels) body
  | .branch _ yes no => blockExitsWithin labels yes && blockExitsWithin labels no
  | .whileLoop _ body _ => blockExitsWithin labels body
  | .forLoop _ body => blockExitsWithin labels body
  | .vector _ body => blockExitsWithin labels body
  | .parallel _ chunk => exitsWithin labels chunk
  | _ => true

def blockExitsWithin (labels : List Label) (body : List Stmt) : Bool :=
  match body with
  | [] => true
  | stmt :: rest => exitsWithin labels stmt && blockExitsWithin labels rest

end

end Typed.Stmt

namespace Native

/-- The code goes on after a statement that ends so, or leaves one of these blocks. -/
inductive Stays (labels : List Label) : Flow → Prop where
  | next : Stays labels .next
  | skip : Stays labels .skip
  | exit {label : Label} (inside : label ∈ labels) : Stays labels (.exit label)

/-- Every value with which a step ends well has the property. -/
structure Yields {σ α : Type} (holds : α → Prop) (step : Step σ α) : Prop where
  value : ∀ {state result after}, step state = .ok result after → holds result

namespace Yields

variable {σ α β : Type} {holds : β → Prop}

theorem pure {value : β} (kept : holds value) : Yields holds (Pure.pure value : Step σ β) where
  value ran := by
    obtain ⟨rfl, _⟩ := Step.pure_eq_ok.1 ran
    exact kept

theorem bind {first : α → Prop} {step : Step σ α} {next : α → Step σ β} (start : Yields first step)
    (rest : ∀ value, first value → Yields holds (next value)) : Yields holds (step >>= next) where
  value ran := by
    obtain ⟨middle, _, begun, finish⟩ := Step.bind_eq_ok.1 ran
    exact (rest middle (start.value begun)).value finish

theorem after (step : Step σ α) {next : α → Step σ β} (rest : ∀ value, Yields holds (next value)) :
    Yields holds (step >>= next) where
  value ran := by
    obtain ⟨middle, _, _, finish⟩ := Step.bind_eq_ok.1 ran
    exact (rest middle).value finish

end Yields

variable {labels : List Label}

theorem yields_afterBody {again : Step Machine Flow} (rest : Yields (Stays labels) again)
    (stays : Stays labels flow) : Yields (Stays labels) (afterBody again flow) := by
  cases stays with
  | next | skip => exact rest
  | exit inside => exact .pure (.exit inside)

theorem yields_countFrom {step : Int64} {body : Step Machine Flow}
    (stays : Yields (Stays labels) body) (fuel : Nat) (i : Int64) :
    Yields (Stays labels) (countFrom head stop step body fuel i) := by
  induction fuel generalizing i with
  | zero => exact ⟨fun ran => by simp [countFrom, Step.exhausted] at ran⟩
  | succ fuel ih =>
    rw [countFrom_succ]
    split
    · refine .after _ fun _ => stays.bind fun flow kept => yields_afterBody (.after _ ?_) kept
      intro next
      cases next with
      | none => exact .pure .next
      | some next => exact ih next
    · exact .pure .next

mutual

/-- A statement that may be split goes on, or leaves one of the blocks around it. -/
theorem yields_exec {ctx : Context} {labels : List Label} (stmt : Stmt)
    (unobstructed : ∀ node ∈ stmt.nodes, Passes.splitObstacle? node = none)
    (within : stmt.exitsWithin labels = true) : Yields (Stays labels) (exec ctx stmt) := by
  have here := unobstructed stmt stmt.self_mem_nodes
  match stmt with
  | .assign _ _ => exact .after _ fun _ => .pure .next
  | .store _ _ _ =>
    exact .after _ fun _ => .after _ fun _ => .after _ fun _ => .after _ fun _ => .after _ fun _ =>
      .pure .next
  | .eval _ => exact .after _ fun _ => .pure .next
  | .branch cond yes no =>
    simp only [Stmt.exitsWithin, Bool.and_eq_true] at within
    have first : Yields (Stays labels) (execBlock ctx yes) := yields_execBlock yes
      (fun _ member => unobstructed _ (by simp [Stmt.nodes, member])) within.1
    have second : Yields (Stays labels) (execBlock ctx no) := yields_execBlock no
      (fun _ member => unobstructed _ (by simp [Stmt.nodes, member])) within.2
    refine .after _ fun _ => .after _ fun holds => ?_
    split
    · exact first
    · exact second
  | .forLoop head body =>
    have inner : Yields (Stays labels) (execBlock ctx body) := yields_execBlock body
      (fun _ member => unobstructed _ (.tail _ member))
      (by simpa [Stmt.exitsWithin] using within)
    refine .after _ fun _ => .after _ fun _ => .after _ fun _ => ?_
    unfold countedLoop
    split
    · exact ⟨fun ran => by simp at ran⟩
    · split
      · exact .after _ fun _ => yields_countFrom inner _ _
      · exact yields_countFrom inner _ _
  | .skip => exact .pure .skip
  | .block label body =>
    have inner : Yields (Stays (label :: labels)) (execBlock ctx body) := yields_execBlock body
      (fun _ member => unobstructed _ (.tail _ member))
      (by simpa [Stmt.exitsWithin] using within)
    refine inner.bind fun flow stays => ?_
    cases stays with
    | next => exact .pure .next
    | skip => exact .pure .skip
    | exit inside =>
      refine .pure ?_
      split
      · exact .next
      · rename_i other
        exact .exit ((List.mem_cons.1 inside).resolve_left other)
  | .exit label => exact .pure (.exit (by simpa [Stmt.exitsWithin] using within))
theorem yields_execBlock {ctx : Context} {labels : List Label} (body : List Stmt)
    (unobstructed : ∀ node ∈ Stmt.blockNodes body, Passes.splitObstacle? node = none)
    (within : Stmt.blockExitsWithin labels body = true) :
    Yields (Stays labels) (execBlock ctx body) := by
  match body with
  | [] =>
    exact .pure .next
  | stmt :: rest =>
    simp only [Stmt.blockExitsWithin, Bool.and_eq_true] at within
    have first : Yields (Stays labels) (exec ctx stmt) := yields_exec stmt
      (fun _ member => unobstructed _ (by simp [Stmt.blockNodes, member])) within.1
    have second : Yields (Stays labels) (execBlock ctx rest) := yields_execBlock rest
      (fun _ member => unobstructed _ (by simp [Stmt.blockNodes, member])) within.2
    refine first.bind fun flow stays => ?_
    cases stays with
    | next => exact second
    | skip => exact .pure .skip
    | exit inside => exact .pure (.exit inside)

end

end Native
end TwoTier
