import TwoTier.Native.Invoke
import TwoTier.Proofs.Comparison
import TwoTier.Proofs.Forms.Pipeline

namespace TwoTier.Native

open Typed (ArgOf BlockFormed Body CastOp Comparison Domain Expr Extremum ForHead LocalId Routine
  RoutineIndex Stmt UnaryOp VectorHead)

section Operations

variable {σ : Type} {x y z : Scalar}

theorem arith_of_foldArith? {op : ArithOp} (folds : Typed.foldArith? op x y = some z) :
    (arith op x y : Step σ Scalar) = pure z := by
  cases x with
  | int x =>
    cases y with
    | int y =>
      obtain ⟨value, found, rfl⟩ := Option.map_eq_some_iff.1 folds
      have computed : (intArith op x y : Step σ Int64) = pure value := by
        cases op <;> simp only [intArith, checkedAdd_eq, checkedSub_eq, checkedMul_eq,
          floorQuotient_eq, floorRemainder_eq, checkedShl_eq, checkedShr_eq] at found ⊢ <;>
          first
          | rw [found]; rfl
          | cases found <;> rfl
      rw [arith, computed]
      rfl
    | float | bool => cases folds
  | float x =>
    cases y with
    | float y =>
      obtain ⟨value, found, rfl⟩ := Option.map_eq_some_iff.1 folds
      have computed : (floatArith op x y : Step σ Float) = pure value := by
        cases op <;> simp only [floatArith] at found ⊢ <;>
          first
          | rw [found]; rfl
          | cases found <;> rfl
      rw [arith, computed]
      rfl
    | int | bool => cases folds
  | bool => cases y <;> cases folds

theorem unary_of_foldUnary? {op : UnaryOp} (folds : Typed.foldUnary? op x = some z) :
    (unary op x : Step σ Scalar) = pure z := by
  cases op <;> cases x <;> simp only [unary] at folds ⊢
  case neg.int x =>
    obtain ⟨value, found, rfl⟩ := Option.map_eq_some_iff.1 folds
    rw [checkedNeg_eq, found]
    rfl
  all_goals cases folds
  all_goals rfl

theorem compare_of_foldCompare? {op : Comparison} (folds : Typed.foldCompare? op x y = some z) :
    (compare op x y : Step σ Scalar) = pure z := by
  cases x <;> cases y <;> cases folds
  case int.int x y => rw [compare, intHolds_eq]
  case float.float x y => rw [compare, floatHolds_eq]
  case bool.bool x y => rw [compare, boolHolds_eq]

theorem cast_of_foldCast? {op : CastOp} (folds : Typed.foldCast? op x = some z) :
    (cast op x : Step σ Scalar) = pure z := by
  cases op <;> cases x <;> simp only [Typed.foldCast?, cast, fitsExactly_eq] at folds ⊢
  case intToFloatExact.int x =>
    split at folds
    · rename_i exact
      cases folds
      rw [if_pos exact]
    · cases folds
  case floatToInt.float x =>
    obtain ⟨value, found, rfl⟩ := Option.map_eq_some_iff.1 folds
    rw [found]
    rfl
  all_goals cases folds
  all_goals rfl

theorem absolute_of_foldAbs? (folds : Typed.foldAbs? x = some z) :
    (absolute x : Step σ Scalar) = pure z := by
  cases x with
  | int x =>
    obtain ⟨value, found, rfl⟩ := Option.map_eq_some_iff.1 folds
    rw [absolute, checkedAbs_eq, found]
    rfl
  | float x =>
    cases folds
    rfl
  | bool => cases folds

theorem extremum_of_foldExtremum? {op : Extremum} (folds : Typed.foldExtremum? op x y = some z) :
    (extremum op x y : Step σ Scalar) = pure z := by
  cases op <;> cases x <;> cases y <;> cases folds <;> rfl

end Operations

variable {call : Callee}

theorem eval_of_foldNode? (folds : expr.foldNode? = some folded) :
    eval call folded = eval call expr := by
  unfold Expr.foldNode? at folds
  split at folds
  · obtain ⟨value, found, rfl⟩ := Option.map_eq_some_iff.1 folds
    simp [eval, unary_of_foldUnary? found]
  · obtain ⟨value, found, rfl⟩ := Option.map_eq_some_iff.1 folds
    simp [eval, arith_of_foldArith? found]
  · obtain ⟨value, found, rfl⟩ := Option.map_eq_some_iff.1 folds
    simp [eval, compare_of_foldCompare? found]
  · obtain ⟨value, found, rfl⟩ := Option.map_eq_some_iff.1 folds
    simp [eval, cast_of_foldCast? found]
  · obtain ⟨value, found, rfl⟩ := Option.map_eq_some_iff.1 folds
    simp [eval, absolute_of_foldAbs? found]
  · obtain ⟨value, found, rfl⟩ := Option.map_eq_some_iff.1 folds
    simp [eval, extremum_of_foldExtremum? found]
  · cases folds
    simp only [eval, pure_bind]
    split <;> rfl
  · cases folds
    simp only [eval, pure_bind, requireBool]
    split <;> rfl
  · cases folds

theorem eval_foldNode (count : Nat) (expr : Expr) :
    eval call (expr.foldNode count).2 = eval call expr := by
  unfold Expr.foldNode
  split
  · exact eval_of_foldNode? ‹_›
  · rfl

mutual

theorem eval_folded (expr : Expr) : eval call expr.folded.2 = eval call expr := by
  match expr with
  | .const _ | .var _ _ | .len _ => rfl
  | .unary _ operand | .cast _ operand | .abs operand =>
    simp only [Expr.folded, eval_foldNode, eval, eval_folded operand]
  | .index _ _ position => simp only [Expr.folded, eval, eval_folded position]
  | .binary _ left right | .compare _ left right | .logic _ left right | .extremum _ left right =>
    simp only [Expr.folded, eval_foldNode, eval, eval_folded left, eval_folded right]
  | .select cond yes no =>
    simp only [Expr.folded, eval_foldNode, eval, eval_folded cond, eval_folded yes,
      eval_folded no]
  | .call _ _ args => simp only [Expr.folded, eval, evalArgs_folded args]

theorem evalArgs_folded (args : List (ArgOf Expr)) :
    evalArgs call (Expr.foldedArgs args).2 = evalArgs call args := by
  match args with
  | [] => rfl
  | .scalar value :: rest =>
    simp only [Expr.foldedArgs, evalArgs, eval_folded value, evalArgs_folded rest]
  | .array _ :: rest =>
    simp only [Expr.foldedArgs, evalArgs, evalArgs_folded rest]
    rfl

end

theorem evalInt_folded (expr : Expr) : evalInt call expr.folded.2 = evalInt call expr := by
  rw [evalInt, eval_folded, evalInt]

theorem assign_folded (ctx : Context) (id : LocalId) (value : Expr) :
    assign ctx id value.folded.2 = assign ctx id value := by
  funext machine
  simp only [assign, eval_folded, evalInt_folded]

section Packed

theorem literals_of_foldNode? {expr folded : Expr} (packs : expr.Packs)
    (done : expr.foldNode? = some folded) :
    (∃ op x y, expr = .binary op (.const x) (.const y)) ∨ ∃ x, expr = .unary .neg (.const x) := by
  cases expr with
  | binary op left right =>
    cases left with
    | const x =>
      cases right with
      | const y => exact .inl ⟨op, x, y, rfl⟩
      | _ => cases done
    | _ => cases done
  | unary op operand =>
    cases operand with
    | const x =>
      cases op with
      | neg => exact .inr ⟨x, rfl⟩
      | invert | not => cases packs
    | _ => cases done
  | const | var | index => cases done
  | compare | logic | select | cast | len | call | abs | extremum => cases packs

/-- Folding a node of packed arithmetic, where both lanes hold the same literals. -/
theorem packedEval_foldNode {expr : Expr} (packs : expr.Packs) (count : Nat) (i : Int64) :
    packedEval i (expr.foldNode count).2 = packedEval i expr := by
  unfold Expr.foldNode
  split
  · rename_i folded done
    obtain ⟨op, x, y, rfl⟩ | ⟨x, rfl⟩ := literals_of_foldNode? packs done
    · obtain ⟨z, found, rfl⟩ := Option.map_eq_some_iff.1 done
      have known := packs.1
      cases x <;> cases y <;> simp only [Typed.foldArith?, reduceCtorEq] at found
      all_goals obtain ⟨value, computed, rfl⟩ := Option.map_eq_some_iff.1 found
      · rfl
      · cases op <;> cases known <;> cases computed <;> rfl
    · obtain ⟨z, found, rfl⟩ := Option.map_eq_some_iff.1 done
      cases x <;> simp only [Typed.foldUnary?, reduceCtorEq] at found
      · obtain ⟨value, _, rfl⟩ := Option.map_eq_some_iff.1 found
        rfl
      · cases found
        rfl
  · rfl

theorem packedEval_folded (i : Int64) : ∀ {expr : Expr}, expr.Packs →
    packedEval i expr.folded.2 = packedEval i expr
  | .const _, _ | .var _ _, _ | .index _ _ _, _ => rfl
  | .binary op left right, packs => by
    have node : (Expr.binary op left.folded.2 right.folded.2).Packs :=
      ⟨packs.1, packs.2.1.folded.1, packs.2.2.folded.1⟩
    rw [Expr.folded, packedEval_foldNode node, packedEval, packedEval,
      packedEval_folded i packs.2.1, packedEval_folded i packs.2.2]
  | .unary .neg operand, packs => by
    have held : operand.Packs := packs
    have node : (Expr.unary .neg operand.folded.2).Packs := held.folded.1
    rw [Expr.folded, packedEval_foldNode node, packedEval, packedEval, packedEval_folded i held]

theorem foldlM_packedStmt_folded (head : VectorHead) (i : Int64) : ∀ {body : List Stmt},
    (∀ stmt ∈ body, stmt.Packs head.reductions) → ∀ partials,
      (Stmt.foldedBlock body).2.foldlM (packedStmt head i) partials =
        body.foldlM (packedStmt head i) partials
  | [], _, _ => rfl
  | stmt :: rest, packs, partials => by
    have others := foldlM_packedStmt_folded head i fun stmt member =>
      packs stmt (.tail _ member)
    have here := packs stmt (.head _)
    match stmt with
    | .store array index value =>
      obtain ⟨_, inner⟩ := here
      change List.foldlM _ _ (_ :: (Stmt.foldedBlock rest).2) = _
      rw [List.foldlM_cons, List.foldlM_cons]
      simp only [packedStmt, packedEval_folded i inner, others]
    | .assign acc (.binary op left right) =>
      obtain ⟨_, _, updates, first, second⟩ := here
      have kept :
          ((Expr.binary op left.folded.2 right.folded.2).foldNode (left.folded.1 + right.folded.1)).2 =
            .binary op left.folded.2 right.folded.2 :=
        Typed.foldNode_update _ (updates.imp first.folded.2.trans second.folded.2.trans)
      change List.foldlM _ _ (.assign acc (Expr.foldNode _ _).2 :: (Stmt.foldedBlock rest).2) = _
      rw [kept, List.foldlM_cons, List.foldlM_cons]
      have operand : (if left.var? = some acc then right.folded.2 else left.folded.2) =
          (if left.var? = some acc then right else left).folded.2 := by split <;> rfl
      have packed : (if left.var? = some acc then right else left).Packs := by
        split
        · exact second
        · exact first
      simp only [packedStmt, first.folded.2, operand, packedEval_folded i packed, others]

theorem laneGroup_folded (head : VectorHead) (body : Step Machine Flow) (lanes : Partials) :
    ∀ i, laneGroup head.folded.2 body i lanes = laneGroup head body i lanes := by
  induction lanes with
  | nil => exact fun _ => rfl
  | cons lane lanes ih =>
    intro i
    simp only [laneGroup, ih]
    rfl

theorem lanesStep_folded (head : VectorHead) (body : Step Machine Flow) :
    lanesStep head.folded.2 body = lanesStep head body := by
  funext i lanes
  simp only [lanesStep, laneGroup_folded]
  rfl

theorem packedStep_folded {head : VectorHead} (packs : ∀ stmt ∈ body, stmt.Packs head.reductions) :
    packedStep head.folded.2 (Stmt.foldedBlock body).2 = packedStep head body := by
  funext i partials
  exact congrArg (· >>= _) (foldlM_packedStmt_folded head i packs partials)

theorem vectorLoop_folded (head : VectorHead)
    (group : Int64 → Partials → Step Machine (Flow × Partials)) (body : Step Machine Flow)
    (start stop : Int64) (fuel : Nat) :
    vectorLoop head.folded.2 group body start stop fuel =
      vectorLoop head group body start stop fuel := rfl

end Packed

section Code

def Context.withBody (ctx : Context) (body : List Stmt) : Context :=
  { ctx with routine := { ctx.routine with body } }

mutual

theorem exec_withBody (ctx : Context) (stmt : Stmt) :
    exec (ctx.withBody code) stmt = exec ctx stmt := by
  match stmt with
  | .assign _ _ | .store _ _ _ | .eval _ | .leave | .skip | .exit _ => rfl
  | .giveBack none | .giveBack (some (.scalar _)) | .giveBack (some (.array _)) => rfl
  | .branch _ yes no =>
    rw [exec, execBlock_withBody ctx yes, execBlock_withBody ctx no]
    rfl
  | .whileLoop _ body _ | .forLoop _ body | .vector _ body =>
    rw [exec, execBlock_withBody ctx body]
    rfl
  | .block _ body => rw [exec, exec, execBlock_withBody ctx body]
  | .parallel _ chunk =>
    have kernel : exec (ctx.withBody code).inKernel chunk = exec ctx.inKernel chunk :=
      exec_withBody ctx.inKernel chunk
    rw [exec, exec_withBody ctx chunk, kernel]
    rfl

theorem execBlock_withBody (ctx : Context) (body : List Stmt) :
    execBlock (ctx.withBody code) body = execBlock ctx body := by
  match body with
  | [] => rfl
  | stmt :: rest =>
    rw [execBlock, execBlock, exec_withBody ctx stmt, execBlock_withBody ctx rest]

end

/-- What follows a block runs where the block has ended by itself. -/
def afterBlock (rest : Step Machine Flow) : Flow → Step Machine Flow
  | .next => rest
  | flow => pure flow

variable {ctx : Context}

theorem execBlock_cons (stmt : Stmt) (rest : List Stmt) :
    execBlock ctx (stmt :: rest) = exec ctx stmt >>= afterBlock (execBlock ctx rest) := by
  rfl

theorem execBlock_append (first second : List Stmt) :
    execBlock ctx (first ++ second) =
      execBlock ctx first >>= afterBlock (execBlock ctx second) := by
  induction first with
  | nil => rw [List.nil_append, execBlock, pure_bind, afterBlock]
  | cons stmt rest ih =>
    rw [List.cons_append, execBlock_cons, execBlock_cons, bind_assoc, ih]
    congr 1
    funext flow
    cases flow <;> simp [afterBlock]

theorem execBlock_singleton (stmt : Stmt) : execBlock ctx [stmt] = exec ctx stmt := by
  rw [execBlock_cons]
  conv => rhs; rw [← bind_pure (exec ctx stmt)]
  congr 1
  funext flow
  cases flow <;> simp [afterBlock, execBlock]

variable {domain : Domain} (granted : 0 < ctx.fuel)

include granted

set_option linter.unusedSectionVars false in
mutual

theorem exec_folded {place : Passes.Place} {stmt : Stmt}
    (formed : stmt.Formed domain place) : execBlock ctx stmt.folded.2 = exec ctx stmt := by
  match stmt with
  | .assign id value =>
    rw [Stmt.folded, execBlock_singleton]
    simp only [exec, assign_folded]
  | .store array index value =>
    rw [Stmt.folded, execBlock_singleton]
    simp only [exec, eval_folded, evalInt_folded]
  | .eval value =>
    rw [Stmt.folded, execBlock_singleton]
    simp only [exec, eval_folded]
  | .branch cond yes no =>
    have first := execBlock_folded formed.2.1
    have second := execBlock_folded formed.2.2
    have condition : eval ctx.call cond.folded.2 = eval ctx.call cond := eval_folded cond
    rw [Stmt.folded, exec, ← condition]
    dsimp only
    split
    · rename_i known
      rw [known, first]
      simp [eval, requireBool]
    · rename_i known
      rw [known, second]
      simp [eval, requireBool]
    · rw [execBlock_singleton, exec, first, second]
  | .whileLoop cond body span =>
    have inside := execBlock_folded formed.2
    have condition : eval ctx.call cond.folded.2 = eval ctx.call cond := eval_folded cond
    rw [Stmt.folded, exec, ← condition]
    dsimp only
    split
    · rename_i known
      -- the loop tests its condition once, for which a grant is needed
      obtain ⟨fuel, same⟩ := Nat.exists_eq_succ_of_ne_zero granted.ne'
      rw [known, same, execBlock]
      rfl
    · rw [execBlock_singleton, exec, inside]
  | .forLoop head body =>
    have inside := execBlock_folded formed.2
    rw [Stmt.folded, execBlock_singleton, exec, exec]
    simp only [ForHead.folded, countedLoop_with, inside, evalInt_folded]
  | .giveBack (some (.scalar value)) =>
    rw [Stmt.folded, execBlock_singleton]
    simp only [exec, resultOf, eval_folded]
  | .giveBack (some (.array _)) | .giveBack none | .leave | .skip | .exit _ =>
    exact execBlock_singleton _
  | .block label body =>
    have inner : BlockFormed domain (place.inBlock label) body := formed
    rw [Stmt.folded, execBlock_singleton, exec, exec, execBlock_folded inner]
  | .vector head body =>
    have inside := execBlock_folded formed.2.2
    rw [Stmt.folded, execBlock_singleton, exec, exec]
    have same : head.folded.2.form = head.form := rfl
    simp only [vectorLoop_folded, inside, same]
    cases form : head.form with
    | packed =>
      simp only [packedStep_folded (formed.2.1 form)]
      simp only [VectorHead.folded, evalInt_folded]
    | lanes =>
      simp only [lanesStep_folded]
      simp only [VectorHead.folded, evalInt_folded]
  | .parallel head chunk =>
    rw [Stmt.folded, execBlock_singleton, exec, exec]
    simp only [Typed.ParallelHead.folded, evalInt_folded]
    rfl

theorem execBlock_folded : ∀ {place : Passes.Place} {body : List Stmt},
    BlockFormed domain place body → execBlock ctx (Stmt.foldedBlock body).2 = execBlock ctx body
  | _, [], _ => rfl
  | _, stmt :: rest, formed => by
    rw [Stmt.foldedBlock, execBlock_append, execBlock_cons, exec_folded formed.1,
      execBlock_folded formed.2]

end

end Code

section Routines

variable {profile? : RoutineIndex → Option Typed.Profile} {rule : Passes.Rule} {routine : Routine}
  (formed : routine.Formed profile? rule) {limits : Limits} (granted : 0 < limits.fuel)

include formed granted

theorem execBlock_foldedRoutine (call : Callee) :
    execBlock ⟨routine.folded.2, call, limits.fuel, limits.leastChunk, limits.targetChunks⟩
        routine.folded.2.body =
      execBlock ⟨routine, call, limits.fuel, limits.leastChunk, limits.targetChunks⟩ routine.body :=
  (execBlock_withBody ⟨routine, call, limits.fuel, limits.leastChunk, limits.targetChunks⟩
    routine.folded.2.body).trans (execBlock_folded granted formed.body)

theorem callRoutine_folded {body : Body} {index : RoutineIndex} (own : body.routine index = routine)
    (frames : Nat) :
    callRoutine (body.setRoutine index routine.folded.2) limits frames =
      callRoutine body limits frames := by
  have entered (call : Callee) : enter limits routine.folded.2 call = enter limits routine call := by
    funext args shared
    unfold enter
    simp only [execBlock_foldedRoutine formed granted]
    rfl
  induction frames with
  | zero => rfl
  | succ frames ih =>
    funext callee args shared
    rw [callRoutine, callRoutine, ih]
    obtain ⟨changed, rfl⟩ | same := Passes.routine_setRoutine body index callee routine.folded.2
    · rw [changed, own, entered]
    · rw [same]

end Routines

/-- Folding a well-formed routine is exact, whatever its callees do. From every machine its code ends
as before, with the same result, buffers and locals, or it leaves through deoptimization or uses up
the iterations granted as before. So do calls in every body that the routine belongs to. -/
theorem outcome_of_folded {profile? : RoutineIndex → Option Typed.Profile} {rule : Passes.Rule}
    {routine : Routine} (formed : routine.Formed profile? rule) {limits : Limits}
    (granted : 0 < limits.fuel) :
    (∀ (call : Callee) (machine : Machine),
      execBlock ⟨routine.folded.2, call, limits.fuel, limits.leastChunk, limits.targetChunks⟩
          routine.folded.2.body machine =
        execBlock ⟨routine, call, limits.fuel, limits.leastChunk, limits.targetChunks⟩
          routine.body machine) ∧
      ∀ {body : Body} {index : RoutineIndex}, body.routine index = routine →
        ∀ frames, callRoutine (body.setRoutine index routine.folded.2) limits frames =
          callRoutine body limits frames :=
  ⟨fun call machine => congrFun (execBlock_foldedRoutine formed granted call) machine,
    callRoutine_folded formed granted⟩

/-- A branch and a loop that are decided, a sum of literals and a division by zero. -/
def decidedRoutine : Routine where
  name := "f"
  argKinds := []
  params := []
  locals := [⟨"x", .scalar .int, .user⟩]
  body := [
    .branch (.compare .lt (.int 1) (.int 2)) [.assign 0 (.binary .add (.int 2) (.int 3))] [],
    .whileLoop (.const (.bool false)) [.leave] ⟨0, 0⟩,
    .giveBack (some (.scalar (.binary .floorDiv (.var 0 .int) (.binary .sub (.int 1) (.int 1)))))]
  result := .scalar .int
  purity := .pure
  directives := {}
  globalsRead := []
  nextLabel := 0

/-- What is decided is gone, and the division by zero still leaves the code. -/
theorem outcome_of_folded_decided :
    decidedRoutine.folded.2.body.length = 2 ∧
      callRoutine ((⟨[decidedRoutine]⟩ : Body).setRoutine 0 decidedRoutine.folded.2) ⟨9, 1, 1, 1⟩ 1 0
        [] ⟨#[], 0⟩ = .deopt [⟨0, [], 0⟩] := by
  have declared : (decidedRoutine.domain fun _ => none).Declares 0 (.scalar .int) := ⟨_, rfl, rfl⟩
  have formed : decidedRoutine.Formed (fun _ => none) ⟨True, True, True, True, True, True⟩ := by
    refine ⟨.nil, ⟨⟨⟨⟨trivial, trivial⟩, rfl⟩, rfl⟩, ⟨⟨declared, ?_⟩, trivial⟩, trivial⟩,
      ⟨⟨trivial, rfl⟩, ⟨fun _ => rfl, fun _ => rfl⟩, trivial⟩, ⟨⟨?_, rfl⟩, rfl, fun _ => rfl⟩, trivial⟩
    · exact ⟨⟨trivial, trivial⟩, rfl, rfl⟩
    · exact ⟨⟨declared, ⟨trivial, trivial⟩, rfl, rfl⟩, rfl, rfl⟩
  refine ⟨rfl, ?_⟩
  rw [(outcome_of_folded formed (by decide)).2 rfl]
  rfl

end TwoTier.Native
