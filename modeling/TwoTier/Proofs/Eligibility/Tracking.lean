import TwoTier.Proofs.Eligibility.Mentions

set_option linter.unusedSectionVars false

namespace TwoTier.Eligibility

open Surface (CmpOp FunctionDef Mention)

open Surface.Expr (mentions mentionsInAll mentionsInAll_append mentionsInChain mentionsInRange)

open Typed (Arg Expr LocalId)

variable {α : Type} {watch : Watch} {subject other : Subject}

theorem Subject.tracks_unsupported (function : other.function = subject.function)
    {construct reason : String} {span : Span} :
    watch.Tracks (subject.unsupported construct reason span : Typing α)
      (other.unsupported construct reason span) := by
  unfold unsupported
  rw [function]
  exact .refuse

theorem Watch.Counterpart.refuses (pair : watch.Counterpart subject other) {reason : String} :
    watch.Tracks (subject.unsupported construct reason span : Typing α)
      (other.unsupported construct reason span) :=
  Subject.tracks_unsupported pair.function

/-- A called name that is not of the scope is one that the programs agree on. -/
theorem Watch.Covers.called {func : Surface.Expr} {name : String} {scope : Scope}
    (covers : watch.Covers (func.name?.map .called).toList) (named : func.name? = some name)
    (names : scope.localNames = watch.names) (free : ¬scope.isLocalName name) :
    watch.alike (.called name) := by
  apply covers
  · rw [named]
    exact .head _
  · rw [← names]
    simpa [Scope.isLocalName, Mention.name] using free

namespace Subject

section Leaves

variable (function : other.function = subject.function)

include function

theorem tracks_inconsistent :
    watch.Tracks (subject.inconsistent reason span : Typing α)
      (other.inconsistent reason span) := by
  unfold inconsistent
  rw [function]
  exact .refuse

omit function in
theorem tracks_scope {next otherNext : Scope → Typing α}
    (rest : ∀ scope : Scope, scope.localNames = watch.names →
      watch.Tracks (next scope) (otherNext scope)) :
    watch.Tracks (Typing.scope >>= next) (Typing.scope >>= otherNext) where
  tracked {draft} held := (rest draft.scope (watch.within held)).tracked held

theorem tracks_requireArray :
    watch.Tracks (subject.requireArray expr) (other.requireArray expr) := by
  refine tracks_scope fun scope _ => ?_
  split
  · exact .pure
  · exact tracks_unsupported function

theorem tracks_typeArith :
    watch.Tracks (subject.typeArith op left right span) (other.typeArith op left right span) := by
  unfold typeArith
  split
  · exact tracks_unsupported function
  cases arithOp? op with
  | none => exact tracks_unsupported function
  | some typed =>
    dsimp only
    split
    · unfold typeIntArith
      split
      · exact .pure
      · split
        · split
          · exact .pure
          · exact .pure
        · exact tracks_unsupported function
      · exact .pure
    · unfold typeFloatArith
      split
      all_goals first | exact .pure | exact tracks_unsupported function

theorem tracks_typeUnary :
    watch.Tracks (subject.typeUnary op operand span) (other.typeUnary op operand span) := by
  unfold typeUnary
  split
  · exact .pure
  · split
    · exact tracks_unsupported function
    · split
      · exact .pure
      · exact .pure
      · split
        · exact .pure
        · exact tracks_unsupported function

theorem tracks_typeComparison :
    watch.Tracks (subject.typeComparison op left right span)
      (other.typeComparison op left right span) := by
  unfold typeComparison
  split
  · exact tracks_unsupported function
  · split
    · exact .pure
    · exact .pure
    · split
      · exact .pure
      · exact tracks_unsupported function

theorem tracks_typeLogic :
    watch.Tracks (subject.typeLogic op left right span) (other.typeLogic op left right span) := by
  unfold typeLogic
  dsimp only
  split
  · exact .pure
  · exact tracks_inconsistent function

theorem tracks_requireInt :
    watch.Tracks (subject.requireInt expr span) (other.requireInt expr span) := by
  unfold requireInt
  split
  · exact .pure
  · exact tracks_unsupported function

theorem tracks_typeLen :
    watch.Tracks (subject.typeLen arg span) (other.typeLen arg span) := by
  refine tracks_scope fun scope _ => ?_
  split
  · exact .pure
  · exact tracks_unsupported function

theorem tracks_typeAbs :
    watch.Tracks (subject.typeAbs operand span) (other.typeAbs operand span) := by
  unfold typeAbs
  split
  · exact tracks_unsupported function
  · exact .pure

theorem tracks_typeExtremum :
    watch.Tracks (subject.typeExtremum name left right span)
      (other.typeExtremum name left right span) := by
  unfold typeExtremum
  split
  · exact tracks_inconsistent function
  · exact .pure

end Leaves

section Requests

variable (pair : watch.Counterpart subject other)

include pair

theorem tracks_typeName (covers : watch.Covers [.read name]) :
    watch.Tracks (subject.typeName name span) (other.typeName name span) := by
  refine tracks_scope fun scope names => ?_
  split
  · split
    · exact pair.refuses
    · split
      · exact .pure
      · exact pair.refuses
  · rename_i free
    have alike : watch.alike (.read name) := by
      apply covers _ (.head _)
      rw [← names]
      simpa [Scope.isLocalName, Mention.name] using free
    rw [pair.constant alike]
    split
    · exact pair.captured _ _
    · exact pair.refuses

theorem tracks_typeModuleCall (alike : watch.alike (.called name)) :
    watch.Tracks (subject.typeModuleCall name args span isStatement)
      (other.typeModuleCall name args span isStatement) := by
  refine .bind (pair.requested name _ span alike) fun requested => ?_
  obtain ⟨callee, result⟩ := requested
  cases result with
  | scalar type => exact .pure
  | nothing =>
    dsimp only
    split
    · exact .pure
    · exact pair.refuses
  | array element => exact pair.refuses

mutual

/-- Typing an expression goes the same way in two programs that are alike in the names it
mentions. -/
theorem tracks_typeExpr {expr : Surface.Expr} (covers : watch.Covers expr.mentions) :
    watch.Tracks (subject.typeExpr expr) (other.typeExpr expr) := by
  unfold mentions at covers
  unfold typeExpr
  match expr with
  | .int _ _ | .float _ _ | .bool _ _ => exact .pure
  | .name span text => exact tracks_typeName pair covers
  | .binary span op left right | .boolOp span op left right =>
    refine .bind (tracks_typeExpr covers.left) fun first => ?_
    refine .bind (tracks_typeExpr covers.right) fun second => ?_
    first
    | exact tracks_typeArith pair.function
    | exact tracks_typeLogic pair.function
  | .unary span op operand =>
    refine .bind (tracks_typeExpr covers) fun typed => ?_
    exact tracks_typeUnary pair.function
  | .compare span left rest =>
    refine .bind (tracks_typeExpr covers.left) fun first => ?_
    exact tracks_typeChain covers.right
  | .call span func args keywords =>
    dsimp only
    split
    · exact pair.refuses
    · rename_i name named
      refine tracks_scope fun scope names => ?_
      split
      · exact pair.refuses
      · rename_i free
        have alike := covers.left.called named names free
        rw [pair.defined alike]
        split
        · split
          · refine .bind (tracks_typeArgs covers.right) fun typed => ?_
            exact tracks_typeModuleCall pair alike
          · exact pair.refuses
        · split
          · exact tracks_typeBuiltin covers.right
          · exact pair.refuses
  | .subscript span value index =>
    refine .bind (tracks_requireArray pair.function) fun array => ?_
    refine .bind (tracks_typeExpr covers) fun position => ?_
    refine .bind (tracks_requireInt pair.function) fun position => ?_
    exact tracks_scope fun scope _ => .pure
  | .conditional span cond yes no =>
    refine .bind (tracks_typeExpr covers.left) fun cond => ?_
    refine .bind (tracks_typeExpr covers.right.left) fun yes => ?_
    refine .bind (tracks_typeExpr covers.right.right) fun no => ?_
    split
    · exact .pure
    · exact tracks_inconsistent pair.function
  | .none _ | .str _ _ | .member _ _ _ | .list _ _ | .tuple _ _ | .dict _ _ | .lambda _ _ _ =>
    exact pair.refuses

theorem tracks_typeChain {left : Expr} {before : Option Expr}
    {rest : List (CmpOp × Surface.Expr)} (covers : watch.Covers (mentionsInChain rest)) :
    watch.Tracks (subject.typeChain span left before rest)
      (other.typeChain span left before rest) := by
  match rest with
  | [] =>
    unfold typeChain
    split
    · exact .pure
    · exact pair.refuses
  | (op, written) :: rest =>
    rw [mentionsInChain] at covers
    unfold typeChain
    refine .bind (tracks_typeExpr covers.left) fun right => ?_
    split
    · exact pair.refuses
    · refine .bind (tracks_typeComparison pair.function) fun test => ?_
      exact tracks_typeChain covers.right

theorem tracks_typeArgs {args : List Surface.Expr} (covers : watch.Covers (mentionsInAll args)) :
    watch.Tracks (subject.typeArgs args) (other.typeArgs args) := by
  match args with
  | [] =>
    rw [typeArgs, typeArgs]
    exact .pure
  | arg :: rest =>
    rw [mentionsInAll] at covers
    rw [typeArgs, typeArgs]
    refine tracks_scope fun scope _ => ?_
    dsimp only
    split
    · exact .bind .pure fun _ => .bind (tracks_typeArgs covers.right) fun _ => .pure
    · refine .bind (tracks_typeExpr covers.left) fun value => ?_
      exact .bind .pure fun _ => .bind (tracks_typeArgs covers.right) fun _ => .pure

theorem tracks_typeBuiltin {args : List Surface.Expr}
    (covers : watch.Covers (mentionsInAll args)) :
    watch.Tracks (subject.typeBuiltin name args span) (other.typeBuiltin name args span) := by
  unfold typeBuiltin
  match args with
  | [] | _ :: _ :: _ :: _ =>
    split
    all_goals exact pair.refuses
  | [arg] =>
    have typed := tracks_typeExpr (covers.item (.head _))
    split
    · exact tracks_typeLen pair.function
    · exact .bind typed fun operand => tracks_typeAbs pair.function
    · exact pair.refuses
    · exact pair.refuses
    · exact .bind typed fun _ => .pure
    · exact .bind typed fun _ => .pure
    · exact pair.refuses
    · exact pair.refuses
  | [a, b] =>
    have both (name : String) : watch.Tracks
        (do
          let left ← subject.typeExpr a
          let right ← subject.typeExpr b
          subject.typeExtremum name left right span)
        (do
          let left ← other.typeExpr a
          let right ← other.typeExpr b
          other.typeExtremum name left right span) := by
      refine .bind (tracks_typeExpr (covers.item (.head _))) fun left => ?_
      refine .bind (tracks_typeExpr (covers.item (by simp))) fun right => ?_
      exact tracks_typeExtremum pair.function
    split
    · exact pair.refuses
    · exact pair.refuses
    · exact both "min"
    · exact both "max"
    all_goals exact pair.refuses

end

theorem tracks_typeCondition {expr : Surface.Expr} (covers : watch.Covers expr.mentions) :
    watch.Tracks (subject.typeCondition expr) (other.typeCondition expr) := by
  exact .bind (tracks_typeExpr pair covers) fun cond => .pure

theorem tracks_typeBounds (covers : watch.Covers (mentionsInAll args)) :
    watch.Tracks (subject.typeBounds args) (other.typeBounds args) := by
  refine Attempt.Tracks.mapM _ fun arg member => ?_
  refine .bind (tracks_typeExpr pair (covers.item member)) fun bound => ?_
  split
  · exact .pure
  · exact pair.refuses

theorem tracks_typeRange {iter : Surface.Expr} (covers : watch.Covers iter.mentionsInRange) :
    watch.Tracks (subject.typeRange iter) (other.typeRange iter) := by
  cases iter with
  | call span func args keywords =>
    refine tracks_scope fun scope _ => ?_
    split
    · exact pair.refuses
    · refine .bind (tracks_typeBounds pair covers) fun bounds => ?_
      split
      · exact .pure
      · exact .pure
      · exact .pure
      · exact pair.refuses
  | _ => exact pair.refuses

theorem tracks_typeEffect {expr : Surface.Expr} (covers : watch.Covers expr.mentions) :
    watch.Tracks (subject.typeEffect expr) (other.typeEffect expr) := by
  have typed := tracks_typeExpr pair covers
  cases expr with
  | call span func args keywords =>
    refine tracks_scope fun scope names => ?_
    split
    · rename_i name named
      by_cases isLocal : scope.isLocalName name
      · rw [isLocal]
        exact typed
      · have alike := covers.left.called named names isLocal
        rw [pair.defined alike]
        split
        · split
          · refine .bind (tracks_typeArgs pair covers.right) fun args => ?_
            exact tracks_typeModuleCall pair alike
          · exact pair.refuses
        · exact typed
    · exact typed
  | _ => exact typed

end Requests

section Statements

variable (pair : watch.Partner subject other)

include pair

theorem tracks_intoTemp : watch.Tracks (intoTemp hint value) (intoTemp hint value) := by
  refine .bind (pair.spilled _ _) fun temp => ?_
  exact .bind (pair.placed _) fun _ => .pure

theorem tracks_storeElement :
    watch.Tracks (subject.storeElement array index value span)
      (other.storeElement array index value span) := by
  refine tracks_scope fun scope _ => ?_
  dsimp only
  split
  · exact .bind (pair.raised _) fun _ => .pure
  · exact tracks_inconsistent pair.function

theorem tracks_typeReturn {value : Option Surface.Expr}
    (covers : watch.Covers (mentionsInAll value.toList)) :
    watch.Tracks (subject.typeReturn value span) (other.typeReturn value span) := by
  cases value with
  | none => exact .bind (pair.returned _ span) fun _ => .pure
  | some expr =>
    have typed := tracks_typeExpr pair.toCounterpart (covers.item (.head _))
    cases expr with
    | none => exact .bind (pair.returned _ span) fun _ => .pure
    | _ =>
      refine tracks_scope fun scope _ => ?_
      split
      · exact .bind (pair.returned _ span) fun _ => .pure
      · refine .bind typed fun value => ?_
        exact .bind (pair.returned _ span) fun _ => .pure

theorem tracks_storeTarget {target : Surface.Expr} (covers : watch.Covers target.mentions) :
    watch.Tracks (subject.storeTarget target value) (other.storeTarget target value) := by
  cases target with
  | name span text =>
    refine .bind (pair.bound text _ span) fun id => ?_
    exact .bind (pair.placed _) fun _ => .pure
  | subscript span base index =>
    refine .bind (tracks_requireArray pair.function) fun array => ?_
    refine .bind (tracks_typeExpr pair.toCounterpart covers) fun position => ?_
    refine .bind (tracks_requireInt pair.function) fun position => ?_
    exact tracks_storeElement pair
  | _ => exact pair.refuses

theorem tracks_storeTargets {targets : List (Surface.Expr × Expr)}
    (covers : ∀ target ∈ targets, watch.Covers target.1.mentions) :
    watch.Tracks (subject.storeTargets targets) (other.storeTargets targets) :=
  .bind (Attempt.Tracks.mapM _ fun target member =>
    tracks_storeTarget pair (covers target member)) fun _ => .pure

section Assignment

variable {targets : List Surface.Expr} {value : Surface.Expr}
  (stored : watch.Covers (mentionsInAll targets)) (covers : watch.Covers value.mentions)

include stored covers

theorem tracks_typeUnpacking :
    watch.Tracks (subject.typeUnpacking targets value span)
      (other.typeUnpacking targets value span) := by
  cases value with
  | tuple _ values =>
    rw [typeUnpacking, typeUnpacking]
    split
    · refine .bind (Attempt.Tracks.mapM _ fun item member => ?_) fun temps => ?_
      · refine .bind (tracks_typeExpr pair.toCounterpart (covers.item member)) fun typed => ?_
        exact .bind (tracks_intoTemp pair) fun _ => .pure
      · refine .bind (tracks_storeTargets pair fun target member => ?_) fun _ => .pure
        exact stored.item (List.of_mem_zip member).1
    · exact pair.refuses
  | _ => exact pair.refuses

theorem tracks_typeScalarAssign :
    watch.Tracks (subject.typeScalarAssign targets value)
      (other.typeScalarAssign targets value) := by
  refine tracks_scope fun scope _ => ?_
  split
  · exact pair.refuses
  · refine .bind (tracks_typeExpr pair.toCounterpart covers) fun typed => ?_
    split
    · exact tracks_storeTarget pair (stored.item (.head _))
    · refine .bind (tracks_intoTemp pair) fun temp => ?_
      refine .bind (tracks_storeTargets pair fun target member => ?_) fun _ => .pure
      obtain ⟨written, held, rfl⟩ := List.mem_map.1 member
      exact stored.item held

theorem tracks_typeAssign :
    watch.Tracks (subject.typeAssign targets value span) (other.typeAssign targets value span) := by
  unfold typeAssign
  split
  iterate 2
    · have first := stored.item (.head _)
      split
      · exact tracks_typeUnpacking pair first covers
      · exact pair.refuses
  · exact tracks_typeScalarAssign pair stored covers

end Assignment

theorem tracks_typeUpdate {target : Surface.Expr} (stored : watch.Covers target.mentions)
    (covers : watch.Covers value.mentions) :
    watch.Tracks (subject.typeUpdate target op value span)
      (other.typeUpdate target op value span) := by
  cases target with
  | name nameSpan text =>
    refine .bind (tracks_typeExpr pair.toCounterpart stored) fun current => ?_
    refine .bind (tracks_typeExpr pair.toCounterpart covers) fun operand => ?_
    refine .bind (tracks_typeArith pair.function) fun updated => ?_
    exact tracks_storeTarget pair stored
  | subscript _ base index =>
    refine .bind (tracks_requireArray pair.function) fun array => ?_
    refine .bind (tracks_typeExpr pair.toCounterpart stored) fun position => ?_
    refine .bind (tracks_requireInt pair.function) fun position => ?_
    refine .bind (tracks_intoTemp pair) fun temp => ?_
    refine tracks_scope fun scope _ => ?_
    refine .bind (tracks_typeExpr pair.toCounterpart covers) fun operand => ?_
    refine .bind (tracks_typeArith pair.function) fun updated => ?_
    exact .bind (tracks_storeElement pair) fun stores => .pure
  | _ => exact pair.refuses

theorem tracks_typeLoopHead {target iter : Surface.Expr}
    (covers : watch.Covers iter.mentionsInRange) :
    watch.Tracks (subject.typeLoopHead target iter span) (other.typeLoopHead target iter span) := by
  cases target with
  | name nameSpan name =>
    refine tracks_scope fun scope _ => ?_
    split
    · refine .bind (pair.spilled _ _) fun index => ?_
      exact .bind (pair.bound name _ nameSpan) fun var => .pure
    · refine .bind (tracks_typeRange pair.toCounterpart covers) fun bounds => ?_
      exact .bind (pair.bound name _ nameSpan) fun var => .pure
  | _ => exact pair.refuses

theorem tracks_onPath {moved : Typing α} (tracks : watch.Tracks typing moved) :
    watch.Tracks (onPath entry typing) (onPath entry moved) :=
  .bind (pair.placed _) fun _ => .bind tracks fun _ => tracks_scope fun _ _ => .pure

omit pair in
/-- What a statement mentions itself is among what it mentions with all that is nested in it. -/
theorem covers_own (stmt : Surface.Stmt)
    (covers : watch.Covers (stmt.within.flatMap (·.mentions))) :
    watch.Covers stmt.mentions := fun mention member =>
  covers mention (List.mem_flatMap.2 ⟨stmt, stmt.self_mem_within, member⟩)

mutual

/-- Typing a statement goes the same way in two programs that are alike in the names it mentions. -/
theorem tracks_typeStmt {stmt : Surface.Stmt}
    (covers : watch.Covers (stmt.within.flatMap (·.mentions))) :
    watch.Tracks (subject.typeStmt stmt) (other.typeStmt stmt) := by
  have own := covers_own stmt covers
  unfold typeStmt
  match stmt with
  | .pass _ => exact .pure
  | .expr _ value =>
    have effect := tracks_typeEffect pair.toCounterpart (own.item (.head _))
    exact .bind effect fun _ => .pure
  | .assign span targets value =>
    have own : watch.Covers (mentionsInAll (targets ++ [value])) := own
    rw [mentionsInAll_append] at own
    exact tracks_typeAssign pair own.left (own.right.item (.head _))
  | .update span target op value =>
    exact tracks_typeUpdate pair (own.item (.head _)) (own.item (.tail _ (.head _)))
  | .giveBack span value =>
    refine .bind (tracks_typeReturn pair (by cases value <;> exact own)) fun result => ?_
    exact .bind (pair.placed _) fun _ => .pure
  | .branch _ cond yes no =>
    rw [Surface.Stmt.within, List.flatMap_cons, List.flatMap_append] at covers
    have nested := covers.right
    have test := tracks_typeCondition pair.toCounterpart (own.item (.head _))
    refine .bind test fun cond => ?_
    refine tracks_scope fun scope _ => ?_
    refine .bind (tracks_onPath pair (tracks_typeBlock nested.left)) fun yes => ?_
    refine .bind (tracks_onPath pair (tracks_typeBlock nested.right)) fun no => ?_
    exact .bind (pair.placed _) fun _ => .pure
  | .whileLoop span cond written =>
    rw [Surface.Stmt.within, List.flatMap_cons] at covers
    have nested := covers.right
    have test := tracks_typeCondition pair.toCounterpart (own.item (.head _))
    refine .bind test fun cond => ?_
    refine tracks_scope fun scope _ => ?_
    refine .bind (tracks_onPath pair (tracks_typeBlock nested)) fun body => ?_
    exact .bind (pair.placed _) fun _ => .pure
  | .forLoop span target iter written =>
    rw [Surface.Stmt.within, List.flatMap_cons] at covers
    have nested := covers.right
    refine .bind (tracks_typeLoopHead pair own) fun opened => ?_
    refine tracks_scope fun scope _ => ?_
    refine .bind (tracks_onPath pair (tracks_typeBlock nested)) fun body => ?_
    refine .bind (pair.placed _) fun _ => ?_
    exact .pure
  | .leave _ | .skip _ => exact .bind (pair.placed _) fun _ => .pure
  | .importNames _ _ | .importFrom _ _ _ | .globals _ _ | .nonlocals _ _ | .attempt _ _ _ _
  | .raise _ _ | .define _ => exact pair.refuses

theorem tracks_typeBlock {body : List Surface.Stmt}
    (covers : watch.Covers (Surface.Stmt.mentionsInAll body)) :
    watch.Tracks (subject.typeBlock body) (other.typeBlock body) := by
  match body with
  | [] =>
    rw [typeBlock, typeBlock]
    exact .pure
  | stmt :: rest =>
    rw [Surface.Stmt.mentionsInAll, Surface.Stmt.withinAll, List.flatMap_append] at covers
    rw [typeBlock, typeBlock]
    refine tracks_scope fun scope _ => ?_
    split
    · exact .pure
    · refine .bind (tracks_typeStmt covers.left) fun first => ?_
      refine .bind (tracks_typeBlock covers.right) fun others => ?_
      exact .pure

end

theorem tracks_typeBody (definition : FunctionDef)
    (covers : watch.Covers (Surface.Stmt.mentionsInAll definition.body)) :
    watch.Tracks (subject.typeBody definition) (other.typeBody definition) := by
  refine .bind (tracks_typeBlock pair covers) fun body => ?_
  refine tracks_scope fun scope _ => ?_
  split
  · exact .bind (pair.returned .nothing definition.span) fun _ => .pure
  · exact .pure

end Statements

end Subject
end TwoTier.Eligibility
