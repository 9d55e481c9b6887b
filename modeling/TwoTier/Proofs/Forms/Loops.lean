import TwoTier.Proofs.Forms.Inlining
import TwoTier.Proofs.Lanes.Acceptance

namespace TwoTier.Typed

open Passes

variable {cond expr : Expr}

section Counting

variable {domain : Domain}

theorem counterTest_formed {stop : Expr} {op : Comparison} (formed : cond.Formed domain)
    (tested : counterTest cond = .ok (var, stop, op)) :
    domain.Declares var (.scalar .int) ∧ stop.Has domain .int := by
  match cond with
  | .compare _ left right =>
    obtain ⟨⟨first, second⟩, same⟩ := formed
    unfold counterTest at tested
    dsimp only at tested
    split at tested
    · rename_i id found
      cases tested
      obtain ⟨named, checked⟩ := Option.filter_eq_some_iff.1 found
      have isInt : left.type = .int := by simp_all
      cases left with
      | var id type =>
        cases named
        cases isInt
        exact ⟨first, second, same.symm⟩
      | _ => cases named
    · rename_i id _ found
      cases tested
      obtain ⟨named, checked⟩ := Option.filter_eq_some_iff.1 found
      have isInt : right.type = .int := by simp_all
      cases right with
      | var id type =>
        cases named
        cases isInt
        exact ⟨second, first, same⟩
      | _ => cases named
    · cases tested

theorem tested_of_countedShape {body : List Stmt} {shape : CountedShape}
    (counts : countedShape cond body = .ok shape) :
    ∃ op, counterTest cond = .ok (shape.var, shape.stop, op) := by
  unfold countedShape at counts
  cases tested : counterTest cond with
  | error reason => simp [tested, bind, Except.bind] at counts
  | ok found =>
    obtain ⟨var, stop, op⟩ := found
    refine ⟨op, ?_⟩
    simp only [tested, bind, Except.bind, pure, Except.pure, throw, throwThe,
      MonadExceptOf.throw] at counts
    repeat' split at counts
    all_goals first
      | cases counts; rfl
      | cases counts

theorem countedBlock_of_packs (packs : ∀ stmt ∈ body, stmt.Packs reductions) :
    (countedBlock body).2 = body :=
  packs_induction (fun body => (countedBlock body).2 = body) rfl (congrArg (List.cons _))
    (congrArg (List.cons _)) packs

mutual

theorem Stmt.Formed.counted {place : Place} {stmt : Stmt} (formed : stmt.Formed domain place) :
    (Passes.counted stmt).2.Formed domain place := by
  match stmt with
  | .branch _ _ _ => exact ⟨formed.1, formed.2.1.counted, formed.2.2.counted⟩
  | .whileLoop _ _ _ =>
    have inner := formed.2.counted
    unfold Passes.counted
    dsimp only
    split
    · rename_i shape counts
      obtain ⟨op, tested⟩ := tested_of_countedShape counts
      obtain ⟨declared, stop⟩ := counterTest_formed formed.1.1 tested
      refine ⟨⟨declared, Expr.has_var declared, stop, Expr.has_int, fun _ => rfl⟩, ?_⟩
      exact blockFormed_iff.2 fun stmt member =>
        blockFormed_iff.1 inner stmt ((List.dropLast_sublist _).subset member)
    · exact ⟨formed.1, inner⟩
  | .forLoop _ _ => exact ⟨formed.1, formed.2.counted⟩
  | .block _ body =>
    have held : BlockFormed domain _ body := formed
    exact held.counted
  | .vector _ _ =>
    exact ⟨formed.1, fun isPacked => by
      rw [countedBlock_of_packs (formed.2.1 isPacked)]
      exact formed.2.1 isPacked, formed.2.2.counted⟩
  | .assign _ _ | .store _ _ _ | .eval _ | .leave | .skip | .giveBack _ | .exit _ | .parallel _ _ =>
    exact formed

theorem BlockFormed.counted : ∀ {place : Place} {body : List Stmt}, BlockFormed domain place body →
    BlockFormed domain place (countedBlock body).2
  | _, [], _ => blockFormed_nil
  | _, _ :: _, formed => ⟨formed.1.counted, formed.2.counted⟩

end

end Counting

section Motion

variable {start : Routine} {domain : Domain} {written : List LocalId}

/-- What has been moved out of a loop so far is well formed wherever it stands. -/
structure Moves (start : Routine) (domain : Domain) (moving : Moving) : Prop where
  locals : moving.routine.locals = domain.locals
  gains : start.Gains moving.routine
  moved : ∀ place, BlockFormed domain place moving.moved

theorem yields_moveOut (formed : expr.Formed domain) :
    Yields (Moves start) domain (fun large value => value.Has large expr.type) (moveOut expr) := by
  intro moving moves
  have within := domain.within_addTemp "$inv" (.scalar expr.type)
  have fresh : (domain.addTemp "$inv" (.scalar expr.type)).Declares moving.routine.locals.length
      (.scalar expr.type) := by
    rw [moves.locals]
    exact domain.declares_addTemp _ _
  refine ⟨_, within, ⟨?_, ?_, fun place => ?_⟩, fresh, rfl⟩
  · exact congrArg (· ++ [⟨"$inv", .scalar expr.type, .temp⟩]) moves.locals
  · exact moves.gains.trans ⟨List.prefix_append _ _, rfl, rfl, rfl, id⟩
  · exact blockFormed_append.2 ⟨(moves.moved place).grow within, ⟨fresh, formed.grow within⟩,
      blockFormed_nil⟩

/-- An expression is moved as a whole, stays as it is or is searched for smaller parts. -/
theorem yields_moveOr {rest : StateM Moving Expr} (formed : expr.Formed domain)
    (inner : Yields (Moves start) domain (fun large value => value.Has large expr.type) rest) :
    Yields (Moves start) domain (fun large value => value.Has large expr.type)
      (if isMovable written expr then if expr.nodeCount > 1 then moveOut expr else pure expr
        else rest) := by
  split
  · split
    · exact yields_moveOut formed
    · exact .pure ⟨formed, rfl⟩
  · exact inner

theorem liftExpr_var (id : LocalId) (type : NumType) :
    liftExpr written (.var id type) = pure (.var id type) := by
  unfold liftExpr
  split <;> rfl

mutual

/-- An expression keeps its type when parts of it are moved out. -/
theorem yields_liftExpr {domain : Domain} {expr : Expr} (formed : expr.Formed domain) :
    Yields (Moves start) domain (fun large value => value.Has large expr.type)
      (liftExpr written expr) := by
  unfold liftExpr
  refine yields_moveOr formed ?_
  match expr with
  | .const _ | .var _ _ | .len _ => exact .pure ⟨formed, rfl⟩
  | .unary op _ =>
    refine .bind (yields_liftExpr formed.1) fun _ _ first => .pure ?_
    refine ⟨⟨first.1, first.2 ▸ formed.2⟩, ?_⟩
    cases op with
    | not => rfl
    | neg | invert => exact first.2
  | .cast _ _ | .abs _ =>
    refine .bind (yields_liftExpr formed.1) fun _ _ first => .pure ⟨⟨first.1, first.2 ▸ formed.2⟩, ?_⟩
    first | rfl | exact first.2
  | .index _ _ _ =>
    refine .bind (yields_liftExpr formed.2.1) fun _ within first => .pure ?_
    exact ⟨⟨formed.1.grow within, first.1, first.2.trans formed.2.2⟩, rfl⟩
  | .binary _ _ _ | .extremum _ _ _ | .compare _ _ _ | .logic _ _ _ =>
    refine .bind (yields_liftExpr formed.1.1) fun _ within first => ?_
    refine .bind (yields_liftExpr (formed.1.2.grow within)) fun _ further second => .pure ?_
    have first := first.grow further
    refine ⟨⟨⟨first.1, second.1⟩, ?_⟩, by first | rfl | exact first.2⟩
    rw [first.2, second.2]
    exact formed.2
  | .select _ _ _ =>
    refine .bind (yields_liftExpr formed.1.1) fun _ one cond => ?_
    refine .bind (yields_liftExpr (formed.1.2.1.grow one)) fun _ two yes => ?_
    refine .bind (yields_liftExpr (formed.1.2.2.grow (one.trans two))) fun _ three no => .pure ?_
    have cond := cond.grow (two.trans three)
    have yes := yes.grow three
    exact ⟨⟨⟨cond.1, yes.1, no.1⟩, cond.2.trans formed.2.1,
      yes.2.trans (formed.2.2.trans no.2.symm)⟩, yes.2⟩
  | .call _ _ _ =>
    obtain ⟨profile, known, gives, passed⟩ := formed
    refine .bind (yields_liftArgs passed) fun _ within lifted => .pure ?_
    exact ⟨⟨profile, within.known known, gives, lifted⟩, rfl⟩

theorem yields_liftArgs {domain : Domain} {args : List (ArgOf Expr)} {kinds : List Kind}
    (formed : ArgsFormed domain args kinds) :
    Yields (Moves start) domain (fun large lifted => ArgsFormed large lifted kinds)
      (liftArgs written args) := by
  match args with
  | [] => exact .pure formed
  | .scalar _ :: _ =>
    obtain ⟨others, same, first, rest⟩ := formed
    refine .bind (yields_liftExpr first) fun _ within value => ?_
    refine .bind (yields_liftArgs (rest.grow within)) fun _ further later => .pure ?_
    refine ⟨others, ?_, (value.grow further).1, later⟩
    rw [same, value.2]
  | .array _ :: _ =>
    obtain ⟨element, others, same, declared, rest⟩ := formed
    refine .bind (yields_liftArgs rest) fun _ within later => .pure ?_
    exact ⟨element, others, same, declared.grow within, later⟩

end

section Packed

theorem moveOr_packs {rest : StateM Moving Expr} (packs : expr.Packs)
    (inner : Always Expr.Packs rest) :
    Always Expr.Packs (if isMovable written expr then
      if expr.nodeCount > 1 then moveOut expr else pure expr else rest) := by
  split
  · split
    · exact fun _ => trivial
    · exact .pure packs
  · exact inner

theorem liftExpr_packs {expr : Expr} (packs : expr.Packs) :
    Always Expr.Packs (liftExpr written expr) := by
  unfold liftExpr
  match expr with
  | .const _ | .var _ _ => exact moveOr_packs packs (.pure packs)
  | .index _ _ _ =>
    obtain ⟨id, type, same⟩ := packs
    subst same
    dsimp only
    rw [liftExpr_var]
    exact .pure ⟨id, type, rfl⟩
  | .binary _ _ _ =>
    refine moveOr_packs packs (.bind (liftExpr_packs packs.2.1) fun _ first => ?_)
    exact .bind (liftExpr_packs packs.2.2) fun _ second => .pure ⟨packs.1, first, second⟩
  | .unary .neg operand =>
    have held : operand.Packs := packs
    exact moveOr_packs packs (.bind (liftExpr_packs held) fun _ first => .pure first)

theorem liftExpr_var? {id : LocalId} (named : expr.var? = some id) :
    Always (fun value => value.var? = some id) (liftExpr written expr) := by
  cases expr with
  | var other type =>
    rw [liftExpr_var]
    exact .pure named
  | _ => cases named

theorem not_isMovable_of_reads {part : Expr} {id : LocalId} (member : id ∈ written)
    (named : part.var? = some id) (inside : part ∈ expr.nodes) :
    isMovable written expr = false := by
  refine List.all_eq_false.2 ⟨part, inside, ?_⟩
  cases part with
  | var other type =>
    cases named
    simp [member]
  | _ => cases named

/-- An update of an accumulator stays an update, since the loop writes the accumulator. -/
theorem liftStmt_packs (packs : stmt.Packs reductions)
    (writes : ∀ id ∈ stmt.ownWrites, id ∈ written) :
    Always (Stmt.Packs reductions) (liftStmt written stmt) := by
  match stmt with
  | .store _ _ _ =>
    obtain ⟨⟨id, type, rfl⟩, packed⟩ := packs
    unfold liftStmt
    rw [liftExpr_var, pure_bind]
    exact .bind (liftExpr_packs packed) fun _ lifted => .pure ⟨⟨id, type, rfl⟩, lifted⟩
  | .assign acc (.binary op left right) =>
    obtain ⟨member, known, updates, first, second⟩ := packs
    have fixed : isMovable written (.binary op left right) = false := by
      have here : acc ∈ written := writes acc (.head _)
      obtain named | named := updates
      · exact not_isMovable_of_reads here named
          (.tail _ (List.mem_append_left _ left.self_mem_nodes))
      · exact not_isMovable_of_reads here named
          (.tail _ (List.mem_append_right _ right.self_mem_nodes))
    have one : Always (fun value : Expr => value.Packs ∧ (left.var? = some acc →
        value.var? = some acc)) (liftExpr written left) :=
      fun state => ⟨liftExpr_packs first state, fun named => liftExpr_var? named state⟩
    have two : Always (fun value : Expr => value.Packs ∧ (right.var? = some acc →
        value.var? = some acc)) (liftExpr written right) :=
      fun state => ⟨liftExpr_packs second state, fun named => liftExpr_var? named state⟩
    have lifted : Always (fun value => (Stmt.assign acc value).Packs reductions)
        (liftExpr written (.binary op left right)) := by
      unfold liftExpr
      rw [fixed]
      refine one.bind fun _ one => two.bind fun _ two => .pure ?_
      exact ⟨member, known, updates.imp one.2 two.2, one.1, two.1⟩
    exact lifted.bind fun _ done => .pure done

theorem liftBlock_packs : ∀ {body : List Stmt},
    (∀ stmt ∈ body, stmt.Packs reductions) → (∀ stmt ∈ body, ∀ id ∈ stmt.ownWrites, id ∈ written) →
      Always (fun after => ∀ stmt ∈ after, stmt.Packs reductions) (liftBlock written body)
  | [], _, _ => .pure nofun
  | _ :: _, packs, writes => by
    refine .bind (liftStmt_packs (packs _ (.head _)) (writes _ (.head _)))
      fun _ first => ?_
    refine .bind (liftBlock_packs (fun stmt member => packs stmt (.tail _ member))
      fun stmt member => writes stmt (.tail _ member)) fun _ others => ?_
    exact .pure (List.forall_mem_cons.2 ⟨first, others⟩)

end Packed

mutual

/-- A statement of a loop stays well formed when the parts of it that the loop does not change are
moved out. -/
theorem yields_liftStmt {domain : Domain} {place : Place} {stmt : Stmt}
    (formed : stmt.Formed domain place)
    (writes : ∀ node ∈ stmt.nodes, ∀ id ∈ node.ownWrites, id ∈ written) :
    Yields (Moves start) domain (fun large after => after.Formed large place)
      (liftStmt written stmt) := by
  match stmt with
  | .assign _ _ =>
    refine .bind (yields_liftExpr formed.2) fun _ within value => .pure ?_
    exact ⟨value.2 ▸ formed.1.grow within, value.1⟩
  | .store _ _ _ =>
    refine .bind (yields_liftExpr formed.2.1.1) fun _ one index => ?_
    refine .bind (yields_liftExpr (formed.2.2.grow one)) fun _ two value => .pure ?_
    have index := index.grow two
    exact ⟨⟨value.2 ▸ formed.1.1.grow (one.trans two), formed.1.2⟩,
      ⟨index.1, index.2.trans formed.2.1.2⟩, value.1⟩
  | .eval value =>
    have held : value.Formed _ := formed
    exact .bind (yields_liftExpr held) fun _ _ value => .pure value.1
  | .branch _ _ _ =>
    refine .bind (yields_liftExpr formed.1.1) fun _ one cond => ?_
    refine .bind (yields_liftBlock (formed.2.1.grow one) fun node member =>
      writes node (by simp [Stmt.nodes, member])) fun _ two yes => ?_
    refine .bind (yields_liftBlock (formed.2.2.grow (one.trans two)) fun node member =>
      writes node (by simp [Stmt.nodes, member])) fun _ three no => .pure ?_
    have cond := cond.grow (two.trans three)
    exact ⟨⟨cond.1, cond.2.trans formed.1.2⟩, yes.grow three, no⟩
  | .whileLoop _ _ _ =>
    refine .bind (yields_liftExpr formed.1.1) fun _ one cond => ?_
    refine .bind (yields_liftBlock (formed.2.grow one) fun node member =>
      writes node (.tail _ member)) fun _ two inner => .pure ?_
    have cond := cond.grow two
    exact ⟨⟨cond.1, cond.2.trans formed.1.2⟩, inner⟩
  | .forLoop head _ =>
    have kept : Always (fun value => head.exitValue = true → value = .var head.var .int)
        (liftExpr written head.start) := by
      intro moving keeps
      rw [formed.1.resumes keeps, liftExpr_var]
      rfl
    refine .bind ((yields_liftExpr formed.1.start.1).always kept) fun _ one ⟨first, resumes⟩ => ?_
    refine .bind (yields_liftExpr (formed.1.stop.grow one).1) fun _ two stop => ?_
    refine .bind (yields_liftExpr (formed.1.step.grow (one.trans two)).1) fun _ three step => ?_
    refine .bind (yields_liftBlock (formed.2.grow ((one.trans two).trans three)) fun node member =>
      writes node (.tail _ member)) fun _ four inner => .pure ?_
    have first := first.grow (two.trans (three.trans four))
    have stop := stop.grow (three.trans four)
    have step := step.grow four
    have counter := formed.1.counter.grow (one.trans (two.trans (three.trans four)))
    exact ⟨⟨counter, ⟨first.1, first.2.trans formed.1.start.2⟩, ⟨stop.1, stop.2.trans formed.1.stop.2⟩,
      ⟨step.1, step.2.trans formed.1.step.2⟩, resumes⟩, inner⟩
  | .giveBack (some (.scalar _)) =>
    refine .bind (yields_liftExpr formed.1.1) fun _ within value => .pure ?_
    refine ⟨⟨value.1, ?_⟩, formed.2⟩
    rw [within.result, value.2]
    exact formed.1.2
  | .block _ body =>
    have held : BlockFormed _ _ body := formed
    exact .bind (yields_liftBlock held fun node member =>
      writes node (.tail _ member)) fun _ _ inner => .pure inner
  | .vector head body =>
    have kept : Always (fun after => head.form = .packed → ∀ stmt ∈ after,
        stmt.Packs head.reductions) (liftBlock written body) := by
      intro moving isPacked
      refine liftBlock_packs (formed.2.1 isPacked) (fun stmt member => writes stmt ?_) moving
      exact .tail _ (Stmt.mem_blockNodes.2 ⟨stmt, member, stmt.self_mem_nodes⟩)
    refine .bind (yields_liftExpr formed.1.1.start.1) fun _ one first => ?_
    refine .bind (yields_liftExpr (formed.1.1.stop.grow one).1) fun _ two stop => ?_
    refine .bind ((yields_liftBlock (formed.2.2.grow (one.trans two)) fun node member =>
      writes node (.tail _ member)).always kept) fun _ three ⟨inner, packs⟩ => .pure ?_
    have first := first.grow (two.trans three)
    have stop := stop.grow three
    have grown := formed.1.1.grow ((one.trans two).trans three)
    exact ⟨⟨{ grown with
      start := ⟨first.1, first.2.trans formed.1.1.start.2⟩
      stop := ⟨stop.1, stop.2.trans formed.1.1.stop.2⟩ }, formed.1.2⟩, packs, inner⟩
  | .parallel _ _ =>
    refine .bind (yields_liftExpr formed.1.1.start.1) fun _ one first => ?_
    refine .bind (yields_liftExpr (formed.1.1.stop.grow one).1) fun _ two stop => .pure ?_
    have first := first.grow two
    have grown := formed.1.1.grow (one.trans two)
    exact ⟨⟨{ grown with
      start := ⟨first.1, first.2.trans formed.1.1.start.2⟩
      stop := ⟨stop.1, stop.2.trans formed.1.1.stop.2⟩ }, formed.1.2⟩, formed.2.grow (one.trans two)⟩
  | .leave | .skip | .exit _ | .giveBack none | .giveBack (some (.array _)) => exact .pure formed

theorem yields_liftBlock {domain : Domain} {place : Place} {body : List Stmt}
    (formed : BlockFormed domain place body)
    (writes : ∀ node ∈ Stmt.blockNodes body, ∀ id ∈ node.ownWrites, id ∈ written) :
    Yields (Moves start) domain (fun large after => BlockFormed large place after)
      (liftBlock written body) := by
  match body with
  | [] => exact .pure blockFormed_nil
  | _ :: _ =>
    refine .bind (yields_liftStmt formed.1 fun node member =>
      writes node (by simp [Stmt.blockNodes, member])) fun _ within first => ?_
    refine .bind (yields_liftBlock (formed.2.grow within) fun node member =>
      writes node (by simp [Stmt.blockNodes, member])) fun _ further others => .pure ?_
    exact ⟨first.grow further, others⟩

end

theorem mem_writtenLocals (member : node ∈ Stmt.blockNodes body) :
    ∀ id ∈ node.ownWrites, id ∈ Stmt.writtenLocals body :=
  fun _ own => List.mem_flatMap.2 ⟨node, member, own⟩

theorem yields_liftedWhile (span : Span) (test : cond.Has domain .bool)
    (inner : BlockFormed domain place.inLoop body) :
    Yields (Moves start) domain (fun large (after : Stmt) => after.Formed large place) (do
      return .whileLoop (← liftExpr (Stmt.writtenLocals body) cond)
        (← liftBlock (Stmt.writtenLocals body) body) span) := by
  refine .bind (yields_liftExpr test.1) fun _ one first => ?_
  refine .bind (yields_liftBlock (inner.grow one) fun _ member => mem_writtenLocals member)
    fun _ two lifted => .pure ?_
  have first := first.grow two
  exact ⟨⟨first.1, first.2.trans test.2⟩, lifted⟩

theorem yields_liftedFor (counts : head.Formed domain)
    (inner : BlockFormed domain place.inLoop body) :
    Yields (Moves start) domain (fun large (after : Stmt) => after.Formed large place) (do
      return .forLoop head (← liftBlock (head.var :: Stmt.writtenLocals body) body)) := by
  refine .bind (yields_liftBlock inner fun _ member id own =>
    List.mem_cons_of_mem _ (mem_writtenLocals member id own)) fun _ one lifted => .pure ?_
  exact ⟨counts.grow one, lifted⟩

theorem yields_withMoved {lift : StateM Moving Stmt}
    (lifts : Yields (Moves start) domain (fun large after => after.Formed large place) lift) :
    Yields (Hosts start) domain (fun large after => BlockFormed large place after)
      (withMoved lift) := by
  intro work hosts
  obtain ⟨large, within, moves, formed⟩ :=
    lifts ⟨work.routine, []⟩ ⟨hosts.locals, hosts.gains, fun _ => blockFormed_nil⟩
  exact ⟨large, within, ⟨moves.locals, moves.gains⟩,
    blockFormed_append.2 ⟨moves.moved place, formed, blockFormed_nil⟩⟩

theorem hoistedBlock_of_packs (packs : ∀ stmt ∈ body, stmt.Packs reductions) :
    hoistedBlock body = pure body :=
  packs_induction (fun body => hoistedBlock body = pure body) rfl
    (fun same => by rw [hoistedBlock, same]; rfl) (fun same => by rw [hoistedBlock, same]; rfl) packs

mutual

theorem yields_hoisted {domain : Domain} {place : Place} {stmt : Stmt}
    (formed : stmt.Formed domain place) :
    Yields (Hosts start) domain (fun large after => BlockFormed large place after) (hoisted stmt) :=
      by
  unfold hoisted
  match stmt with
  | .branch _ _ _ =>
    refine .bind (yields_hoistedBlock formed.2.1) fun _ one yes => ?_
    refine .bind (yields_hoistedBlock (formed.2.2.grow one)) fun _ two no => .pure ?_
    exact ⟨⟨formed.1.grow (one.trans two), yes.grow two, no⟩, blockFormed_nil⟩
  | .whileLoop _ _ span =>
    exact .bind (yields_hoistedBlock formed.2) fun _ one inner =>
      yields_withMoved (yields_liftedWhile span (formed.1.grow one) inner)
  | .forLoop _ _ =>
    exact .bind (yields_hoistedBlock formed.2) fun _ one inner =>
      yields_withMoved (yields_liftedFor (formed.1.grow one) inner)
  | .block _ body =>
    have held : BlockFormed _ _ body := formed
    exact .bind (yields_hoistedBlock held) fun _ _ inner => .pure ⟨inner, blockFormed_nil⟩
  | .vector head body =>
    have kept : Always (fun after => head.form = .packed → after = body) (hoistedBlock body) := by
      intro work isPacked
      rw [hoistedBlock_of_packs (formed.2.1 isPacked)]
      rfl
    refine .bind ((yields_hoistedBlock formed.2.2).always kept) fun _ one ⟨inner, same⟩ => .pure ?_
    refine ⟨⟨⟨formed.1.1.grow one, formed.1.2⟩, fun isPacked => ?_, inner⟩, blockFormed_nil⟩
    rw [same isPacked]
    exact formed.2.1 isPacked
  | .assign _ _ | .store _ _ _ | .eval _ | .leave | .skip | .giveBack _ | .exit _ | .parallel _ _ =>
    exact .pure ⟨formed, blockFormed_nil⟩

theorem yields_hoistedBlock {domain : Domain} {place : Place} {body : List Stmt}
    (formed : BlockFormed domain place body) :
    Yields (Hosts start) domain (fun large after => BlockFormed large place after)
      (hoistedBlock body) := by
  match body with
  | [] => exact .pure blockFormed_nil
  | _ :: _ =>
    refine .bind (yields_hoisted formed.1) fun _ one first => ?_
    refine .bind (yields_hoistedBlock (formed.2.grow one)) fun _ two others => .pure ?_
    exact blockFormed_append.2 ⟨first.grow two, others⟩

end

end Motion

section Lowering

variable {start : Routine} {domain : Domain}

mutual

/-- What does not keep a loop from being lowered may stand in a lowered loop. -/
theorem Stmt.Formed.sealed {place : Place} {stmt : Stmt}
    (free : ∀ node ∈ stmt.nodes, splitObstacle? node = none) (formed : stmt.Formed domain place) :
    stmt.Formed domain place.sealed := by
  match stmt with
  | .branch _ _ _ =>
    exact ⟨formed.1, formed.2.1.sealed fun _ member => free _ (by simp [Stmt.nodes, member]),
      formed.2.2.sealed fun _ member => free _ (by simp [Stmt.nodes, member])⟩
  | .forLoop _ _ =>
    exact ⟨formed.1, formed.2.sealed fun _ member => free _ (by simp [Stmt.nodes, member])⟩
  | .block _ body =>
    have held : BlockFormed domain _ body := formed
    exact held.sealed fun _ member => free _ (by simp [Stmt.nodes, member])
  | .assign _ _ | .store _ _ _ | .eval _ | .skip | .exit _ => exact formed
  | .leave | .giveBack _ | .whileLoop _ _ _ | .vector _ _ | .parallel _ _ =>
    exact nomatch free _ (Stmt.self_mem_nodes _)

theorem BlockFormed.sealed : ∀ {place : Place} {body : List Stmt},
    (∀ node ∈ Stmt.blockNodes body, splitObstacle? node = none) → BlockFormed domain place body →
      BlockFormed domain place.sealed body
  | _, [], _, _ => blockFormed_nil
  | _, _ :: _, free, formed =>
    ⟨formed.1.sealed fun _ member => free _ (by simp [Stmt.blockNodes, member]),
      formed.2.sealed fun _ member => free _ (by simp [Stmt.blockNodes, member])⟩

end

variable {routine : Routine} {place : Place} {head : ForHead} {body : List Stmt}
  {lowering : Lowering} {reads : List LocalId} {use : LoopUse}

theorem declares_reduction (same : domain.locals = routine.locals)
    (formed : BlockFormed domain place body)
    (accepted : loopUse routine head body lowering reads = .ok use) :
    ∀ reduction ∈ use.reductions, domain.Declares reduction.acc (.scalar reduction.type) := by
  intro reduction member
  have found := accepted_of_loopUse accepted
  obtain ⟨node, present, own⟩ := List.mem_flatMap.1 (found.written reduction member)
  obtain ⟨_, _, held⟩ := formed.nodes _ present
  obtain ⟨type, declared⟩ := held.writes _ own
  rw [← found.declared reduction member, kind_of_declares same declared]
  exact declared

theorem declares_invariant (formed : BlockFormed domain place body)
    (accepted : loopUse routine head body lowering reads = .ok use) :
    ∀ id ∈ use.invariants, ∃ type, domain.Declares id (.scalar type) := by
  intro id member
  obtain ⟨part, among, named⟩ := List.mem_filterMap.1
    ((examined_of_loopUse accepted).mem_invariants.1 member).1
  obtain ⟨node, present, inside⟩ := List.mem_flatMap.1 among
  obtain ⟨expr, own, here⟩ := List.mem_flatMap.1 inside
  obtain ⟨_, _, held⟩ := formed.nodes _ present
  have read := (held.expr expr own).parts _ here
  cases part with
  | var other type =>
    cases named
    exact ⟨type, read⟩
  | _ => cases named

theorem declares_array (formed : BlockFormed domain place body)
    (accepted : loopUse routine head body lowering reads = .ok use) :
    ∀ id ∈ use.arrays, ∃ element, domain.Declares id (.array element) := by
  intro id member
  obtain ⟨node, present, named⟩ := (examined_of_loopUse accepted).mem_arrays.1 member
  obtain ⟨_, _, held⟩ := formed.nodes _ present
  obtain ⟨index, value, rfl⟩ | ⟨expr, own, part, inside, unnamed, callFree, among⟩ := named
  · exact ⟨_, held.1.1⟩
  · have read := (held.expr expr own).parts _ inside
    cases part with
    | index array element position =>
      cases List.mem_singleton.1 among
      exact ⟨element, read.1⟩
    | len array =>
      cases List.mem_singleton.1 among
      exact read
    | var _ _ => cases unnamed
    | call _ _ _ => cases callFree
    | _ => cases among

/-- A loop that may run over chunks is well formed with its new head and the two ends of a chunk. -/
theorem yields_outline (mayLower : ¬ place.rule.unlowered) (same : domain.locals = routine.locals)
    (formed : head.Formed domain) (inner : BlockFormed domain place.inLoop body)
    (accepted : loopUse routine head body .parallel reads = .ok use) :
    Yields (Hosts start) domain (fun large after => after.Formed large place)
      (outline head body use) := by
  have captures := declares_invariant inner accepted
  have arrays := declares_array inner accepted
  have accumulators := declares_reduction same inner accepted
  have kernel : BlockFormed domain place.kernel.inLoop body :=
    inner.sealed (examined_of_loopUse accepted).unobstructed
  refine .bind (yields_addTemp _ _) fun low one lower => ?_
  refine .bind (yields_addTemp _ _) fun high two upper => ?_
  refine .bind (.still fun _ hosts => hosts) fun _ three _ => ?_
  refine .bind (yields_note _) fun _ four _ => .pure ?_
  have later := three.trans four
  have lower := lower.grow (two.trans later)
  have upper := upper.grow later
  have within := (one.trans two).trans later
  refine ⟨⟨{
    counter := formed.counter.grow within
    start := formed.start.grow within
    stop := formed.stop.grow within
    lower := lower
    upper := upper
    captures := fun id member => (captures id member).imp fun _ held => held.grow within
    arrays := fun id member => (arrays id member).imp fun _ held => held.grow within
    accumulator := fun reduction member =>
      (accumulators reduction (List.mem_of_head? member)).grow within }, mayLower⟩, ?_,
    kernel.grow within⟩
  exact ⟨formed.counter.grow within, Expr.has_var lower, Expr.has_var upper, Expr.has_int, nofun⟩

theorem chunkedBlock_of_packs (packs : ∀ stmt ∈ body, stmt.Packs reductions) :
    chunkedBlock reads body = pure body :=
  packs_induction (fun body => chunkedBlock reads body = pure body) rfl
    (fun same => by rw [chunkedBlock, same]; rfl) (fun same => by rw [chunkedBlock, same]; rfl) packs

mutual

theorem yields_chunked {domain : Domain} {place : Place} {stmt : Stmt}
    (formed : stmt.Formed domain place) (mayLower : ¬ place.rule.unlowered) :
    Yields (Hosts start) domain (fun large after => after.Formed large place) (chunked reads stmt)
      := by
  match stmt with
  | .forLoop _ _ =>
    refine .bind (fun work hosts => ⟨_, .refl, hosts, hosts⟩) fun work one (hosts : Hosts start _ work) => ?_
    split
    · rename_i use accepted
      exact yields_outline mayLower hosts.locals.symm (formed.1.grow one) (formed.2.grow one) accepted
    · refine .bind (yields_note _) fun _ two _ => ?_
      refine .bind (yields_chunkedBlock (formed.2.grow (one.trans two)) mayLower) fun _ three inner => .pure ?_
      exact ⟨formed.1.grow ((one.trans two).trans three), inner⟩
  | .branch _ _ _ =>
    refine .bind (yields_chunkedBlock formed.2.1 mayLower) fun _ one yes => ?_
    refine .bind (yields_chunkedBlock (formed.2.2.grow one) mayLower) fun _ two no => .pure ?_
    exact ⟨formed.1.grow (one.trans two), yes.grow two, no⟩
  | .whileLoop _ _ _ =>
    refine .bind (yields_chunkedBlock formed.2 mayLower) fun _ one inner => .pure ?_
    exact ⟨formed.1.grow one, inner⟩
  | .block _ body =>
    have held : BlockFormed _ _ body := formed
    exact .bind (yields_chunkedBlock held mayLower) fun _ _ inner => .pure inner
  | .vector head body =>
    have kept : Always (fun after => head.form = .packed → after = body)
        (chunkedBlock reads body) := by
      intro work isPacked
      rw [chunkedBlock_of_packs (formed.2.1 isPacked)]
      rfl
    refine .bind ((yields_chunkedBlock formed.2.2 mayLower).always kept) fun _ one ⟨inner, same⟩ => .pure ?_
    refine ⟨⟨formed.1.1.grow one, formed.1.2⟩, fun isPacked => ?_, inner⟩
    rw [same isPacked]
    exact formed.2.1 isPacked
  | .assign _ _ | .store _ _ _ | .eval _ | .leave | .skip | .giveBack _ | .exit _ | .parallel _ _ =>
    exact .pure formed

theorem yields_chunkedBlock {domain : Domain} {place : Place} {body : List Stmt}
    (formed : BlockFormed domain place body) (mayLower : ¬ place.rule.unlowered) :
    Yields (Hosts start) domain (fun large after => BlockFormed large place after)
      (chunkedBlock reads body) := by
  match body with
  | [] => exact .pure blockFormed_nil
  | _ :: _ =>
    refine .bind (yields_chunked formed.1 mayLower) fun _ one first => ?_
    refine .bind (yields_chunkedBlock (formed.2.grow one) mayLower) fun _ two others => .pure ?_
    exact ⟨first.grow two, others⟩

end

section Packing

theorem packs_of_isPackable {expr : Expr} (packable : isPackable routine var invariants expr = true)
    : expr.Packs := by
  match expr with
  | .const (.float _) => exact trivial
  | .var _ _ => exact trivial
  | .index _ _ position =>
    simp only [isPackable, Bool.and_eq_true] at packable
    cases position with
    | var id type => exact ⟨id, type, rfl⟩
    | _ => cases packable.2
  | .binary _ _ _ =>
    simp only [isPackable, Bool.and_eq_true] at packable
    exact ⟨packable.1.1.2, packs_of_isPackable packable.1.2, packs_of_isPackable packable.2⟩
  | .unary .neg operand =>
    simp only [isPackable, Bool.and_eq_true] at packable
    have held : operand.Packs := packs_of_isPackable packable.2
    exact held

theorem isPackedOp_of_updateOp? {op : ArithOp} {update : ReductionOp}
    (updates : updateOp? acc (.binary op left right) = some update) : isPackedOp op = true := by
  unfold updateOp? at updates
  cases op <;> simp_all [isPackedOp]

theorem packs_of_isPackedLoop (accepted : loopUse routine head body lowering reads = .ok use)
    (packed : isPackedLoop routine head body use = true) :
    ∀ stmt ∈ body, stmt.Packs use.reductions := by
  intro stmt member
  simp only [isPackedLoop, Bool.and_eq_true, List.all_eq_true] at packed
  have packable := packed.2 stmt member
  have present : stmt ∈ Stmt.blockNodes body :=
    Stmt.mem_blockNodes.2 ⟨stmt, member, stmt.self_mem_nodes⟩
  unfold isPackableStmt at packable
  split at packable
  · rename_i array index value
    simp only [Bool.and_eq_true] at packable
    refine ⟨?_, packs_of_isPackable packable.2⟩
    cases index with
    | var id type => exact ⟨id, type, rfl⟩
    | _ => cases packable.1.2
  · rename_i acc value
    obtain ⟨listed, updates⟩ := Bool.and_eq_true_iff.1 packable
    obtain ⟨reduction, among, same⟩ := List.any_eq_true.1 listed
    obtain rfl : reduction.acc = acc := of_decide_eq_true same
    have update := (accepted_of_loopUse accepted).updates among present (if_pos rfl)
    unfold isPackableUpdate at updates
    split at updates
    · rename_i op left right
      refine ⟨⟨reduction, among, rfl⟩, isPackedOp_of_updateOp? update, ?_⟩
      split at updates
      · rename_i named
        refine ⟨.inl named, ?_, packs_of_isPackable updates⟩
        cases left with
        | var _ _ => trivial
        | _ => cases named
      · split at updates
        · rename_i named
          refine ⟨.inr named, packs_of_isPackable updates, ?_⟩
          cases right with
          | var _ _ => trivial
          | _ => cases named
        · cases updates
    · cases updates
  · cases packable

end Packing

theorem Stmt.Formed.vectorize (mayLower : ¬ place.rule.unlowered)
    (same : domain.locals = routine.locals) (formed : head.Formed domain)
    (inner : BlockFormed domain place.inLoop body)
    (accepted : loopUse routine head body .vector reads = .ok use) :
    (Passes.vectorize routine width head body use).2.Formed domain place := by
  have accumulators := declares_reduction same inner accepted
  have lowered : BlockFormed domain place.inLowered body :=
    inner.sealed (examined_of_loopUse accepted).unobstructed
  have headed (form : VectorForm) (arrays : List LocalId) : VectorHead.Formed domain
      ⟨head.var, head.start, head.stop, use.reductions, form, arrays, head.span⟩ :=
    ⟨formed.counter, formed.start, formed.stop, accumulators⟩
  unfold Passes.vectorize
  split
  · rename_i packed
    exact ⟨⟨headed .packed use.arrays, mayLower⟩, fun _ => packs_of_isPackedLoop accepted packed, lowered⟩
  · exact ⟨⟨headed (.lanes width) [], mayLower⟩, nofun, lowered⟩

theorem lanedBlock_of_packs (packs : ∀ stmt ∈ body, stmt.Packs reductions) :
    (lanedBlock routine width reads body).2 = body :=
  packs_induction (fun body => (lanedBlock routine width reads body).2 = body) rfl
    (congrArg (List.cons _)) (congrArg (List.cons _)) packs

variable {width : Nat} (same : domain.locals = routine.locals)

include same

set_option linter.unusedSectionVars false in
mutual

theorem Stmt.Formed.laned {place : Place} {stmt : Stmt} (formed : stmt.Formed domain place)
    (mayLower : ¬ place.rule.unlowered) :
    (Passes.laned routine width reads stmt).2.Formed domain place := by
  match stmt with
  | .forLoop _ _ =>
    unfold Passes.laned
    split
    · split
      · rename_i accepted
        exact Stmt.Formed.vectorize mayLower same formed.1 formed.2 accepted
      · exact formed
    · exact ⟨formed.1, formed.2.laned mayLower⟩
  | .branch _ _ _ =>
    exact ⟨formed.1, formed.2.1.laned mayLower, formed.2.2.laned mayLower⟩
  | .whileLoop _ _ _ | .parallel _ _ => exact ⟨formed.1, formed.2.laned mayLower⟩
  | .block _ body =>
    have held : BlockFormed domain _ body := formed
    exact held.laned mayLower
  | .vector _ _ =>
    exact ⟨formed.1, fun isPacked => by
      rw [lanedBlock_of_packs (formed.2.1 isPacked)]
      exact formed.2.1 isPacked, formed.2.2.laned mayLower⟩
  | .assign _ _ | .store _ _ _ | .eval _ | .leave | .skip | .giveBack _ | .exit _ => exact formed

theorem BlockFormed.laned :
    ∀ {place : Place} {body : List Stmt}, BlockFormed domain place body → ¬ place.rule.unlowered →
      BlockFormed domain place (lanedBlock routine width reads body).2
  | _, [], _, _ => blockFormed_nil
  | _, _ :: _, formed, mayLower => ⟨formed.1.laned mayLower, formed.2.laned mayLower⟩

end

end Lowering

end TwoTier.Typed
