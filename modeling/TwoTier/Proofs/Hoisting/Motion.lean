import TwoTier.Proofs.Forms.Eligible
import TwoTier.Proofs.Hoisting.Lifting
import TwoTier.Proofs.Hoisting.Supplanting

namespace TwoTier

open Typed (BlockFormed Body BodyFormed Domain Hosts LocalId Moves Profile Routine RoutineIndex
  Stmt mem_writtenLocals yields_hoistedBlock yields_liftedFor yields_liftedWhile)

open Passes (Moving hoisted hoistedBlock withMoved)

namespace Native

theorem aligned_below :
    Aligned domain (fun _ => True) (AgreeBelow domain.locals.length) where
  below agree := agree
  share shared agree := agree.share shared
  write _ _ agree := agree.write _ _

section Motion

variable {start routine : Routine} {original full : Domain} {contents : Contents} {ctx : Context}
  (twins : SameCode True full contents ctx ctx)

include twins

theorem yields_motion (written : List LocalId) {lift : StateM Moving Stmt} (plain : Stmt)
    {step : Step Machine Flow} (flat : place.rule.unlowered) (small : original.Within domain)
    (forms : Typed.Yields (Moves start) domain (fun large after => after.Formed large place) lift)
    (lifts : domain.Within full → ∀ entry : Machine, entry.shared.contents = contents → Lifts domain
      written (fun final lifted => StandsIn domain full contents written ctx entry (exec ctx plain)
      final (exec ctx lifted)) lift)
    (alike : domain.Within full → (suiting (AgreeBelow original.locals.length) full contents).Alike
      step (exec ctx plain)) :
    Typed.Yields (Hosts start) domain (fun large after => large.Within full →
        (suiting (AgreeBelow original.locals.length) full contents).Alike step (execBlock ctx after))
      (withMoved lift) := by
  intro work hosts
  obtain ⟨large, within, moves, formed⟩ :=
    forms ⟨work.routine, []⟩ ⟨hosts.locals, hosts.gains, fun _ => Typed.blockFormed_nil⟩
  refine ⟨large, within, ⟨moves.locals, moves.gains⟩, fun fits => ?_⟩
  have inFull := within.trans fits
  have built : BlockFormed large place ((withMoved lift).run work).1 :=
    Typed.blockFormed_append.2 ⟨moves.moved place, formed, Typed.blockFormed_nil⟩
  refine alike_of_fitting ⟨fun {machine twin} suited => ?_⟩
    (fitting_execBlock twins flat (built.grow fits))
  obtain ⟨stocked, -, stands⟩ := lifts inFull twin suited.2.typed ⟨work.routine, []⟩
    ⟨congrArg List.length hosts.locals, .nil⟩
  have size : domain.locals.length ≤ twin.slots.size := by
    rw [suited.2.room.1]
    exact inFull.locals.length_le
  have room := stocked.room
  rw [moves.locals] at room
  obtain ⟨later, ran, kept, temps⟩ := exec_moved ctx inFull suited.2 stocked.moved .refl
    (by rw [← room, suited.2.room.1]; exact fits.locals.length_le)
    ⟨rfl, suited.2.untracked, ⟨size, size⟩, fun _ _ => rfl⟩
  have carries : Carries domain written _ ctx.call twin later twin :=
    ⟨kept, fun _ _ => rfl, fun member => ⟨(stocked.moved.part member).1, temps member⟩⟩
  have moved := (stands _ stocked.moved (List.Subset.refl _)).run ⟨carries, suited.2⟩
  have runs : execBlock ctx ((withMoved lift).run work).1 twin =
      exec ctx (lift.run ⟨work.routine, []⟩).1 later := by
    change execBlock ctx ((lift.run ⟨work.routine, []⟩).2.moved ++ [_]) twin = _
    rw [execBlock_append, Step.bind_apply, Step.bind, ran]
    exact congrFun (execBlock_singleton _) later
  rw [runs]
  refine (((alike inFull).run suited).trans moved.symm).weaken ?_
  rintro _ _ _ ⟨middle, first, second⟩
  exact first.1.trans (second.1.below.mono small.locals.length_le).symm

variable (result : ctx.routine.result = routine.result)
  (decls : ∀ {id}, id < original.locals.length → ctx.routine.decl id = routine.decl id)

include result decls

set_option linter.unusedSectionVars false in
mutual

theorem hoists_stmt {domain : Domain} {place : Passes.Place} {stmt : Stmt}
    (flat : place.rule.unlowered) (small : original.Within domain)
    (formed : stmt.Formed original place) :
    Typed.Yields (Hosts start) domain (fun large after => large.Within full →
      (suiting (AgreeBelow original.locals.length) full contents).Alike
      (exec { ctx with routine } stmt) (execBlock ctx after)) (hoisted stmt) := by
  unfold hoisted
  match stmt with
  | .branch _ _ _ =>
    refine .bind (hoists_block flat small formed.2.1) fun _ one yes =>
      .bind (hoists_block flat (small.trans one) formed.2.2) fun _ two no => .pure fun fits => ?_
    rw [execBlock_singleton]
    refine .branch ?_ (yes (two.trans fits)) (no fits)
    exact aligned_below.eval (small.trans (one.trans (two.trans fits))) twins.calls formed.1.1
  | .whileLoop cond _ span =>
    have inside : place.inLoop.rule.unlowered := flat
    refine .bind ((hoists_block inside small formed.2).and
      (yields_hoistedBlock (formed.2.grow small))) fun body one ⟨alike, inner⟩ => ?_
    have grown := small.trans one
    have test := formed.1.grow grown
    refine yields_motion twins (Stmt.writtenLocals body) (.whileLoop cond body span) flat
      grown (yields_liftedWhile span test inner) (fun fits entry typed => ?_) fun fits => ?_
    · exact .bind (lifts_liftExpr fits twins.calls typed test.1) fun _ =>
        .bind (lifts_liftBlock fits typed twins inside inner fun _ => mem_writtenLocals) fun _ =>
          .pure fun _ _ body test => test.repeated (.inl rfl) span body
    · refine .repeated ?_ ?_ span (alike fits)
      · exact aligned_below.eval (grown.trans fits) twins.calls formed.1.1
      · exact .inl rfl
  | .forLoop head _ =>
    have inside : place.inLoop.rule.unlowered := flat
    refine .bind ((hoists_block inside small formed.2).and
      (yields_hoistedBlock (formed.2.grow small))) fun body one ⟨alike, inner⟩ => ?_
    have grown := small.trans one
    have counts := formed.1.grow grown
    refine yields_motion twins (head.var :: Stmt.writtenLocals body) (.forLoop head body) flat
      grown (yields_liftedFor counts inner) (fun fits entry typed => ?_) fun fits => ?_
    · have may : Writable _ (head.var :: Stmt.writtenLocals body) head.var :=
        ⟨.head _, _, counts.counter⟩
      exact .bind (lifts_liftBlock fits typed twins inside inner fun _ member id own =>
        List.mem_cons_of_mem _ (mem_writtenLocals member id own)) fun _ => .pure fun _ _ body =>
          .forLoop (.inl rfl) (aligned_carries.counts fits counts.counter may)
            (aligned_carries.eval fits twins.calls counts.start.1)
            (aligned_carries.eval fits twins.calls counts.stop.1)
            (aligned_carries.eval fits twins.calls counts.step.1) body
    · have inFull := grown.trans fits
      refine .forLoop ?_ (aligned_below.counts inFull formed.1.counter trivial) ?_ ?_ ?_ (alike fits)
      · exact .inl rfl
      · exact aligned_below.eval inFull twins.calls formed.1.start.1
      · exact aligned_below.eval inFull twins.calls formed.1.stop.1
      · exact aligned_below.eval inFull twins.calls formed.1.step.1
  | .block label body =>
    have held : BlockFormed original (place.inBlock label) body := formed
    have inside : (place.inBlock label).rule.unlowered := flat
    refine .bind (hoists_block inside small held) fun _ _ inner => .pure fun fits => ?_
    rw [execBlock_singleton]
    exact (inner fits).block label
  | .assign _ _ =>
    refine .pure fun fits => ?_
    rw [execBlock_singleton]
    exact aligned_below.assign (small.trans fits) twins flat
      (aligned_below.eval (small.trans fits) twins.calls formed.2) trivial formed
  | .store _ _ _ =>
    refine .pure fun fits => ?_
    rw [execBlock_singleton]
    exact aligned_below.storage (small.trans fits) twins flat
      (aligned_below.eval (small.trans fits) twins.calls formed.2.2)
      (aligned_below.eval (small.trans fits) twins.calls formed.2.1.1) formed
  | .eval value =>
    have held : value.Formed original := formed
    refine .pure fun fits => ?_
    rw [execBlock_singleton]
    exact (aligned_below.eval (small.trans fits) twins.calls held).evaluation
  | .giveBack value =>
    refine .pure fun fits => ?_
    rw [execBlock_singleton, exec, exec]
    refine .bind (.resultOf result (fun same => ?_) fun expr member => ?_) fun _ => .pure _
    · subst same
      obtain ⟨⟨-, decl, position, found, -⟩, -⟩ := formed
      exact congrArg _ (decls (List.getElem?_eq_some_iff.1 found).1)
    · exact aligned_below.eval (small.trans fits) twins.calls (Stmt.Formed.expr formed _ member)
  | .leave | .skip | .exit _ =>
    refine .pure fun _ => ?_
    rw [execBlock_singleton, exec, exec]
    exact .pure _
  | .vector _ _ | .parallel _ _ => exact (formed.1.2 flat).elim

theorem hoists_block {domain : Domain} {place : Passes.Place} {body : List Stmt}
    (flat : place.rule.unlowered) (small : original.Within domain)
    (formed : BlockFormed original place body) :
    Typed.Yields (Hosts start) domain (fun large after => large.Within full →
      (suiting (AgreeBelow original.locals.length) full contents).Alike
      (execBlock { ctx with routine } body) (execBlock ctx after)) (hoistedBlock body) := by
  unfold hoistedBlock
  match body with
  | [] =>
    refine .pure fun _ => ?_
    rw [execBlock, execBlock]
    exact .pure _
  | _ :: _ =>
    refine .bind (hoists_stmt flat small formed.1) fun _ one first =>
      .bind (hoists_block flat (small.trans one) formed.2) fun _ two others => .pure fun fits => ?_
    rw [execBlock_cons, execBlock_append]
    refine .bind (first (two.trans fits)) fun flow => ?_
    cases flow with
    | next => exact others fits
    | leave | skip | giveBack | exit => exact .pure _

end

end Motion

section Calls

variable {profile? : RoutineIndex → Option Profile} {rule : Passes.Rule} {routine changed : Routine}
  {contents : Contents} {call other : Callee}

theorem Supplants.hoisted (formed : routine.Formed profile? rule) (flat : rule.unlowered) :
    Supplants profile? routine (Passes.hoistInvariants routine).2 := by
  have rebuilt := formed.rebuilt (yields_hoistedBlock formed.body)
  obtain ⟨large, within, hosts, -⟩ := yields_hoistedBlock formed.body { routine } ⟨rfl, .refl⟩
  obtain rfl := hosts.domain_eq within
  refine ⟨⟨hosts.gains.locals, hosts.gains.params, hosts.gains.argKinds, hosts.gains.result,
    hosts.gains.effects⟩, rebuilt.1.params, fun {contents call other machine twin} limits calls fits
      also agree => ?_⟩
  let ctx : Context := ⟨(Passes.hoistInvariants routine).2, other, limits.fuel, limits.leastChunk,
    limits.targetChunks⟩
  have twins : SameCode True ((Passes.hoistInvariants routine).2.domain profile?) contents ctx ctx :=
    ⟨⟨rfl, rfl⟩, ⟨rfl, rfl⟩, rfl, calls.twin⟩
  have decls {id : LocalId} (inside : id < routine.locals.length) :
      (Passes.hoistInvariants routine).2.decl id = routine.decl id := by
    have found := List.getElem?_eq_getElem inside
    have kept : (Passes.hoistInvariants routine).2.locals[id]? = _ := within.getElem? found
    rw [Routine.decl, Routine.decl, List.getD_eq_getElem?_getD, List.getD_eq_getElem?_getD, kept,
      found]
  obtain ⟨_, further, reached, alike⟩ := hoists_block twins hosts.gains.result decls flat .refl
    formed.body { routine } ⟨rfl, .refl⟩
  obtain rfl := reached.domain_eq further
  refine ((agree_runs formed flat limits calls fits).trans ((alike .refl).run ⟨agree, also⟩)).weaken ?_
  rintro flow later next ⟨middle, ⟨typed, paired⟩, below, fitting⟩
  exact ⟨typed, paired.agreeBelow.trans below, fitting.typed⟩

/-- Calls in a body one routine of which is changed by motion match those before. -/
theorem callsMatch_hoisted {profile? : RoutineIndex → Option Profile}
    {rules : RoutineIndex → Passes.Rule} {storing : Prop} {body : Body}
    (formed : BodyFormed profile? rules storing body) (flat : ∀ index, (rules index).unlowered)
    (index : RoutineIndex) (limits : Limits) (frames : Nat) {contents : Contents} :
    CallsMatch body contents (callRoutine body limits frames)
      (callRoutine (body.setRoutine index (Passes.hoistInvariants (body.routine index)).2) limits
        frames) := by
  refine agree_supplanted limits (fun found => (formed.known found).2) (fun callee => ?_)
    (fun callee => (formed.routine callee).params) frames
  obtain ⟨here, rfl⟩ | elsewhere := Passes.routine_setRoutine body index callee
    (Passes.hoistInvariants (body.routine index)).2
  · rw [here]
    exact .hoisted (formed.routine callee) (flat callee)
  · rw [elsewhere]
    exact .refl (formed.routine callee) (flat callee)

end Calls

/-- Motion of invariants is not observable. From every state that fits, the code of the changed
routine ends as before, with the same result and the same in everything shared and in every original
local, or it leaves through deoptimization or uses up the iterations granted as before. So do calls
of all routines in the changed body. -/
theorem outcome_of_hoisted {profile? : RoutineIndex → Option Profile}
    {rules : RoutineIndex → Passes.Rule} {storing : Prop} {body : Body}
    (formed : BodyFormed profile? rules storing body) (flat : ∀ index, (rules index).unlowered)
    (index : RoutineIndex) (limits : Limits) (frames : Nat) :
    let routine := body.routine index
    let changed := (Passes.hoistInvariants routine).2
    let after := body.setRoutine index changed
    (∀ {contents : Contents} {machine twin : Machine},
      machine.Fits (routine.domain profile?) contents →
      twin.Fits (changed.domain profile?) contents →
      AgreeBelow routine.locals.length machine twin →
        Outcome.Agree True (fun _ => AgreeBelow routine.locals.length)
          (execBlock ⟨routine, callRoutine body limits frames, limits.fuel, limits.leastChunk,
            limits.targetChunks⟩ routine.body machine)
          (execBlock ⟨changed, callRoutine after limits frames, limits.fuel, limits.leastChunk,
            limits.targetChunks⟩ changed.body twin)) ∧
      ∀ {callee : RoutineIndex} {args : List Slot} {shared : Shared},
        List.Forall₂ (Slot.Fits shared.contents) args (body.routine callee).argKinds →
          callRoutine after limits frames callee args shared =
            callRoutine body limits frames callee args shared := by
  intro routine changed after
  have calls {contents : Contents} : CallsMatch body contents (callRoutine body limits frames)
      (callRoutine after limits frames) := callsMatch_hoisted formed flat index limits frames
  refine ⟨fun fits also agree => ?_, fun fits => ?_⟩
  · have hoists : Supplants profile? routine changed := .hoisted (formed.routine index) (flat index)
    exact (hoists.runs limits (calls.agree fun found => (formed.known found).2) fits also
      agree).weaken fun ended => ended.2.1
  · exact ((calls fits rfl).eq fun returns => returns.2.1).symm

/-- In an eligible body neither folding a routine nor motion in one changes any call. -/
theorem callRoutine_rewritten_of_eligible {program : Interp.Program} {candidate : Candidate}
    {kinds : List Kind} {body : Body}
    (eligible : (Eligibility.analyze program candidate kinds).verdict = .eligible body)
    (listed : ∃ info, program.function? candidate.name = some info ∧
      info.definition = candidate.definition) (index : RoutineIndex) {limits : Limits}
    (granted : 0 < limits.fuel) (frames : Nat) {callee : RoutineIndex} {args : List Slot}
    {shared : Shared}
    (fits : List.Forall₂ (Slot.Fits shared.contents) args (body.routine callee).argKinds) :
    callRoutine (body.setRoutine index (body.routine index).folded.2) limits frames callee args
        shared = callRoutine body limits frames callee args shared ∧
      callRoutine (body.setRoutine index (Passes.hoistInvariants (body.routine index)).2) limits
        frames callee args shared = callRoutine body limits frames callee args shared := by
  have formed := Eligibility.bodyFormed_of_eligible eligible listed
  refine ⟨by rw [callRoutine_folded (formed.routine index) granted rfl], ?_⟩
  have calls := callsMatch_hoisted formed (fun _ => trivial) index limits frames fits rfl
  exact (calls.eq fun returns => returns.2.1).symm

/-- Counts up to what a mask leaves of its argument. -/
def maskedRoutine : Routine where
  name := "f"
  argKinds := [.scalar .int]
  params := [0]
  locals := [⟨"n", .scalar .int, .param 0⟩, ⟨"x", .scalar .int, .user⟩]
  body := [
    .assign 1 (.int 0),
    .whileLoop (.compare .lt (.var 1 .int) (.binary .bitAnd (.var 0 .int) (.int 7)))
      [.assign 1 (.binary .add (.var 1 .int) (.int 1))] default,
    .giveBack (some (.scalar (.var 1 .int)))]
  result := .scalar .int
  purity := .pure
  directives := {}
  globalsRead := []
  nextLabel := 0

/-- The mask is applied once before the loop, and the count is the same. -/
theorem outcome_of_hoisted_mask :
    (Passes.hoistInvariants maskedRoutine).2.body.length = 4 ∧
      callRoutine ((⟨[maskedRoutine]⟩ : Body).setRoutine 0 (Passes.hoistInvariants maskedRoutine).2)
        ⟨9, 1, 1, 3⟩ 1 0 [.scalar (.int 10)] ⟨#[], 0⟩ = .ok (.int 2) ⟨#[], 0⟩ := by
  have declared : (maskedRoutine.domain fun _ => none).Declares 1 (.scalar .int) := ⟨_, rfl, rfl⟩
  have param : (maskedRoutine.domain fun _ => none).Declares 0 (.scalar .int) := ⟨_, rfl, rfl⟩
  have formed : BodyFormed (fun _ => none) (fun _ => ⟨True, True, True, True, True, True⟩) False
      ⟨[maskedRoutine]⟩ := by
    refine ⟨fun index => ?_, fun found => (Option.some_ne_none _ found.symm).elim, False.elim⟩
    cases index with
    | succ => exact Routine.formed_default
    | zero =>
      refine ⟨.cons param .nil, ⟨declared, trivial⟩, ⟨⟨⟨⟨declared, ?_⟩, rfl⟩, rfl⟩, ⟨?_, trivial⟩⟩,
        ?_, trivial⟩
      · exact ⟨⟨param, trivial⟩, rfl, rfl⟩
      · exact ⟨declared, ⟨declared, trivial⟩, rfl, rfl⟩
      · exact ⟨⟨declared, rfl⟩, rfl, fun _ => rfl⟩
  have fits : List.Forall₂ (Slot.Fits (Shared.contents ⟨#[], 0⟩)) [.scalar (.int 10)]
      ((⟨[maskedRoutine]⟩ : Body).routine 0).argKinds := .cons rfl .nil
  exact ⟨rfl, ((outcome_of_hoisted formed (fun _ => trivial) 0 _ _).2 fits).trans rfl⟩

end Native
end TwoTier
