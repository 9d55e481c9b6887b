import TwoTier.Proofs.Lanes.Lockstep

namespace TwoTier

open Typed (Expr LocalId Stmt)

/-- What an operand contributes. -/
def ReductionOp.term : ReductionOp → Int → Int
  | .sub, operand => -operand
  | .add, operand | .mul, operand | .min, operand | .max, operand => operand

theorem ReductionOp.natAbs_term (op : ReductionOp) (operand : Int) :
    (op.term operand).natAbs = operand.natAbs := by
  cases op <;> simp [term]

def Typed.Extremum.reductionOp : Typed.Extremum → ReductionOp
  | .min => .min
  | .max => .max

namespace Native
namespace Split

variable {machine plain : Machine} {acc id : LocalId} {part whole : Int64} {reduction : Reduction}

variable {split : Split}

variable {after : Machine}

theorem eval_unchanged (callFree : ∀ node ∈ expr.nodes, node.isCall = false)
    {value : Scalar} (ran : Native.eval call expr machine = .ok value after) : after = machine := by
  have avoids : Avoids ⟨[], fun _ => 0, []⟩ expr := fun node member =>
    ⟨callFree node member, fun _ _ ⟨_, absent, _⟩ => by cases absent⟩
  exact (Reads.eval call avoids).unchanged ran

/-- The expressions that join two words, and what evaluates them. -/
inductive Joins : ReductionOp → (Expr → Expr → Expr) → (Scalar → Scalar → Step Machine Scalar) →
    Prop where
  | add : Joins .add (.binary .add) (arith .add)
  | sub : Joins .sub (.binary .sub) (arith .sub)
  | extreme (op : Typed.Extremum) : Joins op.reductionOp (.extremum op) (extremum op)

namespace Joins

variable {op : ReductionOp} {node : Expr → Expr → Expr}
  {run : Scalar → Scalar → Step Machine Scalar} {state after : Machine} {value : Scalar}

section

variable (joins : Joins op node run)

include joins

theorem eval_eq (call : Callee) (left right : Expr) :
    eval call (node left right) =
      (eval call left >>= fun x => eval call right >>= fun y => run x y) := by
  cases joins <;> rw [eval]

theorem nodes_eq (left right : Expr) :
    (node left right).nodes = node left right :: (left.nodes ++ right.nodes) := by
  cases joins <;> rw [Expr.nodes]

theorem isCall_eq (left right : Expr) :
    (node left right).isCall = false := by
  cases joins <;> rfl

theorem words {left right : Scalar} (ran : run left right state = .ok value after)
    (word : left.type = .int ∨ right.type = .int) :
    ∃ x y, left = .int x ∧ right = .int y := by
  cases joins with
  | add | sub => cases left <;> cases right <;> simp_all [arith, Scalar.type]
  | extreme op => cases op <;> cases left <;> cases right <;> simp_all [extremum, Scalar.type]

theorem eq_ok_iff {x y : Int64} :
    run (.int x) (.int y) state = .ok value after ↔
      (∃ z, value = .int z ∧ z.toInt = op.join x.toInt (op.term y.toInt)) ∧ after = state := by
  cases joins with
  | add | sub =>
    simp only [arith, intArith, Step.bind_eq_ok, checkedAdd_eq, Word.add?, checkedSub_eq, Word.sub?,
      Step.ofOption_eq_ok, Step.pure_eq_ok, Word.fit?_eq_some_iff, ReductionOp.join, ReductionOp.term]
    grind
  | extreme op =>
    obtain ⟨best, exact, same⟩ : ∃ z : Int64, z.toInt = op.reductionOp.join x.toInt y.toInt ∧
        (extremum op (.int x) (.int y) : Step Machine Scalar) = pure (.int z) := by
      cases op with
      | min =>
        refine ⟨if y < x then y else x, ?_, rfl⟩
        simp only [Int64.lt_iff_toInt_lt, Typed.Extremum.reductionOp, ReductionOp.join]
        split <;> omega
      | max =>
        refine ⟨if y > x then y else x, ?_, rfl⟩
        simp only [Int64.lt_iff_toInt_lt, Typed.Extremum.reductionOp, ReductionOp.join]
        split <;> omega
    have term : op.reductionOp.term y.toInt = y.toInt := by cases op <;> rfl
    rw [same, Step.pure_eq_ok, term, ← exact]
    constructor
    · rintro ⟨rfl, rfl⟩
      exact ⟨⟨best, rfl, rfl⟩, rfl⟩
    · rintro ⟨⟨z, rfl, equal⟩, rfl⟩
      exact ⟨congrArg Scalar.int (Int64.toInt_inj.1 equal.symm), rfl⟩

end

end Joins

/-- A value that updates an accumulator by an operand free of accumulators. Only a difference needs
the accumulator on its left. -/
inductive Updates (split : Split) (acc : LocalId) : ReductionOp → Expr → Prop where
  | left {op node run type operand} (joins : Joins op node run) (avoids : split.Avoids operand) :
    Updates split acc op (node (.var acc type) operand)
  | right {op node run type operand} (joins : Joins op node run) (avoids : split.Avoids operand)
    (symmetric : op ≠ .sub) : Updates split acc op (node operand (.var acc type))

variable {op : ReductionOp}

theorem Updates.eval {value : Expr} (updates : split.Updates acc op value)
    {result : Scalar} (linked : split.Linked machine plain)
    (held : machine.slots[acc]? = some (.scalar (.int part)))
    (plainHeld : plain.slots[acc]? = some (.scalar (.int whole)))
    (ran : Native.eval call value machine = .ok result after) :
    ∃ operand : Int64,
      (∃ next, result = .int next ∧ next.toInt = op.join part.toInt (op.term operand.toInt)) ∧
      ∀ next : Int64, next.toInt = op.join whole.toInt (op.term operand.toInt) →
        Native.eval call value plain = .ok (.int next) plain := by
  have here : Machine.read acc machine = .ok (.int part) machine := Machine.read_eq_ok.2 ⟨held, rfl⟩
  have there : Machine.read acc plain = .ok (.int whole) plain :=
    Machine.read_eq_ok.2 ⟨plainHeld, rfl⟩
  cases updates with
  | left joins avoids =>
    simp only [joins.eval_eq, Native.eval] at ran ⊢
    rw [Step.bind_of_ok here, Step.bind_eq_ok] at ran
    obtain ⟨operand, between, evaluated, joined⟩ := ran
    obtain rfl := (Reads.eval call avoids).unchanged evaluated
    obtain ⟨_, y, same, rfl⟩ := joins.words joined (.inl rfl)
    refine ⟨y, (joins.eq_ok_iff.1 joined).1, fun next exact => ?_⟩
    rw [Step.bind_of_ok there, Step.bind_of_ok ((Reads.eval call avoids).agrees linked evaluated)]
    exact joins.eq_ok_iff.2 ⟨⟨next, rfl, exact⟩, rfl⟩
  | right joins avoids symmetric =>
    have swap (x y : Int64) : op.join x.toInt (op.term y.toInt) =
        op.join y.toInt (op.term x.toInt) := by
      cases op <;> first | contradiction | exact ReductionOp.join_comm _ _ _
    simp only [joins.eval_eq, Native.eval] at ran ⊢
    rw [Step.bind_eq_ok] at ran
    obtain ⟨operand, between, evaluated, joined⟩ := ran
    obtain rfl := (Reads.eval call avoids).unchanged evaluated
    rw [Step.bind_of_ok here] at joined
    obtain ⟨y, _, rfl, same⟩ := joins.words joined (.inr rfl)
    refine ⟨y, ?_, fun next exact => ?_⟩
    · simpa only [swap y] using (joins.eq_ok_iff.1 joined).1
    · rw [Step.bind_of_ok ((Reads.eval call avoids).agrees linked evaluated), Step.bind_of_ok there]
      exact joins.eq_ok_iff.2 ⟨⟨next, rfl, by rw [swap, exact]⟩, rfl⟩

theorem Updates.callFree {value : Expr} (updates : split.Updates acc op value) :
    ∀ node ∈ value.nodes, node.isCall = false := by
  have variable_ (type : NumType) : ∀ node ∈ (Expr.var acc type).nodes, node.isCall = false := by
    simp [Expr.nodes, Expr.isCall]
  cases updates with
  | left joins avoids | right joins avoids =>
    intro part member
    simp only [joins.nodes_eq, List.mem_cons, List.mem_append] at member
    rcases member with rfl | inside | inside
    · exact joins.isCall_eq _ _
    all_goals first | exact variable_ _ part inside | exact (avoids part inside).1

theorem Updates.exists_word {value : Expr} (updates : split.Updates acc reduction.op value)
    (word : reduction.type = .int) (extreme : ¬ needsDistance reduction = true) (x y : Int64) :
    ∃ z : Int64, z.toInt = reduction.op.join x.toInt (reduction.op.term y.toInt) := by
  have joins : ∃ node run, Joins reduction.op node run := by
    cases updates with
    | left joins => exact ⟨_, _, joins⟩
    | right joins => exact ⟨_, _, joins⟩
  obtain ⟨node, run, joins⟩ := joins
  generalize reduced : reduction.op = op at joins
  cases joins with
  | add | sub => simp [needsDistance, word, reduced] at extreme
  | extreme op =>
    cases op with
    | min =>
      refine ⟨if y.toInt < x.toInt then y else x, ?_⟩
      simp only [Typed.Extremum.reductionOp, ReductionOp.join, ReductionOp.term]
      split <;> omega
    | max =>
      refine ⟨if x.toInt < y.toInt then y else x, ?_⟩
      simp only [Typed.Extremum.reductionOp, ReductionOp.join, ReductionOp.term]
      split <;> omega

theorem join_of_needsDistance (sum : needsDistance reduction = true) (x y : Int) :
    reduction.op.join x y = x + y := by
  simp only [needsDistance, Bool.and_eq_true, Bool.or_eq_true, decide_eq_true_eq] at sum
  rcases sum.2 with add | sub
  · rw [add]; rfl
  · rw [sub]; rfl

variable {moved : Nat} {term : Int}

theorem Balanced.update {nextPart nextWhole : Int64}
    (balanced : split.Balanced reduction distance part whole)
    (joined : nextPart.toInt = reduction.op.join part.toInt term)
    (wholeJoined : nextWhole.toInt = reduction.op.join whole.toInt term)
    (far : needsDistance reduction = true → moved = distance + term.natAbs) :
    split.Balanced reduction moved nextPart nextWhole where
  total := by rw [wholeJoined, joined, ReductionOp.total_join, ← balanced.total]
  near sum := by
    have near := balanced.near sum
    have total := far sum
    rw [wholeJoined, join_of_needsDistance sum]
    omega

theorem Linked.assigned (linked : split.Linked machine plain)
    (apart : ¬ split.Accumulates id) {value : Scalar} (effect : Assigns id value machine after) :
    split.Linked after { plain with slots := plain.slots.setIfInBounds id (.scalar value) } where
  elsewhere other away := by
    simp only [effect.slots]
    exact (linked.set apart effect.inside (.scalar value)).elsewhere other away
  shared := effect.shared.trans linked.shared
  untracked := linked.untracked
  tracked reduction member sum := by
    have other : reduction.acc ≠ id := fun same => apart ⟨reduction, member, same⟩
    rw [effect.others _ other]
    exact linked.tracked reduction member sum
  balanced reduction member := by
    have other : reduction.acc ≠ id := fun same => apart ⟨reduction, member, same⟩
    simp only [effect.slots, Machine.distance, effect.others _ other,
      Array.getElem?_setIfInBounds_ne (Ne.symm other)]
    exact linked.balanced reduction member

theorem assign_of_untracked {value : Expr} (untracked : machine.distances = [])
    (inside : id < machine.slots.size)
    (evaluated : Native.eval ctx.call value machine = .ok scalar machine) :
    assign ctx id value machine =
      .ok () { machine with slots := machine.slots.setIfInBounds id (.scalar scalar) } := by
  have absent : machine.distances.lookup id = none := by rw [untracked]; rfl
  simp only [assign, absent]
  exact (Step.bind_of_ok evaluated).trans (Machine.write_eq_ok.2 ⟨inside, rfl⟩)

variable {other : Context}

theorem Mirrors.assign (sameCalls : other.call = ctx.call) {value : Expr}
    (apart : ¬ split.Accumulates id) (avoids : split.Avoids value) :
    split.Mirrors (assign ctx id value) (assign other id value) where
  grows := ⟨fun ran => by
    obtain ⟨_, _, effect⟩ := assigns_of_ok (Reads.eval ctx.call avoids).unchanged ran
    exact effect.grown⟩
  follows linked ran _ := by
    obtain ⟨scalar, evaluated, effect⟩ := assigns_of_ok (Reads.eval ctx.call avoids).unchanged ran
    have plainEvaluated := (Reads.eval ctx.call avoids).agrees linked evaluated
    rw [← sameCalls] at plainEvaluated
    exact ⟨_, assign_of_untracked linked.untracked (linked.lt_size apart effect.inside)
      plainEvaluated, linked.assigned apart effect⟩

def Distinct (split : Split) : Prop :=
  ∀ first ∈ split.reductions, ∀ second ∈ split.reductions, first.acc = second.acc → first = second

theorem Linked.distance_update (linked : split.Linked machine plain)
    (member : reduction ∈ split.reductions) (sum : needsDistance reduction = true) {next : Int64}
    (near : term.natAbs ≤ 2 ^ 63)
    (held : machine.slots[reduction.acc]? = some (.scalar (.int part)))
    (joined : next.toInt = part.toInt + term)
    (effect : Assigns reduction.acc (.int next) machine after) :
    after.distance reduction.acc = machine.distance reduction.acc + term.natAbs := by
  obtain ⟨total, tracked⟩ := Option.isSome_iff_exists.1 (linked.tracked reduction member sum)
  obtain ⟨before, now, moved, heldBefore, same, added, found⟩ := effect.moved total tracked
  rw [held] at heldBefore
  cases heldBefore
  cases same
  simp only [Machine.distance, found, tracked]
  exact toNat_of_addDistance near joined added

theorem Balanced.exists_update {operand : Int64} {value : Expr}
    (balanced : split.Balanced reduction distance part whole)
    (updates : split.Updates acc reduction.op value) (word : reduction.type = .int)
    (far : needsDistance reduction = true → moved = distance + (reduction.op.term
      operand.toInt).natAbs ∧ (split.base reduction.acc).toInt.natAbs + moved < 2 ^ 63) :
    ∃ next : Int64, next.toInt =
      reduction.op.join whole.toInt (reduction.op.term operand.toInt) := by
  by_cases sum : needsDistance reduction = true
  · have near := balanced.near sum
    obtain ⟨total, room⟩ := far sum
    rw [join_of_needsDistance sum]
    obtain ⟨next, found⟩ := Word.exists_fit
      (i := whole.toInt + reduction.op.term operand.toInt) (by omega) (by omega)
    exact ⟨next, (Word.fit?_eq_some_iff _ _).1 found⟩
  · exact updates.exists_word word sum whole operand

theorem Linked.updated (linked : split.Linked machine plain)
    (distinct : split.Distinct) (member : reduction ∈ split.reductions) {next nextWhole : Int64}
    (effect : Assigns reduction.acc (.int next) machine after)
    (inside : reduction.acc < plain.slots.size)
    (balanced : split.Balanced reduction (after.distance reduction.acc) next nextWhole) :
    split.Linked after
      { plain with slots := plain.slots.setIfInBounds reduction.acc (.scalar (.int nextWhole)) } where
  elsewhere other away := by
    have apart : reduction.acc ≠ other := fun same => away ⟨reduction, member, same⟩
    simp only [effect.slots, Array.getElem?_setIfInBounds_ne apart]
    exact linked.elsewhere other away
  shared := effect.shared.trans linked.shared
  untracked := linked.untracked
  tracked other present sum := by
    have before := linked.tracked other present sum
    by_cases same : other.acc = reduction.acc
    · rw [same] at before ⊢
      obtain ⟨total, tracked⟩ := Option.isSome_iff_exists.1 before
      obtain ⟨_, _, _, _, _, _, found⟩ := effect.moved total tracked
      simp [found]
    · rw [effect.others _ same]
      exact before
  balanced other present := by
    by_cases same : other.acc = reduction.acc
    · obtain rfl := distinct other present reduction member same
      refine ⟨next, nextWhole, ?_, ?_, balanced⟩
      · rw [effect.slots, Array.getElem?_setIfInBounds_self_of_lt effect.inside]
      · exact Array.getElem?_setIfInBounds_self_of_lt inside
    · simp only [effect.slots, Machine.distance, effect.others _ same,
        Array.getElem?_setIfInBounds_ne (Ne.symm same)]
      exact linked.balanced other present

theorem Mirrors.update (sameCalls : other.call = ctx.call)
    (distinct : split.Distinct) {value : Expr} (member : reduction ∈ split.reductions)
    (word : reduction.type = .int) (updates : split.Updates reduction.acc reduction.op value) :
    split.Mirrors (Native.assign ctx reduction.acc value)
      (Native.assign other reduction.acc value) where
  grows := ⟨fun ran => by
    obtain ⟨_, _, effect⟩ := assigns_of_ok (eval_unchanged updates.callFree) ran
    exact effect.grown⟩
  follows {machine plain result after} linked ran bounded := by
    obtain ⟨scalar, evaluated, effect⟩ := assigns_of_ok (eval_unchanged updates.callFree) ran
    obtain ⟨part, whole, held, plainHeld, balanced⟩ := linked.balanced reduction member
    obtain ⟨operand, ⟨next, rfl, joined⟩, plainEval⟩ :=
      updates.eval linked held plainHeld evaluated
    have low := operand.le_toInt
    have high := operand.toInt_lt
    have small := reduction.op.natAbs_term operand.toInt
    have far (sum : needsDistance reduction = true) : after.distance reduction.acc =
        machine.distance reduction.acc + (reduction.op.term operand.toInt).natAbs :=
      linked.distance_update member sum (by omega) held
        (by rw [joined, join_of_needsDistance sum]) effect
    obtain ⟨nextWhole, wholeJoined⟩ := balanced.exists_update updates word
      fun sum => ⟨far sum, bounded reduction member sum⟩
    have inside := (Array.getElem?_eq_some_iff.1 plainHeld).1
    have plainEvaluated := plainEval nextWhole wholeJoined
    rw [← sameCalls] at plainEvaluated
    exact ⟨_, assign_of_untracked linked.untracked inside plainEvaluated,
      linked.updated distinct member effect inside (balanced.update joined wholeJoined far)⟩

/-- A statement that treats accumulators as a split loop needs: each assignment to one updates it,
and nothing else reads or writes one. Nested statements are not looked at. -/
inductive Regular (split : Split) : Stmt → Prop where
  | assign {id value} (apart : ¬ split.Accumulates id) (avoids : split.Avoids value) :
    Regular split (.assign id value)
  | update {reduction value} (member : reduction ∈ split.reductions)
    (updates : split.Updates reduction.acc reduction.op value) :
    Regular split (.assign reduction.acc value)
  | store {array index value} (atIndex : split.Avoids index) (avoids : split.Avoids value) :
    Regular split (.store array index value)
  | eval {value} (avoids : split.Avoids value) : Regular split (.eval value)
  | branch {cond yes no} (avoids : split.Avoids cond) : Regular split (.branch cond yes no)
  | forLoop {head body} (apart : ¬ split.Accumulates head.var) (start : split.Avoids head.start)
    (stop : split.Avoids head.stop) (step : split.Avoids head.step) :
    Regular split (.forLoop head body)
  | skip : Regular split .skip
  | block {label body} : Regular split (.block label body)
  | exit {label} : Regular split (.exit label)

section Statements

variable {ctx : Context} {more : Nat}

/-- A plain run mirrors a lane at every statement that treats the accumulators as it should. -/
theorem Regular.atNode (distinct : split.Distinct)
    (words : ∀ reduction ∈ split.reductions, reduction.type = .int) (regular : split.Regular node) :
    split.mirroring.AtNode ctx { ctx with fuel := more } node := by
  have read {expr : Expr} (avoids : split.Avoids expr) :
      split.Mirrors (Native.eval ctx.call expr) (Native.eval ctx.call expr) :=
    .of_reads (.eval ctx.call avoids)
  refine ⟨?_, ?_, ?_, ?_, ?_, ?_⟩
  · intro plain
    cases regular with
    | assign => cases plain _ _ rfl
    | update => cases plain _ _ rfl
    | store atIndex avoids =>
      exact List.forall_mem_cons.2 ⟨read atIndex, List.forall_mem_singleton.2 (read avoids)⟩
    | eval avoids => exact List.forall_mem_singleton.2 (read avoids)
    | branch avoids => exact List.forall_mem_singleton.2 (read avoids)
    | forLoop _ start stop step =>
      exact List.forall_mem_cons.2 ⟨read start, List.forall_mem_cons.2
        ⟨read stop, List.forall_mem_singleton.2 (read step)⟩⟩
    | skip | block | exit => nofun
  · rintro id value rfl
    cases regular with
    | assign apart avoids => exact Mirrors.assign rfl apart avoids
    | update member updates => exact Mirrors.update rfl distinct member (words _ member) updates
  · rintro array index value rfl
    cases regular with
    | store atIndex avoids =>
      exact (read avoids).bind fun _ => ((read atIndex).bind fun _ =>
        .of_reads (.of_constant (constant_requireInt _))).bind fun _ =>
        (Mirrors.of_reads (.length array)).bind fun _ =>
        (Mirrors.of_reads (.of_constant (.ofOption _))).bind fun _ => .store array _ _
  · rintro head body rfl
    cases regular with
    | forLoop apart => exact mirroring_counts apart
  · rintro head body rfl
    cases regular
  · rintro head chunk rfl
    cases regular

/-- Regular code follows with at least as many iterations granted to its loops. -/
theorem Mirrors.execBlock (granted : ctx.fuel ≤ more) (distinct : split.Distinct)
    (words : ∀ reduction ∈ split.reductions, reduction.type = .int)
    (regular : ∀ node ∈ Stmt.blockNodes body, split.Regular node) :
    split.Mirrors (execBlock ctx body) (execBlock { ctx with fuel := more } body) := by
  have fellow : ctx.Fellow split.mirroring { ctx with fuel := more } :=
    ⟨rfl, rfl, rfl, mirroring_grants granted⟩
  exact Likeness.Alike.execBlock fellow fun node member => (regular node member).atNode distinct words

end Statements
end Split
end Native
end TwoTier
