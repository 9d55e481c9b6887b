import TwoTier.Proofs.Lanes.Accumulator
import TwoTier.Proofs.Passes.Examination

namespace TwoTier.Passes

open Typed (Expr ForHead LocalId Routine Stmt)
open Native (Split)

/-- What the examination of a loop has found of its accumulators. -/
structure Accepted (routine : Routine) (head : ForHead) (body : List Stmt)
    (reductions : List Reduction) : Prop where
  stride : isUnitStride head = true
  unobstructed : ∀ node ∈ Stmt.blockNodes body, splitObstacle? node = none
  counter : head.var ∉ Stmt.writtenLocals body
  once : (reductions.map (·.acc)).Nodup
  written : ∀ reduction ∈ reductions, reduction.acc ∈ Stmt.writtenLocals body
  declared : ∀ reduction ∈ reductions,
    (routine.decl reduction.acc).kind = .scalar reduction.type
  reduces : ∀ reduction ∈ reductions,
    reductionOp? reduction.acc reduction.type body = some reduction.op
  splits : ∀ reduction ∈ reductions,
    reductionObstacle? (routine.decl reduction.acc) reduction.type reduction.op = none

/-- What makes a local of a loop an accumulator. -/
private def Qualifies (routine : Routine) (body : List Stmt) (reduction : Reduction) : Prop :=
  (routine.decl reduction.acc).kind = .scalar reduction.type ∧
    reductionOp? reduction.acc reduction.type body = some reduction.op ∧
    reductionObstacle? (routine.decl reduction.acc) reduction.type reduction.op = none

private theorem Classified.qualifies (classified : Classified routine body ids reductions others) :
    (reductions.map (·.acc)).Sublist ids ∧
      ∀ reduction ∈ reductions, Qualifies routine body reduction := by
  induction classified with
  | nil => exact ⟨.slnil, nofun⟩
  | array _ _ ih | other _ _ _ ih => exact ⟨ih.1.cons _, ih.2⟩
  | accumulator kind reduced free _ ih =>
    exact ⟨ih.1.cons_cons _, List.forall_mem_cons.2 ⟨⟨kind, reduced, free⟩, ih.2⟩⟩

theorem nodup_eraseDups (ids : List LocalId) : ids.eraseDups.Nodup := by
  match ids with
  | [] => simp
  | id :: rest =>
    have shorter : (rest.filter fun other => !other == id).length ≤ rest.length :=
      List.length_filter_le ..
    rw [List.eraseDups_cons, List.nodup_cons]
    refine ⟨fun member => ?_, nodup_eraseDups _⟩
    simpa using List.mem_eraseDups.1 member
termination_by ids.length
decreasing_by exact Nat.lt_succ_of_le shorter

theorem accepted_of_loopUse (accepted : loopUse routine head body lowering reads = .ok use) :
    Accepted routine head body use.reductions := by
  have examined := examined_of_loopUse accepted
  obtain ⟨listed, qualifies⟩ := (classified_of_classify examined.classified).qualifies
  exact {
    stride := examined.stride
    unobstructed := examined.unobstructed
    counter := examined.counter
    once := listed.nodup (nodup_eraseDups _)
    written := fun reduction member =>
      List.mem_eraseDups.1 (listed.mem (List.mem_map_of_mem member))
    declared := fun reduction member => (qualifies reduction member).1
    reduces := fun reduction member => (qualifies reduction member).2.1
    splits := fun reduction member => (qualifies reduction member).2.2 }

def ownReads (stmt : Stmt) : List LocalId :=
  stmt.exprs.flatMap fun expr => expr.nodes.filterMap Expr.var?

def ownUpdate? (acc : LocalId) : Stmt → Option (Option ReductionOp)
  | .assign id value => if id = acc then some (updateOp? acc value) else none
  | .forLoop head _ => if head.var = acc then some none else none
  | _ => none

theorem scalarReads_eq (body : List Stmt) :
    scalarReads body = (Stmt.blockNodes body).flatMap ownReads := by
  simp only [scalarReads, Stmt.blockExprNodes, List.filterMap_flatMap]
  rfl

/-- If each update reads the accumulator and no more reads are there, nothing else reads it. -/
theorem count_reads {nodes : List Stmt}
    (reads : ∀ node ∈ nodes, (ownUpdate? acc node).isSome → 0 < (ownReads node).count acc)
    (counted : (nodes.flatMap ownReads).count acc ≤ (nodes.filterMap (ownUpdate? acc)).length) :
    ∀ node ∈ nodes, (ownReads node).count acc = if (ownUpdate? acc node).isSome then 1 else 0 := by
  -- reads can only exceed updates, so an equal total leaves no room in any statement
  have atLeast (nodes : List Stmt)
      (reads : ∀ node ∈ nodes, (ownUpdate? acc node).isSome → 0 < (ownReads node).count acc) :
      (nodes.filterMap (ownUpdate? acc)).length ≤ (nodes.flatMap ownReads).count acc := by
    induction nodes with
    | nil => simp
    | cons node rest ih =>
      have later := ih fun other member => reads other (.tail _ member)
      have first := reads node (.head _)
      rw [List.flatMap_cons, List.count_append]
      cases update : ownUpdate? acc node with
      | none =>
        simp only [List.filterMap_cons, update]
        omega
      | some op =>
        simp only [update, Option.isSome_some, forall_const] at first
        simp only [List.filterMap_cons, update, List.length_cons]
        omega
  induction nodes with
  | nil => intro node absent; cases absent
  | cons node rest ih =>
    have laterReads := fun other member => reads other (.tail _ member)
    have later := atLeast rest laterReads
    have first := reads node (.head _)
    rw [List.flatMap_cons, List.count_append] at counted
    intro other member
    cases update : ownUpdate? acc node with
    | none =>
      simp only [List.filterMap_cons, update] at counted
      rcases member with _ | ⟨_, member⟩
      · simp [update]; omega
      · exact ih laterReads (by omega) other member
    | some op =>
      simp only [List.filterMap_cons, update, List.length_cons] at counted
      simp only [update, Option.isSome_some, forall_const] at first
      rcases member with _ | ⟨_, member⟩
      · simp [update]; omega
      · exact ih laterReads (by omega) other member

variable {acc : LocalId} {op : ReductionOp} {value : Expr}

theorem joins_of_updateOp? (updates : updateOp? acc value = some op) (word : op ≠ .mul) :
    ∃ node run operand type, Split.Joins op node run ∧ operand.readsLocal acc = false ∧
      (value = node (.var acc type) operand ∨
        op ≠ .sub ∧ value = node operand (.var acc type)) := by
  have isVar {expr : Expr} (found : expr.var? = some acc) : ∃ type, expr = .var acc type := by
    cases expr <;> simp_all [Expr.var?]
  have free {expr : Expr} {found : ReductionOp}
      (same : (if expr.readsLocal acc then none else some found) = some op) :
      expr.readsLocal acc = false ∧ found = op := by
    split at same <;> simp_all
  unfold updateOp? at updates
  split at updates
  · simp only [decide_eq_true_eq] at updates
    split at updates
    · rename_i left
      obtain ⟨type, rfl⟩ := isVar left
      obtain ⟨apart, rfl⟩ := free updates
      exact ⟨_, _, _, type, .add, apart, .inl rfl⟩
    · split at updates
      · rename_i right
        obtain ⟨type, rfl⟩ := isVar right
        obtain ⟨apart, rfl⟩ := free updates
        exact ⟨_, _, _, type, .add, apart, .inr ⟨by decide, rfl⟩⟩
      · cases updates
  · simp only at updates
    repeat' split at updates
    all_goals simp_all
  · simp only [decide_eq_true_eq] at updates
    split at updates
    · rename_i left
      obtain ⟨type, rfl⟩ := isVar left
      obtain ⟨apart, rfl⟩ := free updates
      exact ⟨_, _, _, type, .sub, apart, .inl rfl⟩
    · cases updates
  · rename_i extreme left right
    dsimp only at updates
    split at updates
    · rename_i found _
      obtain ⟨apart, rfl⟩ := free updates
      obtain ⟨type, same⟩ := isVar (of_decide_eq_true found)
      exact ⟨_, _, right, type, .extreme extreme, apart, .inl (by rw [same])⟩
    · rename_i found
      obtain ⟨apart, rfl⟩ := free updates
      obtain ⟨type, same⟩ := isVar (of_decide_eq_true found)
      exact ⟨_, _, left, type, .extreme extreme, apart,
        .inr ⟨by cases extreme <;> decide, by rw [same]⟩⟩
    · cases updates
  · cases updates

theorem reads_of_joins {node : Expr → Expr → Expr}
    {run : Scalar → Scalar → Native.Step Native.Machine Scalar}
    (joins : Split.Joins op node run) (left right : Expr) :
    (node left right).nodes.filterMap Expr.var? =
      left.nodes.filterMap Expr.var? ++ right.nodes.filterMap Expr.var? := by
  have outer : (node left right).var? = none := by cases joins <;> rfl
  simp [joins.nodes_eq, outer]

theorem not_var_of_readsLocal {expr part : Expr} (apart : expr.readsLocal acc = false)
    (member : part ∈ expr.nodes) : part.var? ≠ some acc := by
  intro named
  have read : acc ∈ expr.readLocals := by
    refine List.mem_flatMap.2 ⟨part, member, ?_⟩
    cases part <;> simp_all [Expr.var?, Expr.ownLocals]
  simp [Expr.readsLocal, read] at apart

theorem mem_reads_of_updateOp? (updates : updateOp? acc value = some op) (word : op ≠ .mul) :
    acc ∈ value.nodes.filterMap Expr.var? := by
  obtain ⟨node, run, operand, type, joins, _, rfl | ⟨_, rfl⟩⟩ := joins_of_updateOp? updates word
  · rw [reads_of_joins joins]
    simp [Expr.nodes, Expr.var?]
  · rw [reads_of_joins joins]
    simp [Expr.nodes, Expr.var?]

theorem callFree_of_unobstructed (unobstructed : splitObstacle? stmt = none) :
    ∀ expr ∈ stmt.exprs, ∀ node ∈ expr.nodes, node.isCall = false := by
  intro expr member node inside
  have free : ¬ stmt.exprs.any (·.containsCall) = true := by
    cases stmt <;> simp_all [splitObstacle?]
  simp only [List.any_eq_true, not_exists, not_and, Expr.containsCall] at free
  simpa using free expr member node inside

namespace Accepted

variable {routine : Routine} {head : ForHead} {body : List Stmt} {reductions : List Reduction}
  {reduction : Reduction} (accepted : Accepted routine head body reductions)

include accepted

section

variable (member : reduction ∈ reductions)

include member

theorem op_ne_mul (word : reduction.type = .int) : reduction.op ≠ .mul := by
  intro product
  have splits := accepted.splits reduction member
  simp [reductionObstacle?, word, product] at splits

/-- All writes of an accumulator update it, and it is read as often as it is written. -/
theorem updatesOf_acc :
    (∀ found ∈ updatesOf reduction.acc body, found = some reduction.op) ∧
      (scalarReads body).count reduction.acc = (updatesOf reduction.acc body).length := by
  have reduces := accepted.reduces reduction member
  unfold reductionOp? at reduces
  split at reduces
  · cases reduces
  · split at reduces
    · rename_i op rest listed
      split at reduces
      · rename_i alike
        cases reduces
        rw [listed]
        refine ⟨fun found present => ?_, alike.2⟩
        rcases present with _ | ⟨_, present⟩
        · rfl
        · simpa using List.all_eq_true.1 alike.1 found present
      · cases reduces
    · cases reduces

theorem updates (present : node ∈ Stmt.blockNodes body) {found : Option ReductionOp}
    (writes : ownUpdate? reduction.acc node = some found) : found = some reduction.op := by
  refine (accepted.updatesOf_acc member).1 found ?_
  exact List.mem_filterMap.2 ⟨node, present, writes⟩

theorem assigns (present : node ∈ Stmt.blockNodes body)
    (writes : (ownUpdate? reduction.acc node).isSome) :
    ∃ value, node = .assign reduction.acc value ∧
      updateOp? reduction.acc value = some reduction.op := by
  obtain ⟨found, update⟩ := Option.isSome_iff_exists.1 writes
  obtain rfl := accepted.updates member present update
  cases node <;> simp_all [ownUpdate?]

/-- An accumulator is read only by its updates, and by each of them once. -/
theorem count_ownReads (word : reduction.type = .int) (present : node ∈ Stmt.blockNodes body) :
    (ownReads node).count reduction.acc =
      if (ownUpdate? reduction.acc node).isSome then 1 else 0 := by
  refine count_reads (fun other inside writes => ?_) ?_ node present
  · obtain ⟨value, rfl, update⟩ := accepted.assigns member inside writes
    have read := mem_reads_of_updateOp? update (accepted.op_ne_mul member word)
    exact List.count_pos_iff.2 (by simpa [ownReads, Stmt.exprs] using read)
  · rw [← scalarReads_eq]
    exact Nat.le_of_eq (accepted.updatesOf_acc member).2

theorem distinct {other : Reduction} (present : other ∈ reductions)
    (same : reduction.acc = other.acc) : reduction = other := by
  obtain ⟨acc, op, type⟩ := reduction
  obtain ⟨acc', op', type'⟩ := other
  obtain rfl : acc = acc' := same
  have kinds : Kind.scalar type = .scalar type' :=
    (accepted.declared _ member).symm.trans (accepted.declared ⟨acc, op', type'⟩ present)
  cases kinds
  have ops : some op = some op' :=
    (accepted.reduces _ member).symm.trans (accepted.reduces ⟨acc, op', type⟩ present)
  cases ops
  rfl

end

variable {base : LocalId → Int64} {others : List (LocalId → Int64)}

theorem withoutReductions : Accepted routine head body [] :=
  ⟨accepted.stride, accepted.unobstructed, accepted.counter, by simp, by simp, by simp, by simp,
    by simp⟩

theorem bound_eq : head.bound = .range := by
  have stride := accepted.stride
  simp only [isUnitStride, Bool.and_eq_true, decide_eq_true_eq] at stride
  exact stride.1.1

theorem exitValue_eq : head.exitValue = false := by
  have stride := accepted.stride
  simp only [isUnitStride, Bool.and_eq_true, Bool.not_eq_true'] at stride
  exact stride.1.2

theorem step_eq : head.step = .const (.int 1) := by
  have stride := accepted.stride
  simp only [isUnitStride, Bool.and_eq_true] at stride
  have literal := stride.2
  split at literal
  · rename_i step same
    rw [same, of_decide_eq_true literal]
  · cases literal

variable (words : ∀ reduction ∈ reductions, reduction.type = .int)

include words

theorem avoids (present : node ∈ Stmt.blockNodes body)
    (apart : ∀ reduction ∈ reductions, ownUpdate? reduction.acc node = none) :
    ∀ expr ∈ node.exprs, Split.Avoids ⟨reductions, base, others⟩ expr := by
  intro expr inside part member
  refine ⟨callFree_of_unobstructed (accepted.unobstructed node present) expr inside part member, ?_⟩
  rintro id named ⟨reduction, reduced, rfl⟩
  have unread := accepted.count_ownReads reduced (words reduction reduced) present
  rw [apart reduction reduced] at unread
  refine List.count_eq_zero.1 unread ?_
  exact List.mem_flatMap.2 ⟨expr, inside, List.mem_filterMap.2 ⟨part, member, named⟩⟩

/-- An update of an accumulator reads no accumulator beside it. -/
theorem updates_of_assign (member : reduction ∈ reductions) {value : Expr}
    (present : .assign reduction.acc value ∈ Stmt.blockNodes body) :
    Split.Updates ⟨reductions, base, others⟩ reduction.acc reduction.op value := by
  have writes : (ownUpdate? reduction.acc (.assign reduction.acc value)).isSome := by
    simp [ownUpdate?]
  obtain ⟨_, same, update⟩ := accepted.assigns member present writes
  cases same
  have callFree := callFree_of_unobstructed (accepted.unobstructed _ present) value
    (.head _)
  obtain ⟨node, run, operand, type, joins, apart, form⟩ :=
    joins_of_updateOp? update (accepted.op_ne_mul member (words reduction member))
  have avoids (inside : ∀ part ∈ operand.nodes, part ∈ value.nodes) :
      Split.Avoids ⟨reductions, base, others⟩ operand := by
    intro part within
    refine ⟨callFree part (inside part within), ?_⟩
    rintro id named ⟨other, reduced, rfl⟩
    by_cases same : other.acc = reduction.acc
    · exact not_var_of_readsLocal apart within (same ▸ named)
    · have unread := accepted.count_ownReads reduced (words other reduced) present
      simp only [ownUpdate?, if_neg (Ne.symm same)] at unread
      refine List.count_eq_zero.1 unread ?_
      exact List.mem_flatMap.2 ⟨value, by simp [Stmt.exprs],
        List.mem_filterMap.2 ⟨part, inside part within, named⟩⟩
  rcases form with rfl | ⟨symmetric, rfl⟩
  · exact .left joins (avoids fun part within => by simp [joins.nodes_eq, within])
  · exact .right joins (avoids fun part within => by simp [joins.nodes_eq, within]) symmetric

/-- The body of an accepted loop treats its accumulators as a split loop needs. -/
theorem regular :
    ∀ node ∈ Stmt.blockNodes body, Split.Regular ⟨reductions, base, others⟩ node := by
  intro node present
  cases node with
  | assign id value =>
    by_cases accumulates : Split.Accumulates ⟨reductions, base, others⟩ id
    · obtain ⟨reduction, member, rfl⟩ := accumulates
      exact .update member (accepted.updates_of_assign words member present)
    · have apart : ∀ reduction ∈ reductions, ownUpdate? reduction.acc (.assign id value) = none :=
        fun reduction member => if_neg fun same => accumulates ⟨reduction, member, same.symm⟩
      exact .assign accumulates (accepted.avoids words present apart value (.head _))
  | forLoop head body =>
    have apart : ∀ reduction ∈ reductions,
        ownUpdate? reduction.acc (.forLoop head body) = none := by
      intro reduction member
      cases update : ownUpdate? reduction.acc (.forLoop head body) with
      | none => rfl
      | some found =>
        obtain ⟨_, same, _⟩ := accepted.assigns member present (by simp [update])
        cases same
    have avoids : ∀ expr ∈ (Stmt.forLoop head body).exprs,
        Split.Avoids ⟨reductions, base, others⟩ expr := accepted.avoids words present apart
    refine .forLoop ?_ (avoids _ (by simp [Stmt.exprs])) (avoids _ (by simp [Stmt.exprs]))
      (avoids _ (by simp [Stmt.exprs]))
    rintro ⟨reduction, member, same⟩
    simpa [ownUpdate?, same] using apart reduction member
  | store array index value =>
    have avoids : ∀ expr ∈ (Stmt.store array index value).exprs,
        Split.Avoids ⟨reductions, base, others⟩ expr :=
      accepted.avoids words present fun _ _ => rfl
    exact .store (avoids index (by simp [Stmt.exprs])) (avoids value (by simp [Stmt.exprs]))
  | eval value => exact .eval (accepted.avoids words present (fun _ _ => rfl) value (.head _))
  | branch cond yes no =>
    exact .branch (accepted.avoids words present (fun _ _ => rfl) cond (.head _))
  | skip => exact .skip
  | block label body => exact .block
  | exit label => exact .exit
  | leave | giveBack | whileLoop | vector | parallel =>
    cases accepted.unobstructed _ present

end Accepted
end TwoTier.Passes
