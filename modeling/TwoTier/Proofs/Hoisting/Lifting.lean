import TwoTier.Proofs.Folding
import TwoTier.Proofs.Hoisting.Alignment

set_option linter.unusedSectionVars false

namespace TwoTier.Native

open Passes (Moving cannotFail isMovable liftArgs liftBlock liftExpr liftStmt moveOut)

open Typed (ArgOf ArgsFormed CastOp Domain Expr Extremum LocalId Stmt UnaryOp)

variable {expr : Expr} {next : Nat}

section Totality

variable {σ : Type} {state : σ} {x y : Scalar} {left right : Expr}

theorem unary_stays {op : UnaryOp} (typed : x.type = left.type)
    (total : cannotFail (.unary op left) = true) : unary op x state ≠ .deopt [] := by
  cases op <;> cases x <;> simp [cannotFail, ← typed, Scalar.type] at total <;> rintro ⟨⟩

theorem arith_stays {op : ArithOp} (typed : x.type = left.type)
    (total : cannotFail (.binary op left right) = true) : arith op x y state ≠ .deopt [] := by
  cases x <;> cases y <;> cases op <;> simp [cannotFail, ← typed, Scalar.type] at total <;> rintro ⟨⟩

theorem compare_stays (op : Typed.Comparison) : compare op x y state ≠ .deopt [] := by
  cases x <;> cases y <;> rintro ⟨⟩

theorem cast_stays {op : CastOp} (total : cannotFail (.cast op left) = true) :
    cast op x state ≠ .deopt [] := by
  cases op <;> cases x <;> simp [cannotFail] at total <;> rintro ⟨⟩

theorem absolute_stays (typed : x.type = left.type) (total : cannotFail (.abs left) = true) :
    absolute x state ≠ .deopt [] := by
  cases x <;> simp [cannotFail, ← typed, Scalar.type] at total
  rintro ⟨⟩

theorem extremum_stays (op : Extremum) : extremum op x y state ≠ .deopt [] := by
  cases op <;> cases x <;> cases y <;> rintro ⟨⟩

/-- A step that gives a value of a type and leaves the state as it is. -/
def Gives (type : NumType) (step : Step σ Scalar) (state : σ) : Prop :=
  ∃ value, value.type = type ∧ step state = .ok value state

theorem Step.Settles.gives {step : Step σ Scalar} (settles : step.Settles (·.type = type))
    (stays : step state ≠ .deopt []) : Gives type step state := by
  cases settles with
  | pure held => exact ⟨_, held, rfl⟩
  | deopt => exact absurd rfl stays

theorem Gives.bind {other : NumType} {step : Step σ Scalar} {next : Scalar → Step σ Scalar}
    (first : Gives type step state)
    (rest : ∀ value, value.type = type → Gives other (next value) state) :
    Gives other (step >>= next) state := by
  obtain ⟨value, typed, ran⟩ := first
  obtain ⟨result, held, followed⟩ := rest value typed
  refine ⟨result, held, ?_⟩
  rw [Step.bind_apply, Step.bind, ran]
  exact followed

end Totality

section Movable

variable {domain : Domain} {contents : Contents} {call : Callee} {machine : Machine}
  {written : List LocalId}

theorem gives_of_movable (fits : machine.Fits domain contents) {expr : Expr}
    (formed : expr.Formed domain) (movable : isMovable written expr = true) :
    Gives expr.type (eval call expr) machine := by
  unfold isMovable at movable
  match expr with
  | .const value => exact ⟨value, rfl, by rw [eval]; rfl⟩
  | .var id type =>
    obtain ⟨slot, fit, held, -⟩ := fits.held (Declares.mem_everyLocal formed) formed
    obtain ⟨value, rfl, typed⟩ := fit.eq_scalar
    exact ⟨value, typed, by rw [eval, Machine.read, held]⟩
  | .len array =>
    obtain ⟨_, declared⟩ := formed
    obtain ⟨slot, fit, held, -⟩ := fits.held (Declares.mem_everyLocal declared) declared
    obtain ⟨buffer, rfl⟩ := fit.eq_array
    rw [eval, Gives, Step.bind_apply, Step.bind, Machine.length, held]
    cases buffer <;> exact ⟨_, rfl, rfl⟩
  | .unary op operand =>
    rw [Expr.nodes, List.all_cons, Bool.and_eq_true] at movable
    exact (gives_of_movable fits formed.1 movable.2).bind fun x typed =>
      (settles_unary formed.2 typed).gives (unary_stays typed movable.1)
  | .cast op operand =>
    rw [Expr.nodes, List.all_cons, Bool.and_eq_true] at movable
    exact (gives_of_movable fits formed.1 movable.2).bind fun x typed =>
      (settles_cast (typed ▸ formed.2)).gives (cast_stays movable.1)
  | .abs operand =>
    rw [Expr.nodes, List.all_cons, Bool.and_eq_true] at movable
    rw [Expr.type]
    refine (gives_of_movable fits formed.1 movable.2).bind fun x typed => ?_
    rw [← typed]
    exact (settles_absolute (typed ▸ formed.2)).gives (absolute_stays typed movable.1)
  | .binary op left right | .extremum op left right =>
    rw [Expr.nodes, List.all_cons, List.all_append, Bool.and_eq_true, Bool.and_eq_true] at movable
    rw [Expr.type]
    refine (gives_of_movable fits formed.1.1 movable.2.1).bind fun x one =>
      (gives_of_movable fits formed.1.2 movable.2.2).bind fun y two => ?_
    rw [← one]
    have same := two.trans (formed.2.1.symm.trans one.symm)
    first
    | exact (settles_arith (one ▸ formed.2.2) same).gives (arith_stays one movable.1)
    | exact (settles_extremum op (one ▸ formed.2.2) same).gives (extremum_stays op)
  | .compare op left right =>
    rw [Expr.nodes, List.all_cons, List.all_append, Bool.and_eq_true, Bool.and_eq_true] at movable
    exact (gives_of_movable fits formed.1.1 movable.2.1).bind fun x one =>
      (gives_of_movable fits formed.1.2 movable.2.2).bind fun y two =>
        (settles_compare op (two.trans (formed.2.symm.trans one.symm))).gives (compare_stays op)
  | .logic op left right =>
    rw [Expr.nodes, List.all_cons, List.all_append, Bool.and_eq_true, Bool.and_eq_true] at movable
    have second := gives_of_movable fits formed.1.2 movable.2.2
    rw [← formed.2] at second
    refine (gives_of_movable fits formed.1.1 movable.2.1).bind fun x one => ?_
    split
    · exact ⟨x, one, rfl⟩
    · exact second
  | .select cond yes no =>
    simp only [Expr.nodes, List.all_cons, List.all_append, Bool.and_eq_true] at movable
    have second := gives_of_movable fits formed.1.2.2 movable.2.2
    rw [← formed.2.2] at second
    refine (gives_of_movable fits formed.1.1 movable.2.1.1).bind fun x one => ?_
    cases x with
    | bool holds =>
      cases holds
      · exact second
      · exact gives_of_movable fits formed.1.2.1 movable.2.1.2
    | int | float => cases one.trans formed.2.1

/-- Buffers with elements of the same types are as long as each other. -/
theorem Shared.extent_of_contents {shared other : Shared} (same : shared.contents = other.contents)
    (buffer : Nat) : shared.extent buffer = other.extent buffer := by
  have bounds (position : Nat) :
      shared.extent buffer ≤ position ↔ other.extent buffer ≤ position := by
    have here : (shared.element buffer position).map Scalar.type =
        (other.element buffer position).map Scalar.type :=
      congrFun (congrFun same buffer) position
    rw [← Shared.element_eq_none, ← Shared.element_eq_none, ← Option.map_eq_none_iff, here,
      Option.map_eq_none_iff]
  exact Nat.le_antisymm ((bounds _).2 .refl) ((bounds _).1 .refl)

/-- A machine that holds what another one does, in all locals but the scalars that may be written. -/
def Machine.Retains (domain : Domain) (written : List LocalId) (entry machine : Machine) : Prop :=
  ∀ {id kind}, domain.Declares id kind → id ∉ written ∨ kind.isArray →
    machine.slots[id]? = entry.slots[id]?

/-- What can be moved has one value while the locals that it reads are not written. -/
theorem eval_of_retains {entry : Machine} (retains : machine.Retains domain written entry)
    (same : entry.shared.contents = machine.shared.contents) (formed : expr.Formed domain)
    (movable : isMovable written expr = true) {value : Scalar}
    (ran : eval call expr machine = .ok value machine) :
    eval call expr entry = .ok value entry := by
  have alike : (agreeing fun one other => one = machine ∧ other = entry).Alike (eval call expr)
      (eval call expr) := by
    refine Likeness.Alike.eval fun node member => ?_
    have formed := formed.parts _ member
    have here := List.all_eq_true.1 movable node member
    cases node with
    | var id type =>
      constructor
      rintro _ _ ⟨rfl, rfl⟩
      rw [Machine.read, Machine.read, retains formed (.inl (by simpa using here))]
      split
      · exact .ok ⟨rfl, rfl⟩
      · exact .stuck trivial
    | len array =>
      obtain ⟨_, declared⟩ := formed
      constructor
      rintro _ _ ⟨rfl, rfl⟩
      rw [Machine.length, Machine.length, retains declared (.inr rfl)]
      split
      · rename_i buffer _
        have size := Shared.extent_of_contents same buffer
        unfold Shared.extent at size
        rw [size]
        exact .ok ⟨rfl, rfl⟩
      · exact .ok ⟨rfl, rfl⟩
      · exact .stuck trivial
    | index | call => cases here
    | const | unary | binary | compare | logic | select | cast | abs | extremum => trivial
  have agreed := alike.run ⟨rfl, rfl⟩
  rw [ran] at agreed
  generalize eval call expr entry = outcome at agreed
  cases agreed with
  | ok held => rw [held.2]

end Movable

/-- Assignments of parts that can be moved, to one local after the other. -/
inductive Moved (domain : Domain) (written : List LocalId) : Nat → List Stmt → Prop where
  | nil {next : Nat} : Moved domain written next []
  | cons {next : Nat} {expr : Expr} {rest : List Stmt} (formed : expr.Formed domain)
      (movable : isMovable written expr = true) (others : Moved domain written (next + 1) rest) :
      Moved domain written next (.assign next expr :: rest)

variable {moved : List Stmt}

theorem Moved.concat (held : Moved domain written next moved)
    (formed : expr.Formed domain) (movable : isMovable written expr = true) :
    Moved domain written next (moved ++ [.assign (next + moved.length) expr]) := by
  induction held with
  | nil => exact .cons formed movable .nil
  | cons first able _ ih =>
    rw [Nat.add_right_comm] at ih
    exact .cons first able ih

theorem Moved.part (held : Moved domain written next moved) {id : LocalId}
    (member : .assign id expr ∈ moved) :
    next ≤ id ∧ expr.Formed domain ∧ isMovable written expr = true := by
  induction held with
  | nil => cases member
  | cons formed movable _ ih =>
    obtain same | later := List.mem_cons.1 member
    · cases same
      exact ⟨.refl, formed, movable⟩
    · exact ⟨Nat.le_of_succ_le (ih later).1, (ih later).2⟩

section Carries

variable {domain full : Domain} {contents : Contents} {written : List LocalId} {moved : List Stmt}
  {call : Callee} {entry : Machine}

/-- A machine that holds what was moved in its temporaries, next to one that runs without them. -/
structure Carries (domain : Domain) (written : List LocalId) (moved : List Stmt) (call : Callee)
    (entry machine plain : Machine) : Prop where
  below : AgreeBelow domain.locals.length machine plain
  retains : entry.Retains domain written plain
  temps : ∀ {id expr}, .assign id expr ∈ moved → domain.locals.length ≤ id ∧ ∃ value,
    machine.slots[id]? = some (.scalar value) ∧ eval call expr entry = .ok value entry

def Writable (domain : Domain) (written : List LocalId) (id : LocalId) : Prop :=
  id ∈ written ∧ ∃ type, domain.Declares id (.scalar type)

theorem aligned_carries : Aligned domain (Writable domain written)
    (Carries domain written moved call entry) where
  below carries := carries.below
  share shared carries := { carries with below := carries.below.share shared }
  write {machine plain id} value may carries := by
    obtain ⟨member, type, scalar⟩ := may
    refine ⟨carries.below.write id _, ?_, ?_⟩
    · intro other kind declared kept
      have apart : id ≠ other := by
        rintro rfl
        cases scalar.eq declared
        exact kept.elim (absurd member) nofun
      simpa [apart] using carries.retains declared kept
    · intro temp expr held
      obtain ⟨above, found⟩ := carries.temps held
      have apart : id ≠ temp := Nat.ne_of_lt (Nat.lt_of_lt_of_le scalar.lt above)
      simpa [apart] using And.intro above found

theorem alike_temp (held : Moved domain written next moved) {id : LocalId} (type : NumType)
    (member : .assign id expr ∈ moved) (typed : entry.shared.contents = contents) :
    (suiting (Carries domain written moved call entry) full contents).Alike
      (eval call (.var id type)) (eval call expr) where
  run {machine plain} suited := by
    obtain ⟨-, formed, movable⟩ := held.part member
    obtain ⟨-, value, found, ran⟩ := suited.1.temps member
    rw [eval_var, Machine.read, found, eval_of_retains suited.1.retains
      (suited.2.typed.trans typed.symm) formed movable ran]
    exact .ok suited

/-- What is moved runs before the loop: each part has a value, and no other local changes. -/
theorem exec_moved (ctx : Context) (within : domain.Within full) (fits : entry.Fits full contents)
    (stock : Moved domain written next moved)
    (above : domain.locals.length ≤ next) (room : next + moved.length ≤ machine.slots.size)
    (agree : AgreeBelow domain.locals.length machine entry) :
    ∃ later, execBlock ctx moved machine = .ok .next later ∧ AgreeBelow next later machine ∧
      ∀ {id expr}, .assign id expr ∈ moved → ∃ value,
        later.slots[id]? = some (.scalar value) ∧ eval ctx.call expr entry = .ok value entry := by
  induction stock generalizing machine with
  | nil =>
    refine ⟨machine, by rw [execBlock_nil]; rfl, ⟨rfl, ?_, ⟨room, room⟩, fun _ _ => rfl⟩,
      fun member => absurd member List.not_mem_nil⟩
    exact ⟨agree.untracked.1, agree.untracked.1⟩
  | @cons next expr rest formed movable _ ih =>
    rw [List.length_cons] at room
    obtain ⟨value, -, found⟩ : Gives expr.type (eval ctx.call expr) entry :=
      gives_of_movable fits (formed.grow within) movable
    have ran := eval_of_retains (fun {id kind} declared _ => (agree.slots id declared.lt).symm)
      (congrArg Shared.contents agree.shared.symm) formed movable found
    have inside : next < machine.slots.size := by omega
    let after : Machine := { machine with slots := machine.slots.setIfInBounds next (.scalar value) }
    have assigned : exec ctx (.assign next expr) machine = .ok .next after := by
      rw [exec, Step.bind_apply, Step.bind, assign, agree.untracked.1]
      rw [Step.bind, ran]
      dsimp only
      rw [Machine.write, if_pos inside]
      rfl
    have kept : AgreeBelow next after machine :=
      ⟨rfl, ⟨agree.untracked.1, agree.untracked.1⟩, ⟨by simp [after]; omega, by omega⟩,
        fun id below => by simp [after, Nat.ne_of_gt below]⟩
    have room : next + 1 + rest.length ≤ after.slots.size := by
      simp only [after, Array.size_setIfInBounds]
      omega
    obtain ⟨later, runs, still, temps⟩ := ih (by omega) room
      ((kept.mono above).trans agree)
    refine ⟨later, ?_, ?_, ?_⟩
    · rw [execBlock, Step.bind_apply, Step.bind, assigned]
      exact runs
    · exact (still.mono (Nat.le_succ next)).trans kept
    · intro id part member
      obtain same | member := List.mem_cons.1 member
      · cases same
        refine ⟨value, ?_, found⟩
        rw [← still.slots next (Nat.lt_succ_self next)]
        simp [after, inside]
      · exact temps member

end Carries

section Lifting

variable {α β : Type} {domain full : Domain} {contents : Contents} {written : List LocalId}

/-- What has been moved so far stands in the locals after those of the domain. -/
structure Stocked (domain : Domain) (written : List LocalId) (moving : Moving) : Prop where
  room : moving.routine.locals.length = domain.locals.length + moving.moved.length
  moved : Moved domain written domain.locals.length moving.moved

/-- Moving parts out: in the end, whatever else is moved, the result is good. -/
def Lifts (domain : Domain) (written : List LocalId) (holds : List Stmt → α → Prop)
    (action : StateM Moving α) : Prop :=
  ∀ moving, Stocked domain written moving →
    Stocked domain written (action.run moving).2 ∧ moving.moved ⊆ (action.run moving).2.moved ∧
      ∀ final, Moved domain written domain.locals.length final →
        (action.run moving).2.moved ⊆ final → holds final (action.run moving).1

namespace Lifts

variable {holds : List Stmt → α → Prop} {fine : List Stmt → β → Prop}

theorem pure {value : α} (held : ∀ final, Moved domain written domain.locals.length final →
    holds final value) : Lifts domain written holds (Pure.pure value) :=
  fun _ stocked => ⟨stocked, List.Subset.refl _, fun final moved _ => held final moved⟩

theorem bind {action : StateM Moving α} {next : α → StateM Moving β}
    (first : Lifts domain written holds action)
    (rest : ∀ value, Lifts domain written (fun final result => holds final value →
      fine final result) (next value)) : Lifts domain written fine (action >>= next) := by
  intro moving stocked
  obtain ⟨between, more, held⟩ := first moving stocked
  obtain ⟨after, others, leads⟩ := rest _ _ between
  exact ⟨after, List.Subset.trans more others, fun final moved all =>
    leads final moved all (held final moved (List.Subset.trans others all))⟩

end Lifts

variable {call : Callee} {entry : Machine} (within : domain.Within full)
  (calls : CallsAgree True full contents call call) (typed : entry.shared.contents = contents)

/-- What stands for an expression in the loop has its value. -/
abbrev Stands (domain full : Domain) (contents : Contents) (written : List LocalId) (call : Callee)
    (entry : Machine) (expr : Expr) (final : List Stmt) (lifted : Expr) : Prop :=
  (suiting (Carries domain written final call entry) full contents).Alike (eval call lifted)
    (eval call expr)

section Expressions

include within calls typed

theorem lifts_moveOr {rest : StateM Moving Expr} (formed : expr.Formed domain)
    (inner : Lifts domain written (Stands domain full contents written call entry expr) rest) :
    Lifts domain written (Stands domain full contents written call entry expr)
      (if isMovable written expr then if expr.nodeCount > 1 then moveOut expr else pure expr
        else rest) := by
  split
  · rename_i movable
    split
    · intro moving stocked
      have moved := stocked.moved.concat formed movable
      rw [← stocked.room] at moved
      refine ⟨⟨?_, moved⟩, List.subset_append_left _ _, fun final held all => ?_⟩
      · have room := stocked.room
        change (moving.routine.locals ++ [_]).length = _ + (moving.moved ++ [_]).length
        rw [List.length_append, List.length_append, room]
        rfl
      · exact alike_temp held expr.type (all (List.mem_append_right _ (.head _))) typed
    · exact .pure fun _ _ => aligned_carries.eval within calls formed
  · exact inner

mutual

/-- An expression has its value in the loop with parts of it moved out, whatever else is moved
later. -/
theorem lifts_liftExpr {expr : Expr} (formed : expr.Formed domain) :
    Lifts domain written (Stands domain full contents written call entry expr)
      (liftExpr written expr) := by
  unfold liftExpr
  refine lifts_moveOr within calls typed formed ?_
  match expr with
  | .const _ | .var _ _ | .len _ => exact .pure fun _ _ => aligned_carries.eval within calls formed
  | .unary op _ =>
    exact .bind (lifts_liftExpr formed.1) fun _ => .pure fun _ _ inner => inner.unary op
  | .cast op _ =>
    exact .bind (lifts_liftExpr formed.1) fun _ => .pure fun _ _ inner => inner.cast op
  | .abs _ => exact .bind (lifts_liftExpr formed.1) fun _ => .pure fun _ _ inner => inner.abs
  | .index _ _ _ =>
    exact .bind (lifts_liftExpr formed.2.1) fun _ => .pure fun _ _ inner =>
      inner.index (aligned_carries.length formed.1) (aligned_carries.load formed.1)
  | .binary op _ _ | .compare op _ _ | .logic op _ _ | .extremum op _ _ =>
    refine .bind (lifts_liftExpr formed.1.1) fun _ => .bind (lifts_liftExpr formed.1.2) fun _ =>
      .pure fun _ _ second first => ?_
    first
    | exact first.binary second op
    | exact first.compare second op
    | exact first.logic second op
    | exact first.extremum second op
  | .select _ _ _ =>
    exact .bind (lifts_liftExpr formed.1.1) fun _ => .bind (lifts_liftExpr formed.1.2.1) fun _ =>
      .bind (lifts_liftExpr formed.1.2.2) fun _ =>
        .pure fun _ _ third second first => first.select second third
  | .call _ _ _ =>
    obtain ⟨_, _, _, passed⟩ := id formed
    exact .bind (lifts_liftArgs passed) fun _ =>
      .pure fun _ _ inner => aligned_carries.invocation within calls inner formed

theorem lifts_liftArgs {args : List (ArgOf Expr)} {kinds : List Kind}
    (formed : ArgsFormed domain args kinds) :
    Lifts domain written (fun final lifted => (suiting (Carries domain written final call entry)
      full contents).Alike (evalArgs call lifted) (evalArgs call args)) (liftArgs written args) :=
      by
  unfold liftArgs
  match args with
  | [] =>
    exact .pure fun _ _ => by
      rw [evalArgs]
      exact .pure _
  | .scalar _ :: _ =>
    obtain ⟨_, _, formed, later⟩ := formed
    refine .bind (lifts_liftExpr formed) fun _ => .bind (lifts_liftArgs later) fun _ =>
      .pure fun _ _ others first => ?_
    rw [evalArgs, evalArgs]
    exact first.bind fun _ => others.bind fun _ => .pure _
  | .array _ :: _ =>
    obtain ⟨_, _, _, declared, later⟩ := formed
    refine .bind (lifts_liftArgs later) fun _ => .pure fun _ _ others => ?_
    rw [evalArgs_array, evalArgs_array]
    exact (aligned_carries.handle declared).bind fun _ => others.bind fun _ => .pure _

end

end Expressions

/-- What stands for a statement of the loop does the same. -/
abbrev StandsIn (domain full : Domain) (contents : Contents) (written : List LocalId)
    (ctx : Context) (entry : Machine) (step : Step Machine Flow) (final : List Stmt)
    (lifted : Step Machine Flow) : Prop :=
  (suiting (Carries domain written final ctx.call entry) full contents).Alike lifted step

section Statements

variable {ctx : Context} (twins : SameCode True full contents ctx ctx)

include within twins typed

mutual

/-- A statement does the same in the loop with parts of it moved out, whatever else is moved
later. -/
theorem lifts_liftStmt {place : Passes.Place} {stmt : Stmt} (flat : place.rule.unlowered)
    (formed : stmt.Formed domain place)
    (writes : ∀ node ∈ stmt.nodes, ∀ id ∈ node.ownWrites, id ∈ written) :
    Lifts domain written (fun final lifted => StandsIn domain full contents written ctx entry
      (exec ctx stmt) final (exec ctx lifted)) (liftStmt written stmt) := by
  unfold liftStmt
  match stmt with
  | .assign id value =>
    have may : Writable domain written id :=
      ⟨writes _ (Stmt.self_mem_nodes _) id (.head _), _, formed.1⟩
    exact .bind (lifts_liftExpr within twins.calls typed formed.2) fun _ => .pure fun _ _ inner =>
      aligned_carries.assign within twins flat inner may formed
  | .store _ _ _ =>
    exact .bind (lifts_liftExpr within twins.calls typed formed.2.1.1) fun _ =>
      .bind (lifts_liftExpr within twins.calls typed formed.2.2) fun _ =>
        .pure fun _ _ second first => aligned_carries.storage within twins flat second first formed
  | .eval value =>
    have held : value.Formed domain := formed
    exact .bind (lifts_liftExpr within twins.calls typed held) fun _ => .pure fun _ _ inner =>
      inner.evaluation
  | .branch _ _ _ =>
    refine .bind (lifts_liftExpr within twins.calls typed formed.1.1) fun _ =>
      .bind (lifts_liftBlock flat formed.2.1 ?_) fun _ => .bind (lifts_liftBlock flat formed.2.2 ?_)
        fun _ => .pure fun _ _ no yes test => test.branch yes no
    · exact fun _ member => writes _ (by simp [Stmt.nodes, member])
    · exact fun _ member => writes _ (by simp [Stmt.nodes, member])
  | .whileLoop _ _ span =>
    have inside : place.inLoop.rule.unlowered := flat
    refine .bind (lifts_liftExpr within twins.calls typed formed.1.1) fun _ =>
      .bind (lifts_liftBlock inside formed.2 ?_) fun _ => .pure fun _ _ body test =>
        test.repeated (.inl rfl) span body
    exact fun _ member => writes _ (by simp [Stmt.nodes, member])
  | .forLoop head _ =>
    have inside : place.inLoop.rule.unlowered := flat
    have may : Writable domain written head.var :=
      ⟨writes _ (Stmt.self_mem_nodes _) head.var (.head _), _, formed.1.counter⟩
    refine .bind (lifts_liftExpr within twins.calls typed formed.1.start.1) fun _ =>
      .bind (lifts_liftExpr within twins.calls typed formed.1.stop.1) fun _ =>
      .bind (lifts_liftExpr within twins.calls typed formed.1.step.1) fun _ =>
      .bind (lifts_liftBlock inside formed.2 ?_) fun _ => .pure fun _ _ body step stop start => ?_
    · exact fun _ member => writes _ (by simp [Stmt.nodes, member])
    · exact .forLoop (.inl rfl) (aligned_carries.counts within formed.1.counter may) start stop step body
  | .giveBack (some (.scalar _)) =>
    exact .bind (lifts_liftExpr within twins.calls typed formed.1.1) fun _ => .pure fun _ _ inner =>
      inner.returned
  | .block label body =>
    have held : Typed.BlockFormed domain (place.inBlock label) body := formed
    have inside : (place.inBlock label).rule.unlowered := flat
    refine .bind (lifts_liftBlock inside held ?_) fun _ => .pure fun _ _ body => body.block label
    exact fun _ member => writes _ (by simp [Stmt.nodes, member])
  | .giveBack none | .giveBack (some (.array _)) =>
    refine .pure fun _ _ => ?_
    rw [exec]
    exact .bind (.resultOf rfl (fun _ => rfl) nofun) fun _ => .pure _
  | .leave | .skip | .exit _ =>
    refine .pure fun _ _ => ?_
    rw [exec]
    exact .pure _
  | .vector _ _ | .parallel _ _ => exact (formed.1.2 flat).elim

theorem lifts_liftBlock {place : Passes.Place} {body : List Stmt} (flat : place.rule.unlowered)
    (formed : Typed.BlockFormed domain place body)
    (writes : ∀ node ∈ Stmt.blockNodes body, ∀ id ∈ node.ownWrites, id ∈ written) :
    Lifts domain written (fun final lifted => StandsIn domain full contents written ctx entry
      (execBlock ctx body) final (execBlock ctx lifted)) (liftBlock written body) := by
  unfold liftBlock
  match body with
  | [] =>
    exact .pure fun _ _ => by
      rw [execBlock]
      exact .pure _
  | _ :: _ =>
    refine .bind (lifts_liftStmt flat formed.1 ?_) fun _ =>
      .bind (lifts_liftBlock flat formed.2 ?_) fun _ => .pure fun _ _ others first =>
        first.cons others
    · exact fun _ member => writes _ (by simp [Stmt.blockNodes, member])
    · exact fun _ member => writes _ (by simp [Stmt.blockNodes, member])

end

end Statements
end Lifting
end TwoTier.Native
