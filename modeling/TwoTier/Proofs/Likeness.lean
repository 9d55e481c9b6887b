import TwoTier.Native.Stmt
import TwoTier.Proofs.Loop
import TwoTier.Proofs.Nodes

namespace TwoTier.Native

open Typed (ArgOf Expr ForHead LocalId Stmt VectorHead)

variable {group otherGroup : Int64 → Partials → Step Machine (Flow × Partials)}

/-- A way in which steps can be alike that sequences respect. -/
structure Likeness where
  Alike : ∀ {α : Type}, Step Machine α → Step Machine α → Prop
  constant : ∀ {α : Type} {step : Step Machine α}, step.Constant → Alike step step
  sequence : ∀ {α β : Type} {step other : Step Machine α} {next otherNext : α → Step Machine β},
    Alike step other → (∀ value, Alike (next value) (otherNext value)) →
      Alike (step >>= next) (other >>= otherNext)
  exhausted : ∀ {α : Type}, Alike (Step.exhausted : Step Machine α) Step.exhausted

namespace Likeness

/-- Iterations granted to two loops: as many to both, or more where running out is like anything. -/
def Grants (likeness : Likeness) (fuel more : Nat) : Prop :=
  fuel = more ∨ fuel ≤ more ∧
    ∀ {α : Type} {other : Step Machine α}, likeness.Alike Step.exhausted other

variable {likeness : Likeness} {fuel more : Nat}

theorem Grants.exhausted (grants : likeness.Grants 0 more) (loop : Nat → Step Machine α)
    (start : loop 0 = Step.exhausted) : likeness.Alike Step.exhausted (loop more) := by
  obtain rfl | ⟨-, any⟩ := grants
  · exact start ▸ likeness.exhausted
  · exact any

theorem Grants.exists_pred (grants : likeness.Grants (fuel + 1) more) :
    ∃ rest, more = rest + 1 ∧ likeness.Grants fuel rest := by
  obtain rfl | ⟨enough, any⟩ := grants
  · exact ⟨fuel, rfl, .inl rfl⟩
  · obtain ⟨rest, rfl⟩ := Nat.exists_eq_add_of_le' (Nat.le_of_succ_le enough)
    cases rest with
    | zero => omega
    | succ rest => exact ⟨rest + fuel, by omega, .inr ⟨by omega, any⟩⟩

namespace Alike

variable {α β : Type}

theorem of_constant {step : Step Machine α} (constant : step.Constant) : likeness.Alike step step :=
  likeness.constant constant

theorem pure (value : α) : likeness.Alike (Pure.pure value) (Pure.pure value) :=
  .of_constant (.pure value)

theorem bind {step other : Step Machine α} {next otherNext : α → Step Machine β}
    (first : likeness.Alike step other) (rest : ∀ value, likeness.Alike (next value) (otherNext value)) :
    likeness.Alike (step >>= next) (other >>= otherNext) :=
  likeness.sequence first rest

theorem forM {items : List α} {step other : α → Step Machine Unit}
    (each : ∀ item ∈ items, likeness.Alike (step item) (other item)) :
    likeness.Alike (items.forM step) (items.forM other) := by
  induction items with
  | nil => exact .pure ()
  | cons first rest ih =>
    exact (each first (.head _)).bind fun _ =>
      ih fun item member => each item (.tail _ member)

theorem mapM {items : List α} {step other : α → Step Machine β}
    (each : ∀ item ∈ items, likeness.Alike (step item) (other item)) :
    likeness.Alike (items.mapM step) (items.mapM other) := by
  induction items with
  | nil => exact .pure []
  | cons first rest ih =>
    rw [List.mapM_cons, List.mapM_cons]
    exact (each first (.head _)).bind fun _ =>
      (ih fun item member => each item (.tail _ member)).bind fun _ => .pure _

end Alike

end Likeness

def Machine.handle (id : LocalId) : Step Machine (Option Nat) := fun machine =>
  match machine.slots[id]? with
  | some (.array buffer) => .ok buffer machine
  | _ => .stuck

theorem Machine.handle_eq_ok {id : LocalId} {buffer : Option Nat} {after : Machine} :
    handle id machine = .ok buffer after ↔
      machine.slots[id]? = some (.array buffer) ∧ after = machine := by
  unfold handle
  cases machine.slots[id]? with
  | none => simp
  | some slot => cases slot <;> simp [eq_comm]

theorem evalArgs_array (call : Callee) (id : LocalId) (rest : List (ArgOf Expr)) :
    evalArgs call (.array id :: rest) = Machine.handle id >>= fun buffer =>
      evalArgs call rest >>= fun values => pure (.array buffer :: values) := by
  funext machine
  rw [evalArgs, Step.bind_apply, Step.bind, Machine.handle]
  dsimp only
  cases machine.slots[id]? with
  | none => rfl
  | some slot => cases slot <;> rfl

namespace Likeness

section Evaluation

variable {likeness : Likeness} {call other : Callee}

/-- What evaluation needs of a node at which it looks at the machine. -/
def Access (likeness : Likeness) (call other : Callee) (node : Expr) : Prop :=
  match node with
  | .var id _ => likeness.Alike (Machine.read id) (Machine.read id)
  | .len array => likeness.Alike (Machine.length array) (Machine.length array)
  | .index _ _ position =>
    likeness.Alike (eval call position) (eval other position) →
      likeness.Alike (eval call node) (eval other node)
  | .call callee _ args =>
    (∀ id, .array id ∈ args → likeness.Alike (Machine.handle id) (Machine.handle id)) ∧
      (likeness.Alike (evalArgs call args) (evalArgs other args) →
        likeness.Alike (evalArgs call args >>= fun values => Machine.onShared (call callee values))
          (evalArgs other args >>= fun values => Machine.onShared (other callee values)))
  | _ => True

section Nodes

variable {x x' y y' z z' : Expr} (first : likeness.Alike (eval call x) (eval other x'))

include first

theorem Alike.unary (op : Typed.UnaryOp) :
    likeness.Alike (eval call (.unary op x)) (eval other (.unary op x')) := by
  exact first.bind fun _ => .of_constant (constant_unary op _)

theorem Alike.cast (op : Typed.CastOp) :
    likeness.Alike (eval call (.cast op x)) (eval other (.cast op x')) := by
  exact first.bind fun _ => .of_constant (constant_cast op _)

theorem Alike.abs : likeness.Alike (eval call (.abs x)) (eval other (.abs x')) := by
  exact first.bind fun _ => .of_constant (constant_absolute _)

theorem Alike.evalInt : likeness.Alike (evalInt call x) (evalInt other x') :=
  first.bind fun _ => .of_constant (constant_requireInt _)

theorem Alike.index {array : LocalId} {element : NumType}
    (length : likeness.Alike (Machine.length array) (Machine.length array))
    (load : ∀ position, likeness.Alike (Machine.load array position) (Machine.load array position)) :
    likeness.Alike (eval call (.index array element x)) (eval other (.index array element x')) := by
  exact first.bind fun _ => .bind (.of_constant (constant_requireInt _)) fun _ =>
    length.bind fun _ => .bind (.of_constant (.ofOption _)) fun _ => load _

variable (second : likeness.Alike (eval call y) (eval other y'))

include second

theorem Alike.binary (op : ArithOp) :
    likeness.Alike (eval call (.binary op x y)) (eval other (.binary op x' y')) := by
  exact first.bind fun _ => second.bind fun _ => .of_constant (constant_arith op _ _)

theorem Alike.compare (op : Typed.Comparison) :
    likeness.Alike (eval call (.compare op x y)) (eval other (.compare op x' y')) := by
  exact first.bind fun _ => second.bind fun _ => .of_constant (constant_compare op _ _)

theorem Alike.extremum (op : Typed.Extremum) :
    likeness.Alike (eval call (.extremum op x y)) (eval other (.extremum op x' y')) := by
  exact first.bind fun _ => second.bind fun _ => .of_constant (constant_extremum op _ _)

theorem Alike.logic (op : Typed.LogicOp) :
    likeness.Alike (eval call (.logic op x y)) (eval other (.logic op x' y')) := by
  refine first.bind fun _ => ?_
  split
  · exact .pure _
  · exact second

theorem Alike.select (third : likeness.Alike (eval call z) (eval other z')) :
    likeness.Alike (eval call (.select x y z)) (eval other (.select x' y' z')) := by
  refine first.bind fun _ => .bind (.of_constant (constant_requireBool _)) fun _ => ?_
  split
  · exact second
  · exact third

end Nodes

mutual

/-- Evaluation is alike if it is at each node that looks at the machine. -/
theorem Alike.eval (accesses : ∀ node ∈ expr.nodes, likeness.Access call other node) :
    likeness.Alike (eval call expr) (eval other expr) := by
  have here := accesses expr expr.self_mem_nodes
  match expr with
  | .const value => exact .pure value
  | .var id _ => exact here
  | .unary op operand =>
    exact .unary (.eval fun _ member => accesses _ (by simp [Expr.nodes, member])) op
  | .binary op _ _ | .compare op _ _ | .logic op _ _ | .extremum op _ _ =>
    rw [Expr.nodes, List.forall_mem_cons, List.forall_mem_append] at accesses
    obtain ⟨-, first, second⟩ := accesses
    first
    | exact .binary (.eval first) (.eval second) op
    | exact .compare (.eval first) (.eval second) op
    | exact .logic (.eval first) (.eval second) op
    | exact .extremum (.eval first) (.eval second) op
  | .select cond yes no =>
    rw [Expr.nodes, List.forall_mem_cons, List.forall_mem_append, List.forall_mem_append] at accesses
    exact .select (.eval accesses.2.1.1) (.eval accesses.2.1.2) (.eval accesses.2.2)
  | .cast op operand =>
    exact .cast (.eval fun _ member => accesses _ (by simp [Expr.nodes, member])) op
  | .index array element position =>
    exact here (.eval fun _ member => accesses _ (by simp [Expr.nodes, member]))
  | .len array => exact .bind here fun _ => .pure _
  | .call callee _ args =>
    refine here.2 (.evalArgs here.1 fun node member => accesses node ?_)
    simp [Expr.nodes, member]
  | .abs operand => exact .abs (.eval fun _ member => accesses _ (by simp [Expr.nodes, member]))

theorem Alike.evalArgs
    (arrays : ∀ id, .array id ∈ args → likeness.Alike (Machine.handle id) (Machine.handle id))
    (accesses : ∀ node ∈ Expr.argNodes args, likeness.Access call other node) :
    likeness.Alike (evalArgs call args) (evalArgs other args) := by
  match args with
  | [] =>
    exact .pure _
  | .scalar value :: rest =>
    exact .bind (.eval fun _ member => accesses _ (by simp [Expr.argNodes, member])) fun _ =>
      .bind (.evalArgs (fun id member => arrays id (.tail _ member))
        fun _ member => accesses _ (by simp [Expr.argNodes, member])) fun _ => .pure _
  | .array array :: rest =>
    rw [evalArgs_array, evalArgs_array]
    exact .bind (arrays array (.head _)) fun _ =>
      .bind (.evalArgs (fun id member => arrays id (.tail _ member))
        fun node member => accesses node (by simpa [Expr.argNodes] using member)) fun _ => .pure _

end

end Evaluation

section Loops

variable {likeness : Likeness} {run other : Step Machine Flow} {fuel more : Nat}

theorem Alike.afterBody {again : Step Machine Flow} (rest : likeness.Alike again otherAgain)
    (flow : Flow) : likeness.Alike (afterBody again flow) (afterBody otherAgain flow) := by
  cases flow with
  | next | skip => exact rest
  | leave | giveBack | exit => exact .pure _

theorem Alike.whileLoop {cond : Step Machine Bool} (test : likeness.Alike cond otherCond)
    (body : likeness.Alike run other) (grants : likeness.Grants fuel more) :
    likeness.Alike (whileLoop cond run fuel) (whileLoop otherCond other more) := by
  induction fuel generalizing more with
  | zero => exact grants.exhausted (Native.whileLoop otherCond other) rfl
  | succ fuel ih =>
    obtain ⟨more, rfl, rest⟩ := grants.exists_pred
    rw [whileLoop_succ, whileLoop_succ]
    refine test.bind fun holds => ?_
    split
    · exact body.bind (.afterBody (ih rest))
    · exact .pure _

/-- The counter of a loop is written alike, and read where the loop keeps it. -/
structure Counts (likeness : Likeness) (head : ForHead) : Prop where
  write : ∀ i, likeness.Alike (Machine.write head.var (.int i)) (Machine.write head.var (.int i))
  read : head.exitValue = true →
    likeness.Alike (Machine.readInt head.var) (Machine.readInt head.var)

section Counter

variable {head : ForHead} (counts : likeness.Counts head)

include counts

theorem Counts.nextCount (step i : Int64) :
    likeness.Alike (nextCount head step i) (nextCount head step i) := by
  unfold Native.nextCount
  split
  · rename_i kept
    refine (counts.read kept).bind fun i => ?_
    dsimp only
    split
    · exact .of_constant .deopt
    · exact (counts.write _).bind fun _ => .pure _
  · exact .pure _

theorem Counts.countFrom (body : likeness.Alike run other) (stop step : Int64)
    (grants : likeness.Grants fuel more) (i : Int64) :
    likeness.Alike (countFrom head stop step run fuel i)
      (countFrom head stop step other more i) := by
  induction fuel generalizing i more with
  | zero => exact grants.exhausted (Native.countFrom head stop step other · i) rfl
  | succ fuel ih =>
    obtain ⟨more, rfl, rest⟩ := grants.exists_pred
    rw [countFrom_succ, countFrom_succ]
    split
    · refine .bind ?_ fun _ => body.bind (.afterBody ?_)
      · unfold setCount
        split
        · exact .pure _
        · exact counts.write _
      · refine (counts.nextCount step i).bind fun next => ?_
        cases next with
        | none => exact .pure _
        | some next => exact ih rest next
    · exact .pure _

theorem Counts.countedLoop (body : likeness.Alike run other) (grants : likeness.Grants fuel more)
    (start stop step : Int64) :
    likeness.Alike (countedLoop head start stop step run fuel)
      (countedLoop head start stop step other more) := by
  have looped := counts.countFrom body stop step grants start
  unfold Native.countedLoop
  split
  · exact .of_constant .deopt
  · split
    · exact (counts.write _).bind fun _ => looped
    · exact looped

end Counter

theorem Alike.unitFrom
    (write : ∀ i, likeness.Alike (Machine.write var (.int i)) (Machine.write var (.int i)))
    (body : likeness.Alike run other) (stop : Int64) (grants : likeness.Grants fuel more)
    (i : Int64) :
    likeness.Alike (unitFrom var stop run fuel i) (unitFrom var stop other more i) := by
  induction fuel generalizing i more with
  | zero => exact grants.exhausted (Native.unitFrom var stop other · i) rfl
  | succ fuel ih =>
    obtain ⟨more, rfl, rest⟩ := grants.exists_pred
    rw [unitFrom_succ, unitFrom_succ]
    split
    · exact (write i).bind fun _ => body.bind (.afterBody (ih rest _))
    · exact .pure _

section Groups

variable {head : VectorHead}

theorem Alike.afterGroup {again otherAgain : Partials → Step Machine GroupsEnd}
    (rest : ∀ partials, likeness.Alike (again partials) (otherAgain partials))
    (ended : Flow × Partials) :
    likeness.Alike (afterGroup again ended) (afterGroup otherAgain ended) := by
  obtain ⟨flow, partials⟩ := ended
  cases flow with
  | next | skip => exact rest partials
  | leave | giveBack | exit => exact .pure _

theorem Alike.groupsFrom
    (groups : ∀ i partials, likeness.Alike (group i partials) (otherGroup i partials))
    (width stop : Int64) (grants : likeness.Grants fuel more) (i : Int64) (partials : Partials) :
    likeness.Alike (groupsFrom group width stop fuel i partials)
      (groupsFrom otherGroup width stop more i partials) := by
  induction fuel generalizing i partials more with
  | zero => exact grants.exhausted (Native.groupsFrom otherGroup width stop · i partials) rfl
  | succ fuel ih =>
    obtain ⟨more, rfl, rest⟩ := grants.exists_pred
    rw [groupsFrom_succ, groupsFrom_succ]
    split
    · exact (groups i partials).bind (.afterGroup (ih rest _))
    · exact .pure _

/-- All locals are read and written alike. -/
structure Locals (likeness : Likeness) : Prop where
  read : ∀ id, likeness.Alike (Machine.read id) (Machine.read id)
  write : ∀ id value, likeness.Alike (Machine.write id value) (Machine.write id value)

section

variable (locals : likeness.Locals)

include locals

theorem Locals.readInt (id : LocalId) :
    likeness.Alike (Machine.readInt id) (Machine.readInt id) :=
  (locals.read id).bind fun value => by
    cases value with
    | int => exact .pure _
    | float | bool => exact .of_constant .stuck

theorem Locals.readLane (reductions : List Reduction) :
    likeness.Alike (reductions.mapM fun reduction => Machine.read reduction.acc)
      (reductions.mapM fun reduction => Machine.read reduction.acc) :=
  .mapM fun _ _ => locals.read _

theorem Locals.writeLane (entries : List (Reduction × Scalar)) :
    likeness.Alike (entries.forM fun (reduction, value) => Machine.write reduction.acc value)
      (entries.forM fun (reduction, value) => Machine.write reduction.acc value) :=
  .forM fun entry _ => locals.write entry.1.acc entry.2

theorem Locals.withLane (body : likeness.Alike run other)
    (reductions : List Reduction) (lane : List Scalar) :
    likeness.Alike (withLane reductions lane run) (withLane reductions lane other) :=
  (locals.readLane _).bind fun _ => (locals.writeLane _).bind fun _ => body.bind fun _ =>
    (locals.readLane _).bind fun _ => (locals.writeLane _).bind fun _ => .pure _

theorem Locals.laneGroup (body : likeness.Alike run other) (i : Int64) (lanes : Partials) :
    likeness.Alike (laneGroup head run i lanes) (laneGroup head other i lanes) := by
  induction lanes generalizing i with
  | nil => exact .pure _
  | cons lane rest ih =>
    refine (locals.write head.var (.int i)).bind fun _ => (locals.withLane body _ lane).bind
      fun (flow, _) => ?_
    cases flow with
    | next | skip => exact (ih (i + 1)).bind fun _ => .pure _
    | leave | giveBack | exit => exact .pure _

theorem Locals.lanesStep (body : likeness.Alike run other) (i : Int64) (lanes : Partials) :
    likeness.Alike (lanesStep head run i lanes) (lanesStep head other i lanes) := by
  refine (locals.write head.var (.int i)).bind fun _ => body.bind fun flow => ?_
  cases flow with
  | next | skip => exact locals.laneGroup body _ _
  | leave | giveBack | exit => exact .pure _

end

theorem constant_foldPart (reduction : Reduction) (acc part : Scalar) :
    (foldPart reduction acc part).Constant := by
  unfold foldPart
  split
  all_goals first
    | exact .pure _
    | exact (Step.Constant.ofOption _).bind fun _ => .pure _
    | exact .stuck

/-- What a loop in groups does to the machine by itself is alike, the stores in its body apart. -/
structure Covers (likeness : Likeness) : Prop extends likeness.Locals where
  length : ∀ id, likeness.Alike (Machine.length id) (Machine.length id)
  load : ∀ id position, likeness.Alike (Machine.load id position) (Machine.load id position)
  sums : ∀ head : VectorHead, likeness.Alike (fun machine => .ok (untrackedSums head machine) machine)
    fun machine => .ok (untrackedSums head machine) machine
  track : ∀ ids, likeness.Alike (track ids) (track ids)
  untrack : ∀ ids, likeness.Alike (untrack ids) (untrack ids)

variable (covers : likeness.Covers)

include covers

theorem Covers.vectorPhase
    (groups : ∀ i partials, likeness.Alike (group i partials) (otherGroup i partials))
    (start stop : Int64) (grants : likeness.Grants fuel more) :
    likeness.Alike (vectorPhase head group start stop fuel)
      (vectorPhase head otherGroup start stop more) := by
  have sums : likeness.Alike (newlyTracked head) (newlyTracked head) :=
    (covers.sums head).bind fun _ => .mapM fun _ _ => (covers.readInt _).bind fun _ => .pure _
  have folds (lane : List Scalar) :
      likeness.Alike (foldLane head.reductions lane) (foldLane head.reductions lane) :=
    .forM fun _ _ => (covers.read _).bind fun acc =>
      .bind (.of_constant (constant_foldPart _ acc _)) fun _ => covers.write _ _
  refine sums.bind fun entries => (covers.track _).bind fun _ =>
    (Alike.groupsFrom groups _ stop grants start _).bind fun ended => (covers.untrack _).bind
    fun _ => ?_
  cases ended with
  | left => exact .pure _
  | done next partials =>
    refine .bind ?_ fun _ => .bind (.forM fun lane _ => folds lane) fun _ => .pure _
    unfold checkDistances
    split
    · exact .pure _
    · exact .of_constant .deopt

theorem Covers.vectorLoop
    (groups : ∀ i partials, likeness.Alike (group i partials) (otherGroup i partials))
    (body : likeness.Alike run other) (start stop : Int64) (grants : likeness.Grants fuel more) :
    likeness.Alike (vectorLoop head group run start stop fuel)
      (vectorLoop head otherGroup other start stop more) := by
  have rest := Alike.unitFrom (fun i => covers.write head.var (.int i)) body stop grants
  unfold Native.vectorLoop
  split
  · exact rest start
  · refine (covers.vectorPhase groups start stop grants).bind fun ended => ?_
    cases ended with
    | done next partials => exact rest next
    | left flow => cases flow <;> exact .pure _

end Groups

section Packed

theorem constant_requireFloat (value : Scalar) : (requireFloat value).Constant := by
  cases value with
  | float => exact .pure _
  | int | bool => exact .stuck

theorem constant_packedArith (op : ArithOp) (x y : Float × Float) :
    (packedArith op x y).Constant := by
  cases op with
  | add | sub | mul => exact .pure _
  | div | floorDiv | mod | pow | bitAnd | bitOr | bitXor | shl | shr => exact .stuck

theorem constant_packedUpdate (op : ArithOp) (operand : Float × Float)
    (reductions : List Reduction) (acc : LocalId) (partials : Partials) :
    (packedUpdate op operand reductions acc partials).Constant := by
  unfold packedUpdate
  split
  · exact (constant_requireFloat _).bind fun _ => (constant_requireFloat _).bind fun _ =>
      (constant_packedArith op _ _).bind fun _ => .pure _
  · exact .stuck

variable {head : VectorHead} {i : Int64} (covers : likeness.Covers)

include covers

theorem Covers.pairPosition (array : LocalId) :
    likeness.Alike (pairPosition array i) (pairPosition array i) := by
  refine (covers.length array).bind fun length => ?_
  split
  · exact .of_constant .deopt
  · exact .pure _

theorem Covers.packedEval (expr : Expr) :
    likeness.Alike (packedEval i expr) (packedEval i expr) := by
  fun_induction Native.packedEval i expr with
  | case1 value => exact .pure _
  | case2 id =>
    exact (covers.read _).bind fun _ => .bind (.of_constant (constant_requireFloat _)) fun _ =>
      .pure _
  | case3 array =>
    exact (covers.pairPosition array).bind fun _ => (covers.load _ _).bind fun _ =>
      .bind (.of_constant (constant_requireFloat _)) fun _ => (covers.load _ _).bind fun _ =>
      .bind (.of_constant (constant_requireFloat _)) fun _ => .pure _
  | case4 op left right first second =>
    exact first.bind fun _ => second.bind fun _ => .of_constant (constant_packedArith op _ _)
  | case5 operand inner => exact inner.bind fun _ => .pure _
  | case6 => exact .of_constant .stuck

theorem Covers.packedStep
    (stores : ∀ {array index value}, .store array index value ∈ body → ∀ position value,
      likeness.Alike (Machine.store array position value) (Machine.store array position value))
    (partials : Partials) :
    likeness.Alike (packedStep head body i partials) (packedStep head body i partials) := by
  refine .bind ?_ fun _ => .pure _
  induction body generalizing partials with
  | nil => exact .pure _
  | cons stmt rest ih =>
    refine .bind ?_ fun partials => ih (fun member => stores (.tail _ member)) partials
    unfold packedStmt
    split
    · have put := stores (.head _)
      exact (covers.packedEval _).bind fun _ => (covers.pairPosition _).bind fun _ =>
        (put _ _).bind fun _ => (put _ _).bind fun _ => .pure _
    · exact (covers.packedEval _).bind fun _ => .of_constant (constant_packedUpdate _ _ _ _ _)
    · exact .of_constant .stuck

end Packed

end Loops

end Likeness

/-- Contexts of one routine that differ in what their calls do and in what their loops are granted. -/
structure Context.Fellow (likeness : Likeness) (ctx other : Context) : Prop where
  routine : other.routine = ctx.routine
  leastChunk : other.leastChunk = ctx.leastChunk
  targetChunks : other.targetChunks = ctx.targetChunks
  grants : likeness.Grants ctx.fuel other.fuel

theorem Context.Fellow.refl (ctx : Context) : ctx.Fellow likeness ctx := ⟨rfl, rfl, rfl, .inl rfl⟩

def storeAt (call : Callee) (array : LocalId) (index value : Expr) : Step Machine Unit := do
  let value ← eval call value
  let index ← evalInt call index
  let length ← Machine.length array
  let position ← Step.ofOption (elementPosition index length)
  Machine.store array position value

theorem exec_store (ctx : Context) (array : LocalId) (index value : Expr) :
    exec ctx (.store array index value) =
      storeAt ctx.call array index value >>= fun _ => pure .next := by
  simp only [exec, storeAt, bind_assoc]

namespace Likeness

section Statements

variable {likeness : Likeness}

/-- What a statement needs by itself for runs of code to be alike. -/
structure AtNode (likeness : Likeness) (ctx other : Context) (node : Stmt) : Prop where
  evals : (∀ id value, node ≠ .assign id value) →
    ∀ expr ∈ node.exprs, likeness.Alike (eval ctx.call expr) (eval other.call expr)
  assign : ∀ {id value}, node = .assign id value →
    likeness.Alike (assign ctx id value) (assign other id value)
  store : ∀ {array index value}, node = .store array index value →
    likeness.Alike (storeAt ctx.call array index value) (storeAt other.call array index value)
  counter : ∀ {head body}, node = .forLoop head body → likeness.Counts head
  groups : ∀ {head body}, node = .vector head body → likeness.Covers ∧
    ∀ {array index value}, .store array index value ∈ body → ∀ position value,
      likeness.Alike (Machine.store array position value) (Machine.store array position value)
  chunks : ∀ {head chunk}, node = .parallel head chunk → ∀ {inPlace otherInPlace kernel otherKernel},
    likeness.Alike inPlace otherInPlace → likeness.Alike kernel otherKernel →
      ∀ start stop least target, likeness.Alike
        (parallelLoop ctx.routine head inPlace kernel start stop least target)
        (parallelLoop ctx.routine head otherInPlace otherKernel start stop least target)

theorem AtNode.inKernel {other : Context} (atNode : likeness.AtNode ctx other node) :
    likeness.AtNode ctx.inKernel other.inKernel node :=
  ⟨atNode.evals, atNode.assign, atNode.store, atNode.counter, atNode.groups, atNode.chunks⟩

theorem Alike.resultOf {other : Context} (result : other.routine.result = ctx.routine.result)
    {value : Option Typed.Result}
    (origins : ∀ {id}, value = some (.array id) → (other.routine.decl id).origin = (ctx.routine.decl
      id).origin)
    (evals : ∀ expr ∈ (Stmt.giveBack value).exprs, likeness.Alike (Native.eval ctx.call expr)
      (Native.eval other.call expr)) :
    likeness.Alike (resultOf ctx value) (resultOf other value) := by
  match value with
  | none =>
    rw [Native.resultOf, Native.resultOf, result]
    exact .pure _
  | some (.scalar value) => exact evals value (.head _)
  | some (.array id) =>
    rw [Native.resultOf, Native.resultOf, origins rfl]
    split
    · exact .pure _
    · exact .of_constant .stuck

section Nodes

variable {ctx other : Context} {x x' : Expr} {body body' : List Stmt}
  (first : likeness.Alike (Native.eval ctx.call x) (Native.eval other.call x'))

theorem Alike.block (label : Typed.Label)
    (inside : likeness.Alike (execBlock ctx body) (execBlock other body')) :
    likeness.Alike (exec ctx (.block label body)) (exec other (.block label body')) := by
  refine inside.bind fun flow => ?_
  cases flow with
  | exit | next | leave | skip | giveBack => exact .pure _

theorem Alike.cons {stmt' : Stmt} (head : likeness.Alike (exec ctx stmt) (exec other stmt'))
    (rest : likeness.Alike (execBlock ctx body) (execBlock other body')) :
    likeness.Alike (execBlock ctx (stmt :: body)) (execBlock other (stmt' :: body')) := by
  refine head.bind fun flow => ?_
  cases flow with
  | next => exact rest
  | leave | skip | giveBack | exit => exact .pure _

theorem Alike.forLoop (grants : likeness.Grants ctx.fuel other.fuel) (counts : likeness.Counts head)
    {y z : Expr}
    (start : likeness.Alike (Native.eval ctx.call x) (Native.eval other.call head.start))
    (stop : likeness.Alike (Native.eval ctx.call y) (Native.eval other.call head.stop))
    (step : likeness.Alike (Native.eval ctx.call z) (Native.eval other.call head.step))
    (inside : likeness.Alike (execBlock ctx body) (execBlock other body')) :
    likeness.Alike (exec ctx (.forLoop { head with start := x, stop := y, step := z } body))
      (exec other (.forLoop head body')) := by
  rw [exec]
  simp only [countedLoop_with]
  exact start.evalInt.bind fun _ => stop.evalInt.bind fun _ => step.evalInt.bind fun _ =>
    counts.countedLoop inside grants _ _ _

include first

theorem Alike.evaluation : likeness.Alike (exec ctx (.eval x)) (exec other (.eval x')) := by
  exact first.bind fun _ => .pure _

theorem Alike.returned : likeness.Alike (exec ctx (.giveBack (some (.scalar x))))
    (exec other (.giveBack (some (.scalar x')))) := by
  exact first.bind fun _ => .pure _

theorem Alike.branch {no' : List Stmt}
    (yes : likeness.Alike (execBlock ctx body) (execBlock other body'))
    (otherwise : likeness.Alike (execBlock ctx no) (execBlock other no')) :
    likeness.Alike (exec ctx (.branch x body no)) (exec other (.branch x' body' no')) := by
  refine first.bind fun _ => .bind (.of_constant (constant_requireBool _)) fun _ => ?_
  split
  · exact yes
  · exact otherwise

theorem Alike.repeated (grants : likeness.Grants ctx.fuel other.fuel) (span : Span)
    (inside : likeness.Alike (execBlock ctx body) (execBlock other body')) :
    likeness.Alike (exec ctx (.whileLoop x body span)) (exec other (.whileLoop x' body' span)) := by
  exact .whileLoop (first.bind fun _ => .of_constant (constant_requireBool _)) inside grants

end Nodes

mutual

/-- Runs of a statement are alike if each statement in it is by itself. -/
theorem Alike.exec {other : Context} (fellow : ctx.Fellow likeness other)
    (nodes : ∀ node ∈ stmt.nodes, likeness.AtNode ctx other node) :
    likeness.Alike (exec ctx stmt) (exec other stmt) := by
  have here := nodes stmt stmt.self_mem_nodes
  match stmt with
  | .assign id value =>
    exact (here.assign rfl).bind fun _ => .pure _
  | .store array index value =>
    rw [exec_store, exec_store]
    exact (here.store rfl).bind fun _ => .pure _
  | .eval value => exact .evaluation (here.evals nofun value (.head _))
  | .branch cond yes no =>
    exact .branch (here.evals nofun cond (.head _))
      (.execBlock fellow fun _ member => nodes _ (by simp [Stmt.nodes, member]))
      (.execBlock fellow fun _ member => nodes _ (by simp [Stmt.nodes, member]))
  | .whileLoop cond body span =>
    exact .repeated (here.evals nofun cond (.head _)) fellow.grants span
      (.execBlock fellow fun _ member => nodes _ (by simp [Stmt.nodes, member]))
  | .forLoop head body =>
    have evals := here.evals nofun
    exact .forLoop fellow.grants (here.counter rfl) (evals _ (by simp [Stmt.exprs]))
      (evals _ (by simp [Stmt.exprs])) (evals _ (by simp [Stmt.exprs]))
      (.execBlock fellow fun _ member => nodes _ (by simp [Stmt.nodes, member]))
  | .leave | .skip | .exit _ =>
    exact .pure _
  | .giveBack value =>
    exact .bind (.resultOf (by rw [fellow.routine]) (by simp [fellow.routine]) (here.evals nofun))
      fun _ => .pure _
  | .block label body =>
    exact .block label (.execBlock fellow fun _ member => nodes _ (by simp [Stmt.nodes, member]))
  | .vector head body =>
    have inner : likeness.Alike (Native.execBlock ctx body) (Native.execBlock other body) :=
      .execBlock fellow fun _ member => nodes _ (by simp [Stmt.nodes, member])
    obtain ⟨covers, stores⟩ := here.groups rfl
    have start := here.evals nofun head.start (by simp [Stmt.exprs])
    have stop := here.evals nofun head.stop (by simp [Stmt.exprs])
    refine start.evalInt.bind fun _ => stop.evalInt.bind fun _ =>
      covers.vectorLoop (fun i partials => ?_) inner _ _ fellow.grants
    cases head.form with
    | packed => exact covers.packedStep stores partials
    | lanes => exact covers.lanesStep inner i partials
  | .parallel head chunk =>
    have inPlace : likeness.Alike (Native.exec ctx chunk) (Native.exec other chunk) :=
      .exec fellow fun _ member => nodes _ (by simp [Stmt.nodes, member])
    have inside : ctx.inKernel.Fellow likeness other.inKernel :=
      ⟨fellow.routine, rfl, rfl, fellow.grants⟩
    have kernel : likeness.Alike (Native.exec ctx.inKernel chunk) (Native.exec other.inKernel chunk) :=
      .exec inside fun node member => (nodes node (by simp [Stmt.nodes, member])).inKernel
    have start := here.evals nofun head.start (by simp [Stmt.exprs])
    have stop := here.evals nofun head.stop (by simp [Stmt.exprs])
    rw [Native.exec, Native.exec, fellow.routine, fellow.leastChunk, fellow.targetChunks]
    exact start.evalInt.bind fun _ => stop.evalInt.bind fun _ =>
      here.chunks rfl inPlace kernel _ _ _ _

theorem Alike.execBlock {other : Context} (fellow : ctx.Fellow likeness other)
    (nodes : ∀ node ∈ Stmt.blockNodes body, likeness.AtNode ctx other node) :
    likeness.Alike (execBlock ctx body) (execBlock other body) := by
  match body with
  | [] =>
    exact .pure _
  | stmt :: rest =>
    exact .cons (.exec fellow fun _ member => nodes _ (by simp [Stmt.blockNodes, member]))
      (.execBlock fellow fun _ member => nodes _ (by simp [Stmt.blockNodes, member]))

end

end Statements

end Likeness
end TwoTier.Native
