import TwoTier.Proofs.Buffers
import TwoTier.Proofs.Lanes.Acceptance
import TwoTier.Proofs.Simulation

namespace TwoTier.Native

open Passes (Assigned checkReads flowBlock flowStmt splitObstacle?)
open Typed (Expr LocalId Stmt)

variable {id array : LocalId} {flow : Flow}

/-- Two machines that agree on the fixed locals and on those that have been assigned. -/
structure Agrees (fixed : LocalId → Prop) (sums : List LocalId) (limit : Nat)
    (assigned : List LocalId) (machine twin : Machine) : Prop where
  locals : ∀ id, fixed id ∨ id ∈ assigned → machine.slots[id]? = twin.slots[id]?
  room : limit ≤ twin.slots.size
  tracked : ∀ id, (machine.distances.lookup id).isSome → id ∈ sums
  distances : machine.distances = twin.distances
  shared : machine.shared = twin.shared

/-- What a statement of an iteration may name: fixed locals, and private scalars. -/
structure Confined (fixed : LocalId → Prop) (privates : List LocalId) (limit : Nat) (node : Stmt) :
    Prop where
  unobstructed : splitObstacle? node = none
  reads : ∀ expr ∈ node.exprs, ∀ part ∈ expr.nodes, ∀ id ∈ part.ownLocals,
    fixed id ∨ part.var? = some id ∧ id ∈ privates
  writes : ∀ id ∈ node.ownWrites, id < limit
  stores : ∀ {array index value}, node = .store array index value → fixed array

section Machines

variable {fixed : LocalId → Prop} {sums : List LocalId} {limit : Nat} {assigned others : List LocalId}
  {machine twin : Machine}

/-- Agreement on more locals is agreement on fewer, however they are told apart. -/
theorem Agrees.recast {fewer : LocalId → Prop} (agrees : Agrees fixed sums limit assigned machine twin)
    (known : ∀ id, fewer id ∨ id ∈ others → fixed id ∨ id ∈ assigned) :
    Agrees fewer sums limit others machine twin where
  locals id settled := agrees.locals id (known id settled)
  room := agrees.room
  tracked := agrees.tracked
  distances := agrees.distances
  shared := agrees.shared

theorem Agrees.mono (agrees : Agrees fixed sums limit assigned machine twin)
    (known : ∀ id ∈ others, fixed id ∨ id ∈ assigned) :
    Agrees fixed sums limit others machine twin :=
  agrees.recast fun id settled => settled.elim .inl (known id)

theorem Agrees.read (known : fixed id ∨ id ∈ assigned) :
    FollowsIn (Agrees fixed sums limit assigned) (Machine.read id) (Machine.read id) where
  run agrees ran := by
    obtain ⟨held, rfl⟩ := Machine.read_eq_ok.1 ran
    exact ⟨_, Machine.read_eq_ok.2 ⟨agrees.locals id known ▸ held, rfl⟩, agrees⟩

theorem Agrees.readInt (known : fixed id ∨ id ∈ assigned) :
    FollowsIn (Agrees fixed sums limit assigned) (Machine.readInt id) (Machine.readInt id) where
  run agrees ran := by
    obtain ⟨held, rfl⟩ := Machine.readInt_eq_ok.1 ran
    exact ⟨_, Machine.readInt_eq_ok.2 ⟨agrees.locals id known ▸ held, rfl⟩, agrees⟩

theorem Agrees.write (inside : id < limit) (value : Scalar) :
    Follows (Agrees fixed sums limit assigned) (fun _ => Agrees fixed sums limit (id :: assigned))
      (Machine.write id value) (Machine.write id value) where
  run {machine twin _ _} agrees ran := by
    obtain ⟨here, rfl⟩ := Machine.write_eq_ok.1 ran
    have there : id < twin.slots.size := Nat.lt_of_lt_of_le inside agrees.room
    refine ⟨_, Machine.write_eq_ok.2 ⟨there, rfl⟩, ⟨fun other known => ?_, ?_, agrees.tracked,
      agrees.distances, agrees.shared⟩⟩
    · by_cases same : id = other
      · subst same
        simp [here, there]
      · simp only [Array.getElem?_setIfInBounds_ne same]
        refine agrees.locals other (known.imp_right fun member => ?_)
        exact (List.mem_cons.1 member).resolve_left (Ne.symm same)
    · simpa using agrees.room

theorem Agrees.length (known : fixed array) :
    FollowsIn (Agrees fixed sums limit assigned) (Machine.length array) (Machine.length array) where
  run agrees ran := by
    have same := (Machine.length_eq_ok.1 ran).1
    unfold Machine.length at ran ⊢
    rw [← agrees.locals array (.inl known), ← agrees.shared]
    split at ran <;> simp_all

theorem Agrees.load (known : fixed array) (position : Nat) :
    FollowsIn (Agrees fixed sums limit assigned) (Machine.load array position)
      (Machine.load array position) where
  run agrees ran := by
    obtain ⟨rfl, buffer, held, element⟩ := Machine.load_eq_ok.1 ran
    refine ⟨_, Machine.load_eq_ok.2 ⟨rfl, buffer, ?_, ?_⟩, agrees⟩
    · rw [← agrees.locals array (.inl known), held]
    · rw [← agrees.shared, element]

theorem Agrees.store (known : fixed array) (position : Nat) (value : Scalar) :
    FollowsIn (Agrees fixed sums limit assigned) (Machine.store array position value)
      (Machine.store array position value) where
  run agrees ran := by
    obtain ⟨buffer, held, rfl⟩ := Machine.store_eq_ok.1 ran
    refine ⟨_, Machine.store_eq_ok.2 ⟨buffer, ?_, rfl⟩, ⟨agrees.locals, agrees.room,
      agrees.tracked, agrees.distances, ?_⟩⟩
    · rw [← agrees.locals array (.inl known), held]
    · rw [agrees.shared]

theorem Agrees.onShared {step other : Step Shared α} (refines : Refines step other) :
    FollowsIn (Agrees fixed sums limit assigned) (Machine.onShared step)
      (Machine.onShared other) where
  run {machine twin value later} agrees ran := by
    obtain ⟨shared, began, rfl⟩ := Machine.onShared_eq_ok.1 ran
    obtain ⟨after, ended, same⟩ := refines.run agrees.shared began
    exact ⟨_, Machine.onShared_eq_ok.2 ⟨after, ended, rfl⟩, agrees.locals, agrees.room,
      agrees.tracked, agrees.distances, same⟩

/-- Where all that an expression names is settled, it has the same value. -/
theorem Agrees.access {other : Callee} {node : Expr}
    (refined : ∀ {callee result args}, node = .call callee result args → ∀ values, Refines (call
      callee values) (other callee values))
    (known : ∀ id ∈ node.ownLocals, fixed id ∨ node.var? = some id ∧ id ∈ assigned) :
    Access (Agrees fixed sums limit assigned) call other node := by
  match node with
  | .var id _ => exact Agrees.read ((known id (by simp [Expr.ownLocals])).imp_right (·.2))
  | .len array =>
    have arrayKnown : fixed array := by simpa [Expr.ownLocals, Expr.var?] using known array
    exact Agrees.length arrayKnown
  | .index array element position =>
    have arrayKnown : fixed array := by simpa [Expr.ownLocals, Expr.var?] using known array
    exact fun inner => .index inner (Agrees.length arrayKnown) (Agrees.load arrayKnown)
  | .call callee result args =>
    refine ⟨fun id passed => ⟨fun agrees ran => ?_⟩,
      fun inner => inner.bind fun values => Agrees.onShared (refined rfl values)⟩
    have arrayKnown : fixed id := by
      simpa [Expr.var?] using known id (List.mem_filterMap.2 ⟨.array id, passed, rfl⟩)
    obtain ⟨held, rfl⟩ := Machine.handle_eq_ok.1 ran
    exact ⟨_, Machine.handle_eq_ok.2 ⟨agrees.locals id (.inl arrayKnown) ▸ held, rfl⟩, agrees⟩
  | .const _ | .unary _ _ | .binary _ _ _ | .compare _ _ _ | .logic _ _ _ | .select _ _ _
  | .cast _ _ | .abs _ | .extremum _ _ _ => trivial

theorem Agrees.assign {other : Context} {value : Expr} (steady : ∀ id ∈ sums, fixed id)
    (inside : id < limit)
    (accesses : ∀ node ∈ value.nodes, Access (Agrees fixed sums limit assigned) ctx.call other.call
      node) :
    Follows (Agrees fixed sums limit assigned) (fun _ => Agrees fixed sums limit (id :: assigned))
      (assign ctx id value) (assign other id value) where
  run {machine twin result later} agrees ran := by
    unfold Native.assign at ran ⊢
    rw [← agrees.distances]
    split at ran
    · exact (Follows.bind (.eval accesses) fun value => Agrees.write inside value).run agrees ran
    · rename_i old tracked
      have known : fixed id := steady id (agrees.tracked id (by simp [tracked]))
      obtain ⟨before, _, found, rest⟩ := Step.bind_eq_ok.1 ran
      obtain ⟨_, twinFound, agrees⟩ := (Agrees.readInt (.inl known)).run agrees found
      obtain ⟨after, _, evaluated, writing⟩ := Step.bind_eq_ok.1 rest
      obtain ⟨_, twinEvaluated, agrees⟩ := (Follows.evalInt accesses).run agrees evaluated
      obtain ⟨_, _, written, adding⟩ := Step.bind_eq_ok.1 writing
      obtain ⟨twinAfter, twinWritten, agrees⟩ := (Agrees.write inside (.int after)).run agrees written
      dsimp only at adding
      split at adding
      · cases adding
      · rename_i total added
        cases adding
        refine ⟨⟨twinAfter.slots, twinAfter.distances.map fun entry : LocalId × UInt64 =>
            if entry.1 = id then (entry.1, total) else (entry.1, entry.2), twinAfter.shared⟩,
          (Step.bind_of_ok twinFound).trans ((Step.bind_of_ok twinEvaluated).trans
            ((Step.bind_of_ok twinWritten).trans ?_)),
          agrees.locals, agrees.room, fun id moved => ?_, ?_, agrees.shared⟩
        · dsimp only
          rw [← agrees.distances, added]
        · refine agrees.tracked id ?_
          rw [lookup_update] at moved
          split at moved
          · rename_i same
            subst same
            simpa using moved
          · exact moved
        · exact congrArg (List.map _) agrees.distances

end Machines

section Checks

variable {ε α β : Type}

theorem ok_of_bind {first : Except ε α} {next : α → Except ε β} {value : β}
    (ended : first >>= next = .ok value) :
    ∃ between, first = .ok between ∧ next between = .ok value := by
  cases first with
  | error reason => cases ended
  | ok between => exact ⟨between, rfl, ended⟩

theorem checked_of_forM {items : List α} {check : α → Except ε Unit}
    (checked : items.forM check = .ok ()) : ∀ item ∈ items, check item = .ok () := by
  induction items with
  | nil =>
    intro _ member
    cases member
  | cons item rest ih =>
    obtain ⟨_, first, others⟩ := ok_of_bind checked
    exact List.forall_mem_cons.2 ⟨first, ih others⟩

end Checks

theorem mem_of_checkReads (checked : checkReads candidates assigned expr = .ok ())
    (here : part ∈ expr.nodes) (read : part.var? = some id) (candidate : id ∈ candidates) :
    id ∈ assigned.ids := by
  unfold checkReads at checked
  split at checked
  · cases checked
  · rename_i absent
    have unread := List.find?_eq_none.1 absent id (List.mem_filterMap.2 ⟨part, here, read⟩)
    simpa [candidate] using unread

theorem Assigned.mem_join {yes no : Assigned} (first : id ∈ yes.ids) (second : id ∈ no.ids) :
    id ∈ (yes.join no).ids := by
  unfold Assigned.join
  split
  · exact second
  · split
    · exact first
    · exact List.mem_filter.2 ⟨first, by simpa using second⟩

variable {id : LocalId}

mutual

theorem mem_of_flowStmt {stmt : Stmt} {assigned after : Assigned}
    (flows : flowStmt candidates stmt assigned = .ok after) (known : id ∈ assigned.ids) :
    id ∈ after.ids := by
  match stmt with
  | .assign _ _ =>
    obtain ⟨_, _, rest⟩ := ok_of_bind flows
    cases rest
    exact List.mem_append_left _ known
  | .branch _ _ _ =>
    obtain ⟨_, _, rest⟩ := ok_of_bind flows
    obtain ⟨_, whenYes, rest⟩ := ok_of_bind rest
    obtain ⟨_, whenNo, rest⟩ := ok_of_bind rest
    cases rest
    exact Assigned.mem_join (mem_of_flowBlock whenYes known) (mem_of_flowBlock whenNo known)
  | .forLoop _ _ =>
    obtain ⟨_, _, rest⟩ := ok_of_bind flows
    obtain ⟨_, _, rest⟩ := ok_of_bind rest
    obtain ⟨_, _, rest⟩ := ok_of_bind rest
    obtain ⟨_, _, rest⟩ := ok_of_bind rest
    cases rest
    exact known
  | .block _ _ =>
    obtain ⟨_, _, rest⟩ := ok_of_bind flows
    cases rest
    exact known
  | .skip | .leave | .giveBack _ | .exit _ =>
    cases flows
    exact known
  | .store _ _ _ | .eval _ | .whileLoop _ _ _ | .vector _ _ | .parallel _ _ =>
    obtain ⟨_, _, rest⟩ := ok_of_bind flows
    cases rest
    exact known

theorem mem_of_flowBlock {body : List Stmt} {assigned after : Assigned}
    (flows : flowBlock candidates body assigned = .ok after) (known : id ∈ assigned.ids) :
    id ∈ after.ids := by
  match body with
  | [] =>
    cases flows
    exact known
  | _ :: _ =>
    rw [flowBlock] at flows
    split at flows
    · cases flows
      exact known
    · obtain ⟨_, first, others⟩ := ok_of_bind flows
      exact mem_of_flowBlock others (mem_of_flowStmt first known)

end

/-- How a statement of an iteration ends: what it is sure to assign is settled too. -/
structure Settles (fixed : LocalId → Prop) (sums : List LocalId) (limit : Nat)
    (assigned after : Assigned) (flow : Flow) (machine twin : Machine) : Prop where
  still : Agrees fixed sums limit assigned.ids machine twin
  next : flow = .next → after.dead = false ∧ Agrees fixed sums limit after.ids machine twin

section Statements

variable {fixed : LocalId → Prop} {sums privates : List LocalId} {limit : Nat}
  {assigned after : Assigned} {ctx other : Context}

theorem Confined.accesses (confined : Confined fixed privates limit node)
    (member : expr ∈ node.exprs) (checked : checkReads privates assigned expr = .ok ()) :
    ∀ part ∈ expr.nodes,
      Access (Agrees fixed sums limit assigned.ids) ctx.call other.call part := by
  intro part here
  refine Agrees.access (fun same => ?_) fun id named => ?_
  · have callFree := Passes.callFree_of_unobstructed confined.unobstructed expr member part here
    simp [same, Expr.isCall] at callFree
  · refine (confined.reads expr member part here id named).imp_right fun isPrivate => ?_
    exact ⟨isPrivate.1, mem_of_checkReads checked here isPrivate.1 isPrivate.2⟩

theorem Settles.of_still (stays : flow ≠ .next)
    (still : Agrees fixed sums limit assigned.ids machine twin) :
    Settles fixed sums limit assigned after flow machine twin :=
  ⟨still, fun next => absurd next stays⟩

theorem Settles.unchanged (alive : assigned.dead = false)
    (still : Agrees fixed sums limit assigned.ids machine twin) :
    Settles fixed sums limit assigned assigned flow machine twin :=
  ⟨still, fun _ => ⟨alive, still⟩⟩

theorem Settles.join {no : Assigned}
    (settles : Settles fixed sums limit assigned yes flow machine twin ∨ Settles fixed sums limit
      assigned no flow machine twin) :
    Settles fixed sums limit assigned (yes.join no) flow machine twin := by
  refine ⟨settles.elim (·.still) (·.still), fun reached => ?_⟩
  unfold Assigned.join
  obtain first | second := settles
  · obtain ⟨alive, agrees⟩ := first.next reached
    rw [alive, if_neg Bool.false_ne_true]
    split
    · exact ⟨alive, agrees⟩
    · exact ⟨rfl, agrees.mono fun id member => .inr ((List.mem_filter.1 member).1)⟩
  · obtain ⟨alive, agrees⟩ := second.next reached
    rw [alive]
    split
    · exact ⟨alive, agrees⟩
    · refine ⟨rfl, agrees.mono fun id member => .inr ?_⟩
      simpa using (List.mem_filter.1 member).2

variable (granted : ctx.fuel ≤ other.fuel) (steady : ∀ id ∈ sums, fixed id)

include granted steady

set_option linter.unusedSectionVars false in
mutual

/-- Two machines that agree on the fixed locals and on those assigned so far run a statement of an
iteration alike, and then agree on what it has assigned as well. -/
theorem Agrees.exec {assigned after : Assigned} (alive : assigned.dead = false) (stmt : Stmt)
    (confined : ∀ node ∈ stmt.nodes, Confined fixed privates limit node)
    (flows : flowStmt privates stmt assigned = .ok after) :
    Follows (Agrees fixed sums limit assigned.ids) (Settles fixed sums limit assigned after)
      (exec ctx stmt) (exec other stmt) := by
  have here := confined stmt stmt.self_mem_nodes
  unfold Native.exec
  unfold flowStmt at flows
  match stmt with
  | .assign id value =>
    obtain ⟨_, checked, rest⟩ := ok_of_bind flows
    cases rest
    refine .bind (Agrees.assign steady (here.writes id (by simp [Stmt.ownWrites]))
      (here.accesses (.head _) checked)) fun _ => .pure fun agrees => ?_
    refine ⟨agrees.mono fun id member => .inr (.tail _ member), fun _ =>
      ⟨alive, agrees.mono fun id member => .inr ?_⟩⟩
    simpa [Assigned.add, or_comm] using member
  | .store array index value =>
    have known : fixed array := here.stores rfl
    dsimp only at flows
    obtain ⟨_, checked, rest⟩ := ok_of_bind flows
    cases rest
    have checked := checked_of_forM checked
    exact .bind (.eval (here.accesses (by simp [Stmt.exprs]) (checked _ (by simp [Stmt.exprs]))))
      fun _ => .bind (.evalInt (here.accesses (by simp [Stmt.exprs])
        (checked _ (.head _)))) fun _ => (Agrees.length known).bind fun _ =>
      .bind .ofOption fun _ => (Agrees.store known _ _).bind fun _ => .pure (.unchanged alive)
  | .eval value =>
    dsimp only at flows
    obtain ⟨_, checked, rest⟩ := ok_of_bind flows
    cases rest
    have checked := checked_of_forM checked
    exact .bind (.eval (here.accesses (.head _) (checked _ (.head _))))
      fun _ => .pure (.unchanged alive)
  | .branch cond yes no =>
    obtain ⟨_, checked, rest⟩ := ok_of_bind flows
    obtain ⟨afterYes, whenYes, rest⟩ := ok_of_bind rest
    obtain ⟨afterNo, whenNo, rest⟩ := ok_of_bind rest
    cases rest
    have first := Agrees.execBlock alive yes
      (fun _ member => confined _ (by simp [Stmt.nodes, member])) whenYes
    have second := Agrees.execBlock alive no
      (fun _ member => confined _ (by simp [Stmt.nodes, member])) whenNo
    refine .bind (.eval (here.accesses (by simp [Stmt.exprs]) checked)) fun _ =>
      .bind (.of_constant (constant_requireBool _)) fun holds => ?_
    split
    · exact first.weaken id fun settles => .join (.inl settles)
    · exact second.weaken id fun settles => .join (.inr settles)
  | .forLoop head body =>
    obtain ⟨_, checkedStart, rest⟩ := ok_of_bind flows
    obtain ⟨_, checkedStop, rest⟩ := ok_of_bind rest
    obtain ⟨_, checkedStep, rest⟩ := ok_of_bind rest
    obtain ⟨_, inside, rest⟩ := ok_of_bind rest
    cases rest
    have entered : (assigned.add head.var).dead = false := alive
    have inner := Agrees.execBlock entered body
      (fun _ member => confined _ (.tail _ member)) inside
    refine .bind (.evalInt (here.accesses (.head _) checkedStart)) fun _ =>
      .bind (.evalInt (here.accesses (by simp [Stmt.exprs]) checkedStop)) fun _ =>
      .bind (.evalInt (here.accesses (by simp [Stmt.exprs]) checkedStep)) fun _ =>
      .weaken (.countedLoop (fun value => ?_) (fun _ => Agrees.readInt (.inr ?_)) ?_
        (inner.weaken id Settles.still) granted _ _ _) id (.unchanged alive)
    · refine (Agrees.write (here.writes head.var (by simp [Stmt.ownWrites])) value).weaken id ?_
      exact fun agrees => agrees.mono fun id member => .inr (by
        simpa [Assigned.add, or_comm] using member)
    · simp [Assigned.add]
    · exact fun agrees => agrees.mono fun id member => .inr (by simp [Assigned.add, member])
  | .block label body =>
    obtain ⟨_, inside, rest⟩ := ok_of_bind flows
    cases rest
    have inner := Agrees.execBlock alive body
      (fun _ member => confined _ (.tail _ member)) inside
    refine inner.bind fun flow => ?_
    cases flow with
    | exit | next | leave | skip | giveBack => exact .pure fun settles => .unchanged alive settles.still
  | .skip | .exit label => exact .pure (.of_still nofun)
  | .leave | .giveBack _ | .whileLoop _ _ _ | .vector _ _ | .parallel _ _ =>
    cases here.unobstructed

theorem Agrees.execBlock {assigned after : Assigned} (alive : assigned.dead = false)
    (body : List Stmt)
    (confined : ∀ node ∈ Stmt.blockNodes body, Confined fixed privates limit node)
    (flows : flowBlock privates body assigned = .ok after) :
    Follows (Agrees fixed sums limit assigned.ids) (Settles fixed sums limit assigned after)
      (execBlock ctx body) (execBlock other body) := by
  match body with
  | [] =>
    cases flows
    rw [Native.execBlock, Native.execBlock]
    exact .pure fun agrees => .unchanged alive agrees
  | stmt :: rest =>
    rw [flowBlock, alive] at flows
    obtain ⟨between, first, others⟩ := ok_of_bind flows
    have starts := Agrees.exec alive stmt
      (fun _ member => confined _ (by simp [Stmt.blockNodes, member])) first
    rw [Native.execBlock, Native.execBlock]
    refine starts.bind fun flow => ?_
    cases flow with
    | next =>
      constructor
      intro machine twin flow later settles ran
      obtain ⟨reached, agrees⟩ := settles.next rfl
      obtain ⟨twinLater, twinRan, ended⟩ := (Agrees.execBlock reached rest
        (fun _ member => confined _ (by simp [Stmt.blockNodes, member])) others).run agrees ran
      refine ⟨twinLater, twinRan, ended.still.mono fun id member => .inr ?_, ended.next⟩
      exact mem_of_flowStmt first member
    | leave | skip | giveBack | exit => exact .pure fun settles => .of_still nofun settles.still

end

end Statements
end TwoTier.Native
