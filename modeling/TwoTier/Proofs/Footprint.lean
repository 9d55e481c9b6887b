import TwoTier.Proofs.Likeness

namespace TwoTier.Native

open Typed (Expr LocalId ParallelHead Routine Stmt)

/-- What steps may keep: a relation between a state and a later one. -/
structure Footprint (σ : Type) where
  rel : σ → σ → Prop
  refl : ∀ state, rel state state
  trans : ∀ {first second third}, rel first second → rel second third → rel first third

namespace Footprint

section Steps

variable {σ α β : Type}

/-- Wherever the step ends well, the states before and after are related. -/
structure Keeps (footprint : Footprint σ) (step : Step σ α) : Prop where
  after : ∀ {state value later}, step state = .ok value later → footprint.rel state later

variable {footprint : Footprint σ}

theorem Keeps.of_unchanged {step : Step σ α}
    (unchanged : ∀ {state value later}, step state = .ok value later → later = state) :
    footprint.Keeps step where
  after {state value later} ran := by
    rw [unchanged ran]
    exact footprint.refl state

theorem Keeps.of_constant {step : Step σ α} (constant : step.Constant) : footprint.Keeps step :=
  .of_unchanged fun ran => by
    cases constant with
    | pure => simp_all
    | deopt | stuck => simp at ran

theorem Keeps.bind {step : Step σ α} {next : α → Step σ β} (first : footprint.Keeps step)
    (rest : ∀ value, footprint.Keeps (next value)) : footprint.Keeps (step >>= next) where
  after ran := by
    obtain ⟨value, between, start, finish⟩ := Step.bind_eq_ok.1 ran
    exact footprint.trans (first.after start) ((rest value).after finish)

end Steps

variable {footprint : Footprint Machine} {call : Callee}

/-- Two steps are alike as far as the first one keeps something. -/
def likeness (footprint : Footprint Machine) : Likeness where
  Alike step _ := footprint.Keeps step
  constant := .of_constant
  sequence := .bind
  exhausted := ⟨fun ran => by simp [Step.exhausted] at ran⟩

theorem Keeps.alike {step : Step Machine α} (keeps : footprint.Keeps step) :
    footprint.likeness.Alike step step :=
  keeps

theorem Keeps.read (id : LocalId) : footprint.Keeps (Machine.read id) :=
  .of_unchanged fun ran => (Machine.read_eq_ok.1 ran).2

theorem Keeps.readInt (id : LocalId) : footprint.Keeps (Machine.readInt id) :=
  .of_unchanged fun found => (Machine.readInt_eq_ok.1 found).2

theorem Keeps.length (id : LocalId) : footprint.Keeps (Machine.length id) :=
  .of_unchanged fun ran => by
    unfold Machine.length at ran
    split at ran <;> simp_all

theorem Keeps.load (id : LocalId) (position : Nat) : footprint.Keeps (Machine.load id position) := by
  refine .bind (.of_unchanged fun ran => ?_) fun elements => ?_
  · unfold Machine.buffer at ran
    split at ran <;> simp_all
  · cases elements[position]? with
    | none => exact .of_constant .stuck
    | some value => exact .of_constant (.pure value)

/-- A call after the evaluation of its arguments. -/
def Keeps.AtCall (footprint : Footprint Machine) (call : Callee) (node : Expr) : Prop :=
  ∀ {callee result args}, node = .call callee result args →
    footprint.Keeps (Native.evalArgs call args) →
      footprint.Keeps (Native.evalArgs call args >>= fun values =>
        Machine.onShared (call callee values))

theorem Keeps.eval_of_calls (expr : Expr)
    (calls : ∀ node ∈ expr.nodes, Keeps.AtCall footprint call node) :
    footprint.Keeps (Native.eval call expr) := by
  have accesses : ∀ node ∈ expr.nodes, footprint.likeness.Access call call node := by
    intro node member
    cases node with
    | var id => exact Keeps.read id
    | len array => exact Keeps.length array
    | index array element position =>
      exact fun inner => .index inner (Keeps.length array) (Keeps.load array)
    | call callee result args =>
      exact ⟨fun id _ => .of_unchanged fun ran => (Machine.handle_eq_ok.1 ran).2,
        calls _ member rfl⟩
    | _ => trivial
  exact Likeness.Alike.eval accesses

theorem Keeps.eval (calls : ∀ callee args, footprint.Keeps (Machine.onShared (call callee args)))
    (expr : Expr) : footprint.Keeps (Native.eval call expr) :=
  Keeps.eval_of_calls expr fun _ _ _ _ _ _ passed => passed.bind fun _ => calls _ _

def locals : Footprint Machine where
  rel before after := after.slots = before.slots ∧ after.distances = before.distances
  refl _ := ⟨rfl, rfl⟩
  trans first second := ⟨second.1.trans first.1, second.2.trans first.2⟩

theorem locals_eval (call : Callee) (expr : Expr) : locals.Keeps (Native.eval call expr) :=
  .eval (fun _ _ => ⟨fun ran => by
    obtain ⟨_, _, rfl⟩ := Machine.onShared_eq_ok.1 ran
    exact ⟨rfl, rfl⟩⟩) expr

theorem locals_evalInt (call : Callee) (expr : Expr) : locals.Keeps (evalInt call expr) :=
  (locals_eval call expr).bind fun _ => .of_constant (constant_requireInt _)

/-- Assignments and the tracking of sums do not matter to a footprint. -/
structure IgnoresLocals (footprint : Footprint Machine) : Prop where
  write : ∀ id value, footprint.Keeps (Machine.write id value)
  track : ∀ machine distances, footprint.rel machine { machine with distances }

theorem likeness_locals (write : ∀ id value, footprint.Keeps (Machine.write id value)) :
    footprint.likeness.Locals :=
  ⟨.read, write⟩

theorem IgnoresLocals.covers (ignores : footprint.IgnoresLocals) : footprint.likeness.Covers where
  toLocals := likeness_locals ignores.write
  length := .length
  load := .load
  sums _ := .of_unchanged fun ran => by
    cases ran
    rfl
  track _ := ⟨fun ran => by
    cases ran
    exact ignores.track _ _⟩
  untrack _ := ⟨fun ran => by
    cases ran
    exact ignores.track _ _⟩

/-- What a kernel keeps on locals of its own, the loop over its chunks keeps. -/
def CoversKernels (footprint : Footprint Machine) (routine : Routine) (head : ParallelHead) : Prop :=
  ∀ {machine later : Machine} {lo hi : Int64},
    footprint.rel ⟨kernelSlots routine head machine.slots lo hi, kernelDistances head,
      machine.shared⟩ later →
    footprint.rel machine { machine with shared := later.shared }

end Footprint

/-- What a statement has to keep itself for a footprint to be kept by code. -/
structure KeptBy (footprint : Footprint Machine) (ctx : Context) (node : Stmt) : Prop where
  evals : ∀ expr ∈ node.exprs, footprint.Keeps (eval ctx.call expr)
  assign : ∀ {id value}, node = .assign id value → footprint.Keeps (assign ctx id value)
  store : ∀ {array index value}, node = .store array index value →
    ∀ position value, footprint.Keeps (Machine.store array position value)
  counter : ∀ {head body}, node = .forLoop head body →
    ∀ value, footprint.Keeps (Machine.write head.var value)
  groups : ∀ {head body}, node = .vector head body → footprint.IgnoresLocals
  chunks : ∀ {head chunk}, node = .parallel head chunk →
    footprint.IgnoresLocals ∧ footprint.CoversKernels ctx.routine head

variable {footprint : Footprint Machine} {ctx : Context}

theorem keeps_assign {id : LocalId} {value : Expr}
    (evaluates : footprint.Keeps (eval ctx.call value))
    (write : ∀ value, footprint.Keeps (Machine.write id value))
    (track : ∀ machine distances, footprint.rel machine { machine with distances }) :
    footprint.Keeps (assign ctx id value) where
  after {machine result later} ran := by
    unfold assign at ran
    split at ran
    · exact (evaluates.bind write).after ran
    · refine Footprint.Keeps.after (.bind (.readInt id) fun before =>
        (evaluates.bind fun _ => .of_constant (constant_requireInt _)).bind fun after =>
        (write (.int after)).bind fun _ => ⟨fun ran => ?_⟩) ran
      dsimp only at ran
      split at ran
      · cases ran
      · cases ran
        exact track _ _

section Chunks

variable {routine : Routine} {head : ParallelHead} {inPlace kernel : Step Machine Flow}

theorem runChunk_eq_ok {after : Shared} {result : ChunkResult}
    (ran : runChunk routine head kernel outer lo hi shared = .ok result after) :
    ∃ ended, kernel ⟨kernelSlots routine head outer lo hi, kernelDistances head, shared⟩ =
        .ok .next ended ∧ after = ended.shared ∧ ∀ reduction ∈ head.reduction,
      ∃ part, ended.slots[reduction.acc]? = some (.scalar part) ∧ result.part = some part ∧
        result.distance = ((ended.distances.head?).map (·.2)).getD 0 := by
  unfold runChunk at ran
  dsimp only at ran
  split at ran
  · rename_i ended looped
    refine ⟨ended, looped, ?_⟩
    split at ran
    · rename_i bare
      cases ran
      exact ⟨rfl, by simp [bare]⟩
    · rename_i reduction only
      split at ran
      · rename_i part held
        cases ran
        refine ⟨rfl, fun other member => ?_⟩
        obtain rfl : reduction = other := Option.mem_unique only member
        exact ⟨part, held, rfl, rfl⟩
      · cases ran
  · cases ran
  · cases ran
  · cases ran
  · cases ran

theorem keeps_runChunks (covers : footprint.CoversKernels routine head)
    (body : footprint.Keeps kernel) (outer : Array Slot) (distances : List (LocalId × UInt64))
    (chunks : List (Int64 × Int64)) {later : Shared}
    (ran : runChunks routine head kernel outer chunks shared = .ok results later) :
    footprint.rel ⟨outer, distances, shared⟩ ⟨outer, distances, later⟩ := by
  unfold runChunks at ran
  induction chunks generalizing results shared with
  | nil =>
    obtain ⟨-, rfl⟩ := Step.pure_eq_ok.1 ran
    exact footprint.refl _
  | cons chunk rest ih =>
    rw [List.mapM_cons] at ran
    obtain ⟨result, between, first, others⟩ := Step.bind_eq_ok.1 ran
    obtain ⟨_, last, remaining, ended⟩ := Step.bind_eq_ok.1 others
    obtain ⟨-, rfl⟩ := Step.pure_eq_ok.1 ended
    obtain ⟨machine, ended, rfl, -⟩ := runChunk_eq_ok first
    have one : footprint.rel (⟨outer, distances, shared⟩ : Machine)
        ⟨outer, distances, machine.shared⟩ := covers (body.after ended)
    exact footprint.trans one (ih remaining)

theorem keeps_parallelLoop (ignores : footprint.IgnoresLocals)
    (covers : footprint.CoversKernels routine head) (here : footprint.Keeps inPlace)
    (body : footprint.Keeps kernel) (start stop least target : Int64) :
    footprint.Keeps (parallelLoop routine head inPlace kernel start stop least target) := by
  unfold parallelLoop
  split
  · exact (ignores.write _ _).bind fun _ => (ignores.write _ _).bind fun _ => here
  · constructor
    intro machine flow later ran
    obtain ⟨outer, _, same, rest⟩ := Step.bind_eq_ok.1 ran
    cases same
    obtain ⟨chunks, _, granted, rest⟩ := Step.bind_eq_ok.1 rest
    obtain ⟨-, rfl⟩ := Step.grant_eq_ok.1 granted
    obtain ⟨results, between, split, folded⟩ := Step.bind_eq_ok.1 rest
    obtain ⟨shared, chunked, rfl⟩ := Machine.onShared_eq_ok.1 split
    refine footprint.trans
      (keeps_runChunks covers body machine.slots machine.distances _ chunked) ?_
    refine Footprint.Keeps.after (.bind ?_ fun _ => ?_) folded
    · unfold foldChunks
      split
      · exact .of_constant (.pure _)
      · exact (Footprint.Keeps.read _).bind fun _ =>
          (Footprint.Keeps.of_constant (.ofOption _)).bind fun _ => ignores.write _ _
    · split
      · exact (ignores.write _ _).bind fun _ => .of_constant (.pure _)
      · exact .of_constant (.pure _)

end Chunks

theorem KeptBy.atNode (kept : KeptBy footprint ctx node)
    (inside : ∀ {head body}, node = .vector head body → ∀ stmt ∈ body, KeptBy footprint ctx stmt) :
    footprint.likeness.AtNode ctx ctx node where
  evals _ := kept.evals
  assign := kept.assign
  store := by
    rintro array index value rfl
    exact (kept.evals value (by simp [Stmt.exprs])).bind fun _ =>
      ((kept.evals index (by simp [Stmt.exprs])).bind fun _ =>
        .of_constant (constant_requireInt _)).bind fun _ =>
      (Footprint.Keeps.length array).bind fun _ =>
      (Footprint.Keeps.of_constant (.ofOption _)).bind fun _ => kept.store rfl _ _
  counter same := ⟨fun i => kept.counter same _, fun _ => .readInt _⟩
  groups same := ⟨(kept.groups same).covers, fun member => (inside same _ member).store rfl⟩
  chunks same _ _ _ _ inPlace kernel :=
    keeps_parallelLoop (kept.chunks same).1 (kept.chunks same).2 inPlace kernel

theorem keeps_exec (kept : ∀ node ∈ stmt.nodes, KeptBy footprint ctx node) :
    footprint.Keeps (exec ctx stmt) := by
  have nodes : ∀ node ∈ stmt.nodes, footprint.likeness.AtNode ctx ctx node := by
    refine fun node member => (kept node member).atNode ?_
    rintro head body rfl other present
    refine kept other (Stmt.nodes_within (List.Subset.refl _) _ member ?_)
    exact .tail _ (Stmt.mem_blockNodes.2 ⟨other, present, other.self_mem_nodes⟩)
  exact Likeness.Alike.exec (.refl ctx) nodes

theorem keeps_execBlock (kept : ∀ node ∈ Stmt.blockNodes body, KeptBy footprint ctx node) :
    footprint.Keeps (execBlock ctx body) := by
  induction body with
  | nil =>
    exact .of_constant (.pure _)
  | cons stmt rest ih =>
    refine (keeps_exec fun _ member => kept _ (by simp [Stmt.blockNodes, member])).bind
      fun flow => ?_
    cases flow with
    | next => exact ih fun _ member => kept _ (by simp [Stmt.blockNodes, member])
    | leave | skip | giveBack | exit => exact .of_constant (.pure _)

end TwoTier.Native
