import TwoTier.Proofs.Chunks.ChunkedLoop
import TwoTier.Proofs.Chunks.Outlining
import TwoTier.Proofs.Forms.Kinds

namespace TwoTier.Native

open Passes (Chunked Examined Extends Outlines OutlinesBlock blockFrame blockNodes_eq_frame
  examined_of_loopUse frame scalarReads)
open Typed (Expr ForHead LocalId ParallelHead Routine Stmt)

/-- What a statement names is declared, and no loop is lowered yet. -/
structure Declares (count : Nat) (node : Stmt) : Prop where
  reads : ∀ expr ∈ node.exprs, ∀ id ∈ expr.readLocals, id < count
  writes : ∀ id ∈ node.ownWrites, id < count
  stores : ∀ {array index value}, node = .store array index value → array < count
  resumes : ∀ {head body}, node = .forLoop head body → head.exitValue = true →
    head.start = .var head.var .int
  unlowered : node.lowered? = none

/-- What a statement outside of chunks names is agreed on by the two machines. -/
structure Framed (fixed : LocalId → Prop) (limit : Nat) (node : Stmt) :
    Prop where
  reads : ∀ expr ∈ node.exprs, ∀ part ∈ expr.nodes, ∀ id ∈ part.ownLocals, id < limit → fixed id
  stores : ∀ {array index value}, node = .store array index value → array < limit → fixed array

/-- An outlined loop whose machines agree on all but its private locals. -/
structure Sound (fixed : LocalId → Prop) (limit : Nat) (lowered : Routine) (head : ForHead)
    (body : List Stmt) (parallel : ParallelHead) : Prop where
  outlined : ∃ routine privates, Outlined routine limit head body privates parallel
  start : parallel.start = head.start
  stop : parallel.stop = head.stop
  declared : parallel.chunkHi < lowered.locals.length
  shared : ∀ id, Shares parallel id → fixed id
  lost : ∀ id ∈ Stmt.writtenLocals body, fixed id →
    ∃ reduction ∈ parallel.reduction, reduction.acc = id

structure Companions (ctx other : Context) : Prop where
  granted : ctx.fuel + 2 ^ 63 ≤ other.fuel
  calls : ∀ callee args, Refines (ctx.call callee args) (other.call callee args)
  result : other.routine.result = ctx.routine.result
  params : ∀ id position, (ctx.routine.decl id).origin = .param position →
    (other.routine.decl id).origin = .param position

section

variable {fixed : LocalId → Prop} {limit : Nat} {ctx other : Context}

theorem Framed.accesses {origin : Stmt} (framed : Framed fixed limit node)
    (declares : Declares limit origin) (companions : Companions ctx other)
    (member : expr ∈ node.exprs) (listed : expr ∈ origin.exprs) :
    ∀ part ∈ expr.nodes, Access (Agrees fixed [] limit []) ctx.call other.call part := by
  intro part here
  refine Agrees.access (fun _ => companions.calls _) fun id named => .inl ?_
  refine framed.reads expr member part here id named (declares.reads expr listed id ?_)
  exact List.mem_flatMap.2 ⟨part, here, named⟩

theorem resultOf_follows (companions : Companions ctx other) {value : Option Typed.Result}
    (declares : Declares limit (.giveBack value)) (framed : Framed fixed limit (.giveBack value)) :
    FollowsIn (Agrees fixed [] limit []) (resultOf ctx value) (resultOf other value) := by
  cases value with
  | none =>
    rw [resultOf, resultOf, companions.result]
    exact .pure id
  | some result =>
    cases result with
    | scalar value =>
      exact .eval (framed.accesses declares companions (.head _) (.head _))
    | array array =>
      rw [resultOf, resultOf]
      cases origin : (ctx.routine.decl array).origin with
      | param position =>
        rw [companions.params _ _ origin]
        exact .pure id
      | user | temp => exact ⟨fun _ ran => by cases ran⟩

variable (companions : Companions ctx other) (inside : ∀ id, fixed id → id < limit)

include companions inside

set_option linter.unusedSectionVars false in
mutual

theorem outlines_exec {stmt lowered : Stmt}
    (outlines : Outlines (Sound fixed limit ctx.routine) stmt lowered)
    (declares : ∀ node ∈ stmt.nodes, Declares limit node)
    (framed : ∀ node ∈ frame lowered, Framed fixed limit node) :
    (following (Agrees fixed [] limit [])).Alike (exec ctx lowered) (exec other stmt) := by
  have here := declares stmt stmt.self_mem_nodes
  have own := framed lowered (Passes.self_mem_frame lowered)
  have enough := companions.granted
  have accesses {expr : Expr} (member : expr ∈ lowered.exprs) (listed : expr ∈ stmt.exprs) :=
    own.accesses here companions member listed
  match stmt with
  | .assign id value =>
    cases outlines
    rw [exec, exec]
    refine Follows.bind (Agrees.assign nofun (here.writes id (by simp [Stmt.ownWrites]))
      (accesses (.head _) (.head _))) fun _ => .pure fun agrees => ?_
    exact agrees.mono fun _ absent => nomatch absent
  | .store array index value =>
    cases outlines
    have known : fixed array := own.stores rfl (here.stores rfl)
    rw [exec, exec]
    exact Follows.bind (.eval (accesses (by simp [Stmt.exprs]) (by simp [Stmt.exprs]))) fun _ =>
      .bind (.evalInt (accesses (by simp [Stmt.exprs]) (by simp [Stmt.exprs]))) fun _ =>
      .bind (Agrees.length known) fun _ => .bind .ofOption fun _ =>
      .bind (Agrees.store known _ _) fun _ => .pure id
  | .eval value =>
    cases outlines
    exact .evaluation (.eval (accesses (.head _) (.head _)))
  | .branch cond yes no =>
    obtain ⟨first, second, rfl, whenYes, whenNo⟩ := outlines
    refine .branch (.eval (accesses (.head _) (.head _)))
      (outlinesBlock_exec whenYes (fun _ member => declares _ ?_) fun _ member => framed _ ?_)
      (outlinesBlock_exec whenNo (fun _ member => declares _ ?_) fun _ member => framed _ ?_)
    all_goals simp [Stmt.nodes, frame, member]
  | .whileLoop cond body span =>
    obtain ⟨inner, rfl, below⟩ := outlines
    exact .repeated (.eval (accesses (.head _) (.head _))) (following_grants (by omega)) span
      (outlinesBlock_exec below (fun _ member => declares _ (.tail _ member))
        fun _ member => framed _ (by simp [frame, member]))
  | .forLoop head body =>
    obtain ⟨parallel, rfl, sound⟩ | ⟨inner, rfl, below⟩ := outlines
    · obtain ⟨routine, privates, outlined⟩ := sound.outlined
      have one : evalInt other.call head.step = pure 1 := by
        rw [outlined.accepted.step_eq]
        rfl
      rw [exec, exec, ← sound.start, ← sound.stop, one]
      refine Follows.bind (.evalInt (accesses (by simp [Stmt.exprs])
        (by simp [Stmt.exprs, sound.start]))) fun start => .bind (.evalInt (accesses
        (by simp [Stmt.exprs]) (by simp [Stmt.exprs, sound.stop]))) fun stop => ?_
      exact outlined.parallelLoop_follows sound.declared enough inside sound.shared sound.lost _ _
    · have counter : head.var < limit := here.writes _ (by simp [Stmt.ownWrites])
      have counts : (following (Agrees fixed [] limit [])).Counts head := by
        refine ⟨fun i => (Agrees.write counter (.int i)).weaken id fun agrees => ?_,
          fun kept => Agrees.readInt (.inl ?_)⟩
        · exact agrees.mono fun _ absent => nomatch absent
        · -- such a loop starts from its counter, so the counter is read outside of chunks
          refine own.reads head.start (.head _) head.start head.start.self_mem_nodes _ ?_ counter
          rw [here.resumes rfl kept]
          exact List.mem_singleton.2 rfl
      exact .forLoop (following_grants (by omega)) counts (.eval (accesses (.head _) (.head _)))
        (.eval (accesses (by simp [Stmt.exprs]) (by simp [Stmt.exprs])))
        (.eval (accesses (by simp [Stmt.exprs]) (by simp [Stmt.exprs])))
        (outlinesBlock_exec below (fun _ member => declares _ (.tail _ member))
          fun _ member => framed _ (by simp [frame, member]))
  | .leave | .skip | .exit _ =>
    cases outlines
    rw [exec, exec]
    exact .pure _
  | .giveBack value =>
    cases outlines
    rw [exec, exec]
    exact (resultOf_follows companions here own).bind fun _ => .pure id
  | .block label body =>
    obtain ⟨inner, rfl, below⟩ := outlines
    exact .block label (outlinesBlock_exec below (fun _ member => declares _ (.tail _ member))
      fun _ member => framed _ (by simp [frame, member]))
  | .vector _ _ | .parallel _ _ => cases here.unlowered

theorem outlinesBlock_exec {body lowered : List Stmt}
    (outlines : OutlinesBlock (Sound fixed limit ctx.routine) body lowered)
    (declares : ∀ node ∈ Stmt.blockNodes body, Declares limit node)
    (framed : ∀ node ∈ blockFrame lowered, Framed fixed limit node) :
    (following (Agrees fixed [] limit [])).Alike (execBlock ctx lowered)
      (execBlock other body) := by
  match body with
  | [] =>
    cases outlines
    rw [execBlock, execBlock]
    exact .pure _
  | stmt :: rest =>
    obtain ⟨first, others, rfl, here, later⟩ := outlines
    refine .cons (outlines_exec here (fun _ member => declares _ ?_) fun _ member => framed _ ?_)
      (outlinesBlock_exec later (fun _ member => declares _ ?_) fun _ member => framed _ ?_)
    all_goals simp [Stmt.blockNodes, blockFrame, member]

end

end

/-- A local whose reads all lie in one loop over chunks that writes it. -/
def KeptInside (body : List Stmt) (id : LocalId) : Prop :=
  ∃ parallel chunk, .parallel parallel chunk ∈ Stmt.blockNodes body ∧
    id ∈ Stmt.writtenLocals [chunk] ∧ id ≠ parallel.var ∧
    (∀ reduction ∈ parallel.reduction, reduction.acc ≠ id) ∧
    (scalarReads body).count id ≤ (scalarReads [chunk]).count id

/-- A routine and what outlining has made of it, with code that fits its locals. -/
structure Lowers (plain lowered : Routine) : Prop where
  locals : ∃ temps, (∀ decl ∈ temps, decl.origin = .temp) ∧ lowered.locals = plain.locals ++ temps
  outlines : OutlinesBlock (Chunked plain (scalarReads plain.body)) plain.body lowered.body
  declares : ∀ node ∈ Stmt.blockNodes plain.body, Declares plain.locals.length node
  fits : ∀ node ∈ Stmt.blockNodes lowered.body, NodeFits lowered node

namespace Lowers

variable {plain lowered routine : Routine} {head : ForHead}
  {body : List Stmt} {parallel : ParallelHead} {chunk : Stmt} {id : LocalId}

section

variable (lowers : Lowers plain lowered)

include lowers

theorem decl_eq (extends_ : Extends plain routine)
    (inside : id < plain.locals.length) : lowered.locals[id]? = some (routine.decl id) := by
  obtain ⟨temps, _, same⟩ := lowers.locals
  obtain ⟨others, _, rfl⟩ := extends_
  rw [same]
  simp [Routine.decl, List.getElem?_append_left inside, inside]

theorem isArray_eq_false (extends_ : Extends plain routine)
    (inside : id < plain.locals.length) (scalar : IsScalar lowered id) :
    (routine.decl id).kind.isArray = false := by
  obtain ⟨decl, found, isScalar⟩ := scalar
  cases (lowers.decl_eq extends_ inside).symm.trans found
  exact isScalar

theorem exists_loop (member : .parallel parallel chunk ∈ blockFrame lowered.body) :
    ∃ head body, .forLoop head body ∈ Stmt.blockNodes plain.body ∧
      chunk = .forLoop (chunkHead parallel) body ∧
      Chunked plain (scalarReads plain.body) head body parallel :=
  lowers.outlines.exists_loop (fun node inside => (lowers.declares node inside).unlowered)
    (List.Subset.refl _) member

theorem mem_frame (member : .parallel parallel chunk ∈ Stmt.blockNodes lowered.body) :
    .parallel parallel chunk ∈ blockFrame lowered.body := by
  rw [blockNodes_eq_frame] at member
  obtain ⟨node, listed, here⟩ := List.mem_flatMap.1 member
  obtain _ | ⟨_, inside⟩ := here
  · exact listed
  · cases node with
    | parallel outer kernel =>
      obtain ⟨head, body, _, rfl, routine, use, _, accepted, _⟩ := lowers.exists_loop listed
      have nested : .parallel parallel chunk ∈ Stmt.blockNodes body :=
        (List.mem_cons.1 inside).resolve_left nofun
      cases (examined_of_loopUse accepted).unobstructed _ nested
    | _ => cases inside

end

/-- The head of an outlined loop, and what the loop was examined for. -/
structure Finding (plain routine : Routine) (head : ForHead) (body : List Stmt)
    (use : Passes.LoopUse) (parallel : ParallelHead) : Prop where
  extends_ : Extends plain routine
  accepted : Passes.Accepted routine head body parallel.reduction.toList
  examined : Examined routine head body .parallel (scalarReads plain.body) use
  reductions : parallel.reduction.toList = use.reductions
  parallel : parallel = ⟨head.var, head.start, head.stop, routine.locals.length,
    routine.locals.length + 1, use.reductions.head?, use.invariants, use.arrays, head.span⟩

theorem finding_of_chunked (chunked : Chunked plain (scalarReads plain.body) head body parallel) :
    ∃ routine use, Finding plain routine head body use parallel := by
  obtain ⟨routine, use, extends_, accepted, rfl⟩ := chunked
  have examined := examined_of_loopUse accepted
  have single : use.reductions.head?.toList = use.reductions := by
    have short := examined.single rfl
    match reductions : use.reductions with
    | [] | [_] => rfl
    | _ :: _ :: _ => simp [reductions] at short
  refine ⟨routine, use, extends_, ?_, examined, single, rfl⟩
  rw [single]
  exact Passes.accepted_of_loopUse accepted

/-- The body of a loop over chunks names what the kernel takes over, the counter and private
locals. -/
theorem confined (lowers : Lowers plain lowered)
    (finding : Finding plain routine head body use parallel)
    (declares : ∀ node ∈ Stmt.blockNodes body, Declares plain.locals.length node)
    (fits : ∀ node ∈ Stmt.blockNodes body, NodeFits lowered node) :
    ∀ node ∈ Stmt.blockNodes body, Confined (fun id => Shares parallel id ∨ id = head.var)
      use.privates plain.locals.length node := by
  intro node present
  have examined := finding.examined
  have unobstructed := examined.unobstructed node present
  refine ⟨unobstructed, fun expr own part inside id named => ?_, (declares node present).writes,
    fun same => ?_⟩
  · have known := (declares node present).reads expr own id (List.mem_flatMap.2 ⟨part, inside, named⟩)
    have callFree := Passes.callFree_of_unobstructed unobstructed expr own part inside
    have partFits := (fits node present).parts expr own part inside
    cases reads : part.var? with
    | none =>
      refine .inl (.inl (.inl (List.mem_append_right _ ?_)))
      rw [finding.parallel]
      exact examined.mem_arrays.2
        ⟨node, present, .inr ⟨expr, own, part, inside, reads, callFree, named⟩⟩
    | some other =>
      obtain rfl : id = other := by
        cases part with
        | var _ _ =>
          cases reads
          exact List.mem_singleton.1 named
        | _ => cases reads
      have scalar := lowers.isArray_eq_false finding.extends_ known (partFits.scalar id reads)
      have read : id ∈ scalarReads body := List.mem_filterMap.2 ⟨part, List.mem_flatMap.2
        ⟨node, present, List.mem_flatMap.2 ⟨expr, own, inside⟩⟩, reads⟩
      by_cases counter : id = head.var
      · exact .inl (.inr counter)
      · by_cases written : id ∈ Stmt.writtenLocals body
        · obtain array | isPrivate | accumulates := examined.written_cases written
          · rw [scalar] at array
            cases array
          · exact .inr ⟨rfl, isPrivate⟩
          · obtain ⟨reduction, member, rfl⟩ := List.mem_map.1 accumulates
            rw [← finding.reductions] at member
            exact .inl (.inl (.inr ⟨reduction, by simpa using member, rfl⟩))
        · refine .inl (.inl (.inl (List.mem_append_left _ ?_)))
          rw [finding.parallel]
          exact examined.mem_invariants.2 ⟨read, counter, written, scalar⟩
  · refine .inl (.inl (List.mem_append_right _ ?_))
    rw [finding.parallel]
    exact examined.mem_arrays.2 ⟨node, present, .inl ⟨_, _, same⟩⟩

theorem writtenLocals_chunk (parallel : ParallelHead) (body : List Stmt) :
    Stmt.writtenLocals [.forLoop (chunkHead parallel) body] =
      parallel.var :: Stmt.writtenLocals body := by
  simp [Stmt.writtenLocals, Stmt.blockNodes, Stmt.nodes, Stmt.ownWrites, chunkHead]

/-- A loop of the plain routine next to the loop over chunks that it has become. -/
structure Paired (plain lowered : Routine) (head : ForHead) (body : List Stmt)
    (parallel : ParallelHead) : Prop where
  loop : .forLoop head body ∈ Stmt.blockNodes plain.body
  chunks : .parallel parallel (.forLoop (chunkHead parallel) body) ∈ blockFrame lowered.body

section Pair

variable (lowers : Lowers plain lowered) (paired : Paired plain lowered head body parallel)
include lowers paired

theorem declares_loop :
    ∀ node ∈ (Stmt.forLoop head body).nodes, Declares plain.locals.length node :=
  fun node inside => lowers.declares node
    (Stmt.blockNodes_within (List.Subset.refl _) _ paired.loop inside)

theorem fits_chunk :
    ∀ node ∈ (Stmt.forLoop (chunkHead parallel) body).nodes, NodeFits lowered node :=
  fun node inside => lowers.fits node (Passes.mem_blockNodes_of_chunk paired.chunks inside)

theorem isScalar_of_written (written : id ∈ Stmt.writtenLocals [.forLoop (chunkHead parallel) body]) :
    IsScalar lowered id := by
  obtain ⟨node, present, own⟩ := List.mem_flatMap.1 written
  rw [Stmt.blockNodes, Stmt.blockNodes, List.append_nil] at present
  exact (lowers.fits_chunk paired node present).writes id own

theorem isArray_of_named {node : Stmt} (present : node ∈ Stmt.blockNodes body)
    (named : Passes.NamesArray node id) : id < plain.locals.length ∧ IsArray lowered id := by
  have declares := lowers.declares_loop paired node (.tail _ present)
  have fits := lowers.fits_chunk paired node (.tail _ present)
  obtain ⟨_, _, same⟩ | ⟨expr, own, part, inside, unnamed, _, member⟩ := named
  · exact ⟨declares.stores same, fits.stores same⟩
  · exact ⟨declares.reads expr own id (List.mem_flatMap.2 ⟨part, inside, member⟩),
      (fits.parts expr own part inside).arrays unnamed id member⟩

theorem read_lt (read : id ∈ scalarReads body) : id < plain.locals.length := by
  obtain ⟨part, among, reads⟩ := List.mem_filterMap.1 read
  obtain ⟨node, present, inside⟩ := List.mem_flatMap.1 among
  obtain ⟨expr, own, here⟩ := List.mem_flatMap.1 inside
  refine (lowers.declares_loop paired node (.tail _ present)).reads expr own id ?_
  refine List.mem_flatMap.2 ⟨part, here, ?_⟩
  cases part with
  | var _ _ =>
    cases reads
    exact List.mem_singleton.2 rfl
  | _ => cases reads

theorem outlined (finding : Finding plain routine head body use parallel)
    (words : ∀ reduction ∈ parallel.reduction, reduction.type = .int) :
    Outlined routine plain.locals.length head body use.privates parallel := by
  have examined := finding.examined
  have declares := lowers.declares_loop paired
  have fits := lowers.fits_chunk paired
  have nested {node : Stmt} (inside : node ∈ Stmt.blockNodes body) (outer : ForHead) :
      node ∈ (Stmt.forLoop outer body).nodes := .tail _ inside
  have counter : parallel.var = head.var := by rw [finding.parallel]
  obtain ⟨temps, _, extended⟩ := finding.extends_
  have longer : plain.locals.length ≤ routine.locals.length := by simp [extended]
  exact {
    accepted := finding.accepted
    words
    flows := examined.flows
    confined := lowers.confined finding (fun node inside => declares node (nested inside _))
      fun node inside => fits node (nested inside _)
    counter
    declared := (declares _ (Stmt.self_mem_nodes _)).writes _ (.head _)
    taken := fun id member => by
      rw [finding.parallel] at member
      obtain invariant | array := List.mem_append.1 member
      · obtain ⟨read, notCounter, unwritten, _⟩ := examined.mem_invariants.1 invariant
        exact ⟨lowers.read_lt paired read, unwritten, notCounter⟩
      · obtain ⟨node, present, named⟩ := examined.mem_arrays.1 array
        obtain ⟨inside, isArray⟩ := lowers.isArray_of_named paired present named
        refine ⟨inside, fun written => ?_, fun same => ?_⟩
        all_goals
          refine isArray.not_isScalar (lowers.isScalar_of_written paired ?_)
          rw [writtenLocals_chunk, counter]
        · exact .tail _ written
        · exact same ▸ List.mem_cons_self
    lo := by
      rw [finding.parallel]
      exact longer
    hi := by
      rw [finding.parallel]
      exact Nat.lt_succ_self _ }

end Pair

theorem scalarReads_singleton (stmt : Stmt) :
    scalarReads [stmt] = stmt.nodes.flatMap Passes.ownReads := by
  rw [Passes.scalarReads_eq, Stmt.blockNodes, Stmt.blockNodes, List.append_nil]

section

variable (lowers : Lowers plain lowered)

include lowers

theorem count_le (inside : id < plain.locals.length) :
    (scalarReads lowered.body).count id ≤ (scalarReads plain.body).count id := by
  rw [Passes.scalarReads_eq, Passes.scalarReads_eq]
  refine Passes.OutlinesBlock.count_le (lowers.outlines.imp fun _ _ chunked => ?_)
  obtain ⟨routine, use, ⟨temps, _, extended⟩, _, rfl⟩ := chunked
  have longer : id < routine.locals.length := by
    simp only [extended, List.length_append]
    exact Nat.lt_of_lt_of_le inside (Nat.le_add_right _ _)
  exact ⟨rfl, rfl, Nat.ne_of_gt longer, Nat.ne_of_gt (Nat.lt_succ_of_lt longer)⟩

theorem not_kept_of_own (member : node ∈ blockFrame lowered.body)
    (read : id ∈ Passes.ownReads node) : ¬ KeptInside lowered.body id := by
  rintro ⟨parallel, chunk, present, _, _, _, few⟩
  have most : (Passes.ownReads node).count id + (chunk.nodes.flatMap Passes.ownReads).count id ≤ _ :=
    Passes.count_own_add_le member (lowers.mem_frame present)
  rw [scalarReads_singleton] at few
  have once := List.count_pos_iff.2 read
  omega

/-- What is read inside of one loop over chunks is kept inside of no other. -/
theorem kept_unique {other : ParallelHead} {kernel : Stmt}
    (member : .parallel parallel chunk ∈ blockFrame lowered.body) (read : id ∈ scalarReads [chunk])
    (present : .parallel other kernel ∈ Stmt.blockNodes lowered.body)
    (few : (scalarReads lowered.body).count id ≤ (scalarReads [kernel]).count id) :
    Stmt.parallel other kernel = .parallel parallel chunk := by
  refine Classical.byContradiction fun apart => ?_
  have most : (kernel.nodes.flatMap Passes.ownReads).count id +
      (chunk.nodes.flatMap Passes.ownReads).count id ≤ _ :=
    Passes.count_chunks_add_le (lowers.mem_frame present) member apart
  rw [scalarReads_singleton] at few read
  have once := List.count_pos_iff.2 read
  omega

theorem isScalar_of_kept (kept : KeptInside lowered.body id) : IsScalar lowered id := by
  obtain ⟨parallel, chunk, present, written, _⟩ := kept
  obtain ⟨head, body, loop, rfl, _⟩ := lowers.exists_loop (lowers.mem_frame present)
  exact lowers.isScalar_of_written ⟨loop, lowers.mem_frame present⟩ written

end

/-- The locals of the plain routine that the two machines agree on. -/
def Fixed (plain lowered : Routine) (id : LocalId) : Prop :=
  id < plain.locals.length ∧ ¬ KeptInside lowered.body id

theorem fixed_of_isArray (lowers : Lowers plain lowered)
    (inside : id < plain.locals.length) (isArray : IsArray lowered id) : Fixed plain lowered id :=
  ⟨inside, fun kept => isArray.not_isScalar (lowers.isScalar_of_kept kept)⟩

theorem framed (lowers : Lowers plain lowered) (member : node ∈ blockFrame lowered.body) :
    Framed (Fixed plain lowered) plain.locals.length node := by
  have fits := lowers.fits node (Passes.mem_blockNodes_of_frame member)
  refine ⟨fun expr own part inside id named below => ?_,
    fun same below => lowers.fixed_of_isArray below (fits.stores same)⟩
  have partFits := fits.parts expr own part inside
  cases reads : part.var? with
  | none => exact lowers.fixed_of_isArray below (partFits.arrays reads id named)
  | some other =>
    refine ⟨below, lowers.not_kept_of_own member ?_⟩
    refine List.mem_flatMap.2 ⟨expr, own, List.mem_filterMap.2 ⟨part, inside, ?_⟩⟩
    cases part with
    | var _ _ =>
      rw [List.mem_singleton.1 named]
      rfl
    | _ => cases reads

theorem acc_mem_scalarReads (accepted : Passes.Accepted routine head body reductions)
    (member : reduction ∈ reductions) : reduction.acc ∈ scalarReads body := by
  have reduces := accepted.reduces reduction member
  unfold Passes.reductionOp? at reduces
  split at reduces
  · cases reduces
  · split at reduces
    · split at reduces
      · rename_i counted
        exact List.count_pos_iff.1 (counted.2 ▸ Nat.succ_pos _)
      · cases reduces
    · cases reduces

/-- A loop over chunks takes over locals that the two machines agree on, and of those it changes the
accumulator only. -/
theorem sound (lowers : Lowers plain lowered) (paired : Paired plain lowered head body parallel)
    (chunked : Chunked plain (scalarReads plain.body) head body parallel)
    (words : ∀ reduction ∈ parallel.reduction, reduction.type = .int) :
    Sound (Fixed plain lowered) plain.locals.length lowered head body parallel := by
  obtain ⟨routine, use, finding⟩ := finding_of_chunked chunked
  have outlined := lowers.outlined paired finding words
  have examined := finding.examined
  have present := Passes.mem_blockNodes_of_frame paired.chunks
  have inner : scalarReads [.forLoop (chunkHead parallel) body] =
      Passes.ownReads (.forLoop (chunkHead parallel) body) ++ scalarReads body := by
    rw [scalarReads_singleton, Passes.scalarReads_eq, Stmt.nodes, List.flatMap_cons]
  -- what the loop reads can be kept in this loop only, where it would have to be private
  have free {id : LocalId} (read : id ∈ scalarReads body) (below : id < plain.locals.length)
      (apart : id ∈ Stmt.writtenLocals body →
        ∃ reduction ∈ parallel.reduction, reduction.acc = id) : Fixed plain lowered id := by
    refine ⟨below, ?_⟩
    rintro ⟨other, kernel, listed, written, notCounter, notAcc, few⟩
    cases lowers.kept_unique paired.chunks (inner ▸ List.mem_append_right _ read) listed few
    rw [writtenLocals_chunk] at written
    obtain ⟨reduction, member, same⟩ := apart ((List.mem_cons.1 written).resolve_left notCounter)
    exact notAcc reduction member same
  exact {
    outlined := ⟨routine, use.privates, outlined⟩
    start := by rw [finding.parallel]
    stop := by rw [finding.parallel]
    declared := by
      obtain ⟨decl, found, _⟩ := (lowers.fits _ present).writes parallel.chunkHi
        (by simp [Stmt.ownWrites])
      exact (List.getElem?_eq_some_iff.1 found).1
    shared := by
      rintro id (member | ⟨reduction, member, rfl⟩)
      · obtain ⟨below, unwritten, _⟩ := outlined.taken id member
        rw [finding.parallel] at member
        obtain invariant | array := List.mem_append.1 member
        · exact free (examined.mem_invariants.1 invariant).1 below fun written =>
            absurd written unwritten
        · obtain ⟨node, inside, named⟩ := examined.mem_arrays.1 array
          exact lowers.fixed_of_isArray below (lowers.isArray_of_named paired inside named).2
      · exact free (acc_mem_scalarReads finding.accepted (by simpa using member))
          (outlined.written_lt (outlined.acc_written member)) fun _ => ⟨reduction, member, rfl⟩
    lost := by
      intro id written fixed
      refine Classical.byContradiction fun notAcc => fixed.2 ?_
      have inChunk : id ∈ Stmt.writtenLocals [.forLoop (chunkHead parallel) body] := by
        rw [writtenLocals_chunk]
        exact .tail _ written
      refine ⟨parallel, _, present, inChunk, fun same => ?_, fun reduction member same =>
        notAcc ⟨reduction, member, same⟩, ?_⟩
      · exact examined.counter (outlined.counter ▸ same ▸ written)
      · have isPrivate : id ∈ use.privates := by
          obtain array | isPrivate | accumulates := examined.written_cases written
          · rw [lowers.isArray_eq_false finding.extends_ fixed.1
              (lowers.isScalar_of_written paired inChunk)] at array
            cases array
          · exact isPrivate
          · obtain ⟨reduction, member, same⟩ := List.mem_map.1 accumulates
            rw [← finding.reductions] at member
            exact (notAcc ⟨reduction, by simpa using member, same⟩).elim
        refine Nat.le_trans (lowers.count_le fixed.1) (Nat.le_trans (examined.inner rfl id isPrivate) ?_)
        rw [inner, List.count_append]
        exact Nat.le_add_left _ _ }

end Lowers

end TwoTier.Native
