import TwoTier.Passes.Chunking
import TwoTier.Proofs.Chunks.Kernel
import TwoTier.Proofs.Passes.Calls

namespace TwoTier.Passes

open Native (chunkHead)
open Typed (ForHead LocalId ParallelHead Routine Stmt)

section Relation

/-- What a loop that has been outlined has to satisfy. -/
abbrev Outline := ForHead → List Stmt → ParallelHead → Prop

variable (outline : Outline)

mutual

/-- A statement, and what it is once some of its loops have been outlined. -/
def Outlines (stmt lowered : Stmt) : Prop :=
  match stmt with
  | .forLoop head body =>
    (∃ parallel, lowered = .parallel parallel (.forLoop (chunkHead parallel) body) ∧
      outline head body parallel) ∨
      ∃ inner, lowered = .forLoop head inner ∧ OutlinesBlock body inner
  | .branch cond yes no =>
    ∃ first second, lowered = .branch cond first second ∧ OutlinesBlock yes first ∧
      OutlinesBlock no second
  | .whileLoop cond body span =>
    ∃ inner, lowered = .whileLoop cond inner span ∧ OutlinesBlock body inner
  | .block label body => ∃ inner, lowered = .block label inner ∧ OutlinesBlock body inner
  | .vector head body => ∃ inner, lowered = .vector head inner ∧ OutlinesBlock body inner
  | _ => lowered = stmt

def OutlinesBlock (body lowered : List Stmt) : Prop :=
  match body with
  | [] => lowered = []
  | stmt :: rest =>
    ∃ first others, lowered = first :: others ∧ Outlines stmt first ∧ OutlinesBlock rest others

end

end Relation

section Pass

def Extends (base routine : Routine) : Prop :=
  ∃ temps, (∀ decl ∈ temps, decl.origin = .temp) ∧
    routine = { base with locals := base.locals ++ temps }

theorem Extends.refl (base : Routine) : Extends base base := ⟨[], nofun, by simp⟩

/-- A loop of a routine that may run over chunks, and the head under which it does. -/
def Chunked (base : Routine) (reads : List LocalId) : Outline := fun head body parallel =>
  ∃ routine use, Extends base routine ∧
    loopUse routine head body .parallel reads = .ok use ∧
    parallel = ⟨head.var, head.start, head.stop, routine.locals.length, routine.locals.length + 1,
      use.reductions.head?, use.invariants, use.arrays, head.span⟩

variable {base : Routine} {reads : List LocalId}

theorem outline_run (extends_ : Extends base work.routine)
    (accepted : loopUse work.routine head body .parallel reads = .ok use) :
    (∃ parallel, ((outline head body use).run work).1 =
        .parallel parallel (.forLoop (chunkHead parallel) body) ∧
      Chunked base reads head body parallel) ∧
      Extends base ((outline head body use).run work).2.routine := by
  obtain ⟨temps, isTemp, same⟩ := extends_
  refine ⟨⟨⟨head.var, head.start, head.stop, work.routine.locals.length,
    work.routine.locals.length + 1, use.reductions.head?, use.invariants, use.arrays, head.span⟩,
    ?_, work.routine, use, ⟨temps, isTemp, same⟩, accepted, rfl⟩,
    temps ++ [⟨"$chunk_lo", .scalar .int, .temp⟩, ⟨"$chunk_hi", .scalar .int, .temp⟩], ?_, ?_⟩
  · simp [outline, Work.addTemp, Work.note, Routine.addTemp, StateT.run, bind, StateT.bind, pure,
      StateT.pure, modifyGet, MonadStateOf.modifyGet, StateT.modifyGet, modify, get, getThe,
      MonadStateOf.get, StateT.get, chunkHead]
  · simp only [List.mem_append, List.mem_cons, List.not_mem_nil, or_false]
    rintro decl (member | rfl | rfl)
    · exact isTemp decl member
    · rfl
    · rfl
  · simp [outline, Work.addTemp, Work.note, Routine.addTemp, StateT.run, bind, StateT.bind, pure,
      StateT.pure, modifyGet, MonadStateOf.modifyGet, StateT.modifyGet, modify, get, getThe,
      MonadStateOf.get, StateT.get, same]

mutual

theorem chunked_run (stmt : Stmt) (extends_ : Extends base work.routine) :
    Outlines (Chunked base reads) stmt ((chunked reads stmt).run work).1 ∧
      Extends base ((chunked reads stmt).run work).2.routine := by
  match stmt with
  | .forLoop head body =>
    cases examined : loopUse work.routine head body .parallel reads with
    | ok use =>
      have ran : (chunked reads (.forLoop head body)).run work = (outline head body use).run work := by
        simp [chunked, StateT.run, bind, StateT.bind, get, getThe, MonadStateOf.get, StateT.get,
          pure, examined]
      obtain ⟨outlined, kept⟩ := outline_run extends_ examined
      rw [ran]
      exact ⟨.inl outlined, kept⟩
    | error reason =>
      have noted : Extends base (⟨work.routine, work.notes ++
          .skipping ("loop at " ++ head.span.text ++ ": " ++ reason)⟩ : Work).routine := extends_
      obtain ⟨inner, kept⟩ := chunkedBlock_run body noted
      have ran : (chunked reads (.forLoop head body)).run work =
          (fun ended : List Stmt × Work => (Stmt.forLoop head ended.1, ended.2))
            ((chunkedBlock reads body).run ⟨work.routine, work.notes ++
              .skipping ("loop at " ++ head.span.text ++ ": " ++ reason)⟩) := by
        simp [chunked, StateT.run, bind, StateT.bind, get, getThe, MonadStateOf.get, StateT.get,
          pure, StateT.pure, examined, Work.note, modify, modifyGet, MonadStateOf.modifyGet,
          StateT.modifyGet]
        rfl
      rw [ran]
      exact ⟨.inr ⟨_, rfl, inner⟩, kept⟩
  | .branch cond yes no =>
    obtain ⟨first, between⟩ := chunkedBlock_run yes extends_
    obtain ⟨second, after⟩ := chunkedBlock_run no between
    exact ⟨⟨_, _, rfl, first, second⟩, after⟩
  | .whileLoop _ body _ | .block _ body | .vector _ body =>
    obtain ⟨inner, after⟩ := chunkedBlock_run body extends_
    exact ⟨⟨_, rfl, inner⟩, after⟩
  | .assign _ _ | .store _ _ _ | .eval _ | .leave | .skip | .giveBack _ | .exit _
  | .parallel _ _ => exact ⟨rfl, extends_⟩

theorem chunkedBlock_run (body : List Stmt) (extends_ : Extends base work.routine) :
    OutlinesBlock (Chunked base reads) body ((chunkedBlock reads body).run work).1 ∧
      Extends base ((chunkedBlock reads body).run work).2.routine := by
  match body with
  | [] => exact ⟨rfl, extends_⟩
  | stmt :: rest =>
    obtain ⟨first, between⟩ := chunked_run stmt extends_
    obtain ⟨others, after⟩ := chunkedBlock_run rest between
    exact ⟨⟨_, _, rfl, first, others⟩, after⟩

end

end Pass

section Frame

mutual

/-- The statements of a statement that stand outside of loops over chunks, those loops included. -/
def frame (stmt : Stmt) : List Stmt :=
  match stmt with
  | .branch _ yes no => stmt :: (blockFrame yes ++ blockFrame no)
  | .whileLoop _ body _ => stmt :: blockFrame body
  | .forLoop _ body => stmt :: blockFrame body
  | .block _ body => stmt :: blockFrame body
  | .vector _ body => stmt :: blockFrame body
  | _ => [stmt]

def blockFrame (body : List Stmt) : List Stmt :=
  match body with
  | [] => []
  | stmt :: rest => frame stmt ++ blockFrame rest

end

theorem self_mem_frame (stmt : Stmt) : stmt ∈ frame stmt := by
  cases stmt <;> simp [frame]

def chunkNodes : Stmt → List Stmt
  | .parallel _ chunk => chunk.nodes
  | _ => []

mutual

/-- Each statement stands outside of loops over chunks or inside of one of them. -/
theorem nodes_eq_frame (stmt : Stmt) :
    stmt.nodes = (frame stmt).flatMap fun node => node :: chunkNodes node := by
  match stmt with
  | .branch _ yes no =>
    simp [Stmt.nodes, frame, chunkNodes, blockNodes_eq_frame yes, blockNodes_eq_frame no]
  | .whileLoop _ body _ | .forLoop _ body | .block _ body | .vector _ body =>
    simp [Stmt.nodes, frame, chunkNodes, blockNodes_eq_frame body]
  | .assign _ _ | .store _ _ _ | .eval _ | .leave | .skip | .giveBack _ | .exit _
  | .parallel _ _ => simp [Stmt.nodes, frame, chunkNodes]

theorem blockNodes_eq_frame (body : List Stmt) :
    Stmt.blockNodes body = (blockFrame body).flatMap fun node => node :: chunkNodes node := by
  match body with
  | [] => rfl
  | stmt :: rest =>
    simp [Stmt.blockNodes, blockFrame, nodes_eq_frame stmt, blockNodes_eq_frame rest]

end

theorem mem_blockNodes_of_frame (member : node ∈ blockFrame body) :
    node ∈ Stmt.blockNodes body := by
  rw [blockNodes_eq_frame]
  exact List.mem_flatMap.2 ⟨node, member, .head _⟩

theorem mem_blockNodes_of_chunk {inner : Stmt} (member : node ∈ blockFrame body)
    (inside : inner ∈ chunkNodes node) : inner ∈ Stmt.blockNodes body := by
  rw [blockNodes_eq_frame]
  exact List.mem_flatMap.2 ⟨node, member, .tail _ inside⟩

section Count

variable {α : Type} {items : List α} {part : α → List LocalId} {id : LocalId}

theorem count_le_flatMap (member : item ∈ items) :
    (part item).count id ≤ (items.flatMap part).count id := by
  induction items with
  | nil => cases member
  | cons first rest ih =>
    rw [List.flatMap_cons, List.count_append]
    obtain _ | ⟨_, later⟩ := member
    · exact Nat.le_add_right _ _
    · exact Nat.le_trans (ih later) (Nat.le_add_left _ _)

theorem count_add_le_flatMap {other : α} (member : item ∈ items) (listed : other ∈ items)
    (apart : item ≠ other) :
    (part item).count id + (part other).count id ≤ (items.flatMap part).count id := by
  induction items with
  | nil => cases member
  | cons first rest ih =>
    rw [List.flatMap_cons, List.count_append]
    obtain _ | ⟨_, later⟩ := member
    · have second := (List.mem_cons.1 listed).resolve_left (Ne.symm apart)
      exact Nat.add_le_add_left (count_le_flatMap second) _
    · obtain _ | ⟨_, after⟩ := listed
      · rw [Nat.add_comm]
        exact Nat.add_le_add_left (count_le_flatMap later) _
      · exact Nat.le_trans (ih later after) (Nat.le_add_left _ _)

end Count

/-- All that a statement reads, with what it holds in chunks. -/
def spreadReads (node : Stmt) : List LocalId := (node :: chunkNodes node).flatMap ownReads

theorem count_spreadReads (node : Stmt) (id : LocalId) : (spreadReads node).count id =
    (ownReads node).count id + ((chunkNodes node).flatMap ownReads).count id := by
  rw [spreadReads, List.flatMap_cons, List.count_append]

theorem scalarReads_eq_frame (body : List Stmt) :
    scalarReads body = (blockFrame body).flatMap spreadReads := by
  rw [scalarReads_eq, blockNodes_eq_frame, List.flatMap_assoc]
  rfl

section

variable {body : List Stmt} {id : LocalId}

theorem count_own_add_le {loop : Stmt} (member : node ∈ blockFrame body)
    (listed : loop ∈ blockFrame body) :
    (ownReads node).count id + ((chunkNodes loop).flatMap ownReads).count id ≤
      (scalarReads body).count id := by
  rw [scalarReads_eq_frame]
  by_cases same : node = loop
  · subst same
    rw [← count_spreadReads]
    exact count_le_flatMap member
  · have both : (spreadReads node).count id + (spreadReads loop).count id ≤ _ :=
      count_add_le_flatMap member listed same
    rw [count_spreadReads, count_spreadReads] at both
    omega

/-- The reads of a local inside of two loops over chunks are no more than all of its reads. -/
theorem count_chunks_add_le {first second : Stmt} (member : first ∈ blockFrame body)
    (listed : second ∈ blockFrame body) (apart : first ≠ second) :
    ((chunkNodes first).flatMap ownReads).count id +
      ((chunkNodes second).flatMap ownReads).count id ≤ (scalarReads body).count id := by
  rw [scalarReads_eq_frame]
  have both : (spreadReads first).count id + (spreadReads second).count id ≤ _ :=
    count_add_le_flatMap member listed apart
  rw [count_spreadReads, count_spreadReads] at both
  omega

end

end Frame

section Transport

variable {outline other : Outline}

mutual

theorem Outlines.imp {lowered : Stmt} (outlines : Outlines outline stmt lowered)
    (implies : ∀ {head body parallel}, .forLoop head body ∈ stmt.nodes → .parallel parallel
      (.forLoop (chunkHead parallel) body) ∈ frame lowered → outline head body parallel → other head
      body parallel) : Outlines other stmt lowered := by
  match stmt with
  | .forLoop head body =>
    obtain ⟨parallel, rfl, accepted⟩ | ⟨inner, rfl, below⟩ := outlines
    · exact .inl ⟨parallel, rfl, implies (Stmt.self_mem_nodes _) (by simp [frame]) accepted⟩
    · refine .inr ⟨inner, rfl, below.imp fun member listed => ?_⟩
      exact implies (by simp [Stmt.nodes, member]) (by simp [frame, listed])
  | .branch cond yes no =>
    obtain ⟨first, second, rfl, whenYes, whenNo⟩ := outlines
    refine ⟨first, second, rfl, whenYes.imp fun member listed => ?_,
      whenNo.imp fun member listed => ?_⟩
    all_goals exact implies (by simp [Stmt.nodes, member]) (by simp [frame, listed])
  | .whileLoop _ body _ | .block _ body | .vector _ body =>
    obtain ⟨inner, rfl, below⟩ := outlines
    refine ⟨inner, rfl, below.imp fun member listed => ?_⟩
    exact implies (by simp [Stmt.nodes, member]) (by simp [frame, listed])
  | .assign _ _ | .store _ _ _ | .eval _ | .leave | .skip | .giveBack _ | .exit _
  | .parallel _ _ => exact outlines

theorem OutlinesBlock.imp {lowered : List Stmt} (outlines : OutlinesBlock outline body lowered)
    (implies : ∀ {head inner parallel}, .forLoop head inner ∈ Stmt.blockNodes body → .parallel
      parallel (.forLoop (chunkHead parallel) inner) ∈ blockFrame lowered → outline head inner
      parallel → other head inner parallel) : OutlinesBlock other body lowered := by
  match body with
  | [] => exact outlines
  | stmt :: rest =>
    obtain ⟨first, others, rfl, here, later⟩ := outlines
    refine ⟨first, others, rfl, here.imp fun member listed => ?_, later.imp fun member listed => ?_⟩
    all_goals exact implies (by simp [Stmt.blockNodes, member]) (by simp [blockFrame, listed])

end

section

variable {all : List Stmt} (flat : ∀ node ∈ all, node.lowered? = none)

include flat

set_option linter.unusedSectionVars false in
mutual

theorem Outlines.exists_loop {lowered : Stmt} (outlines : Outlines outline stmt lowered)
    (within : stmt.nodes ⊆ all)
    (member : .parallel parallel chunk ∈ frame lowered) :
    ∃ head body, .forLoop head body ∈ all ∧ chunk = .forLoop (chunkHead parallel) body ∧
      outline head body parallel := by
  match stmt with
  | .forLoop head body =>
    obtain ⟨_, rfl, accepted⟩ | ⟨inner, rfl, below⟩ := outlines
    · cases List.mem_singleton.1 member
      exact ⟨head, body, within (Stmt.self_mem_nodes _), rfl, accepted⟩
    · exact below.exists_loop (fun _ inside => within (.tail _ inside))
        ((List.mem_cons.1 member).resolve_left nofun)
  | .branch cond yes no =>
    obtain ⟨first, second, rfl, whenYes, whenNo⟩ := outlines
    obtain inYes | inNo := List.mem_append.1 ((List.mem_cons.1 member).resolve_left nofun)
    · exact whenYes.exists_loop (fun _ inside => within (by simp [Stmt.nodes, inside])) inYes
    · exact whenNo.exists_loop (fun _ inside => within (by simp [Stmt.nodes, inside])) inNo
  | .whileLoop _ body _ | .block _ body =>
    obtain ⟨inner, rfl, below⟩ := outlines
    exact below.exists_loop (fun _ inside => within (.tail _ inside))
      ((List.mem_cons.1 member).resolve_left nofun)
  | .vector _ _ | .parallel _ _ => cases flat _ (within (Stmt.self_mem_nodes _))
  | .assign _ _ | .store _ _ _ | .eval _ | .leave | .skip | .giveBack _ | .exit _ =>
    cases outlines
    cases List.mem_singleton.1 member

theorem OutlinesBlock.exists_loop {lowered : List Stmt}
    (outlines : OutlinesBlock outline body lowered) (within : Stmt.blockNodes body ⊆ all)
    (member : .parallel parallel chunk ∈ blockFrame lowered) :
    ∃ head inner, .forLoop head inner ∈ all ∧ chunk = .forLoop (chunkHead parallel) inner ∧
      outline head inner parallel := by
  match body with
  | [] =>
    cases outlines
    cases member
  | stmt :: rest =>
    obtain ⟨first, others, rfl, here, later⟩ := outlines
    obtain ⟨now, after⟩ := List.append_subset.1 within
    exact (List.mem_append.1 member).elim (here.exists_loop now) (later.exists_loop after)

end

end

/-- What the head of an outlined loop has of the loop, as far as the reads of a local go. -/
def Heeds (id : LocalId) : Outline := fun head _ parallel =>
  parallel.start = head.start ∧ parallel.stop = head.stop ∧ parallel.chunkLo ≠ id ∧
    parallel.chunkHi ≠ id

variable {id : LocalId}

mutual

theorem Outlines.count_le {lowered : Stmt} (outlines : Outlines (Heeds id) stmt lowered) :
    (lowered.nodes.flatMap ownReads).count id ≤ (stmt.nodes.flatMap ownReads).count id := by
  match stmt with
  | .forLoop head body =>
    obtain ⟨parallel, rfl, start, stop, notLo, notHi⟩ | ⟨inner, rfl, below⟩ := outlines
    · simp only [Stmt.nodes, List.flatMap_cons, List.count_append]
      have outer : (ownReads (.parallel parallel (.forLoop (chunkHead parallel) body))).count id ≤
          (ownReads (.forLoop head body)).count id := by
        simp [ownReads, Stmt.exprs, start, stop]
      have ends : (ownReads (.forLoop (chunkHead parallel) body)).count id = 0 := by
        change ([parallel.chunkLo, parallel.chunkHi] : List LocalId).count id = 0
        simp [notLo, notHi]
      omega
    · have inside := below.count_le
      simp only [Stmt.nodes, List.flatMap_cons, List.count_append]
      exact Nat.add_le_add .refl inside
  | .branch cond yes no =>
    obtain ⟨first, second, rfl, whenYes, whenNo⟩ := outlines
    simp only [Stmt.nodes, List.flatMap_cons, List.flatMap_append, List.count_append]
    exact Nat.add_le_add .refl (Nat.add_le_add whenYes.count_le whenNo.count_le)
  | .whileLoop _ body _ | .block _ body | .vector _ body =>
    obtain ⟨inner, rfl, below⟩ := outlines
    simp only [Stmt.nodes, List.flatMap_cons, List.count_append]
    exact Nat.add_le_add .refl below.count_le
  | .assign _ _ | .store _ _ _ | .eval _ | .leave | .skip | .giveBack _ | .exit _
  | .parallel _ _ =>
    cases outlines
    exact .refl

theorem OutlinesBlock.count_le {lowered : List Stmt}
    (outlines : OutlinesBlock (Heeds id) body lowered) :
    ((Stmt.blockNodes lowered).flatMap ownReads).count id ≤
      ((Stmt.blockNodes body).flatMap ownReads).count id := by
  match body with
  | [] =>
    cases outlines
    exact .refl
  | stmt :: rest =>
    obtain ⟨first, others, rfl, here, later⟩ := outlines
    simp only [Stmt.blockNodes, List.flatMap_append, List.count_append]
    exact Nat.add_le_add here.count_le later.count_le

end

end Transport

end TwoTier.Passes
