import TwoTier.Proofs.Chunks.Kernel

namespace TwoTier.Native

open Typed (ForHead LocalId ParallelHead Routine Stmt)

variable {reduction : Reduction} {result : ChunkResult} {results : List ChunkResult}
  {after machine : Machine} {shared : Shared} {routine lowered : Routine} {limit : Nat}
  {head : ForHead} {body : List Stmt} {privates : List LocalId} {parallel : ParallelHead}
  {ctx other : Context} {outer : Array Slot} {start stop : Int64} {chunks : List (Int64 × Int64)}

section Chunks

variable {before next : Int64} {plain : Machine}

/-- The parts of the chunks, folded in their order. -/
def FoldsTo (parallel : ParallelHead) (before : Int64) (results : List ChunkResult) (next : Int64) :
    Prop :=
  ∀ reduction ∈ parallel.reduction,
    results.foldlM (foldChunk? reduction) (.int before) = some (.int next)

variable {folded : Scalar}

theorem foldChunk?_word
    (joined : foldChunk? reduction (.int before) result = some folded) :
    ∃ value, folded = .int value := by
  obtain ⟨part, distance⟩ := result
  match part with
  | some (.int y) =>
    simp only [foldChunk?] at joined
    split at joined
    · cases joined
    · obtain ⟨value, _, same⟩ := Option.map_eq_some_iff.1 joined
      exact ⟨value, same.symm⟩

theorem foldlM_word
    (joined : results.foldlM (foldChunk? reduction) (.int before) = some folded) :
    ∃ value, folded = .int value := by
  induction results generalizing before with
  | nil =>
    cases joined
    exact ⟨before, rfl⟩
  | cons result rest ih =>
    obtain ⟨middle, first, others⟩ := Option.bind_eq_some_iff.1 joined
    obtain ⟨value, rfl⟩ := foldChunk?_word first
    exact ih others

theorem foldsTo_cons (folds : FoldsTo parallel before (result :: results) next) :
    ∃ middle, (∀ reduction ∈ parallel.reduction,
      foldChunk? reduction (.int before) result = some (.int middle)) ∧
        FoldsTo parallel middle results next := by
  unfold FoldsTo at folds ⊢
  cases only : parallel.reduction with
  | none => exact ⟨before, by simp⟩
  | some reduction =>
    have folded := folds reduction only
    obtain ⟨middle, joined, rest⟩ := Option.bind_eq_some_iff.1 folded
    obtain ⟨value, rfl⟩ := foldChunk?_word joined
    refine ⟨value, ?_, ?_⟩
    · rintro _ ⟨⟩
      exact joined
    · rintro _ ⟨⟩
      exact rest

theorem Through.trans {middle : Int64} {between : Machine}
    (first : Through body head start middle plain between) (low : start.toInt < middle.toInt)
    (high : middle.toInt ≤ stop.toInt) (second : Through body head middle stop between after) :
    Through body head start stop plain after where
  untouched := (Footprint.outside _).trans first.untouched second.untouched
  counter _ := by
    by_cases more : middle.toInt < stop.toInt
    · exact second.counter more
    · obtain rfl := second.empty (by omega)
      obtain rfl : middle = stop := Int64.toInt_inj.1 (by omega)
      exact first.counter low
  empty reached := absurd low (by omega)

/-- All chunks one after another, and the plain loop over all of them. -/
theorem Outlined.runChunks_follow (outlined : Outlined routine limit head body privates parallel)
    (declared : parallel.chunkHi < lowered.locals.length) (granted : ctx.fuel ≤ other.fuel)
    (pieces : Chunk.Pieces stop start chunks) {after : Shared}
    (ready : Ready parallel limit outer shared before plain)
    (ran : runChunks lowered parallel (exec ctx (.forLoop (chunkHead parallel) body)) outer chunks
      shared = .ok results after) (folds : FoldsTo parallel before results next)
    (within : start.toInt ≤ stop.toInt) :
    ∃ plainAfter, Advances head stop (execBlock other body) (stop.toInt - start.toInt).toNat start
        plain stop plainAfter ∧ Through body head start stop plain plainAfter ∧
      Ready parallel limit outer after next plainAfter := by
  induction pieces generalizing shared plain before results with
  | done reached =>
    cases ran
    obtain rfl : _ = stop := Int64.toInt_inj.1 (Int.le_antisymm within reached)
    refine ⟨plain, ?_, ⟨(Footprint.outside _).refl plain, fun below => absurd below (by omega),
      fun _ => rfl⟩, ready.room, ready.taken, ready.shared, ready.untracked, fun reduction member => ?_⟩
    · rw [Int.sub_self]
      exact Advances.refl
    · cases folds reduction member
      exact ready.holds reduction member
  | @more lo hi rest low high others ih =>
    unfold runChunks at ran
    rw [List.mapM_cons] at ran
    obtain ⟨result, between, first, later⟩ := Step.bind_eq_ok.1 ran
    obtain ⟨remaining, last, second, ended⟩ := Step.bind_eq_ok.1 later
    obtain ⟨rfl, rfl⟩ := Step.pure_eq_ok.1 ended
    obtain ⟨middle, joins, folds⟩ := foldsTo_cons folds
    obtain ⟨plainBetween, advanced, through, ready⟩ :=
      outlined.runChunk_follows declared granted low high ready first joins
    obtain ⟨plainAfter, advances, onward, ready⟩ := ih ready second folds high
    refine ⟨plainAfter, ?_, through.trans low high onward, ready⟩
    rw [show (stop.toInt - lo.toInt).toNat =
      (hi.toInt - lo.toInt).toNat + (stop.toInt - hi.toInt).toNat by omega]
    exact advanced.trans advances

end Chunks

section Words

/-- A local that holds a word goes on holding one. -/
def Footprint.word (id : LocalId) : Footprint Machine where
  rel before after := (∃ value, before.slots[id]? = some (.scalar (.int value))) →
    ∃ value, after.slots[id]? = some (.scalar (.int value))
  refl _ held := held
  trans first second held := second (first held)

theorem word_of_outside {step : Step Machine α} {id : LocalId}
    (keeps : (Footprint.outside written).Keeps step) (apart : id ∉ written) :
    (Footprint.word id).Keeps step where
  after ran := fun ⟨value, held⟩ => ⟨value, ((keeps.after ran).2 id apart).trans held⟩

theorem update_word {split : Split} {acc : LocalId} {op : ReductionOp} {value : Typed.Expr}
    {call : Callee} {result : Scalar} (updates : split.Updates acc op value)
    (held : ∃ value, machine.slots[acc]? = some (.scalar (.int value)))
    (ran : eval call value machine = .ok result after) : ∃ value, result = .int value := by
  obtain ⟨part, held⟩ := held
  have here : Machine.read acc machine = .ok (.int part) machine := Machine.read_eq_ok.2 ⟨held, rfl⟩
  cases updates with
  | left joins avoids =>
    simp only [joins.eval_eq, eval] at ran
    rw [Step.bind_of_ok here] at ran
    obtain ⟨operand, between, _, joined⟩ := Step.bind_eq_ok.1 ran
    obtain ⟨_, _, same, rfl⟩ := joins.words joined (.inl rfl)
    obtain ⟨⟨value, equal, _⟩, _⟩ := joins.eq_ok_iff.1 joined
    exact ⟨value, equal⟩
  | right joins avoids =>
    simp only [joins.eval_eq, eval] at ran
    obtain ⟨operand, between, evaluated, joining⟩ := Step.bind_eq_ok.1 ran
    obtain rfl := (Split.Reads.eval call avoids).unchanged evaluated
    rw [Step.bind_of_ok here] at joining
    obtain ⟨_, _, rfl, same⟩ := joins.words joining (.inr rfl)
    obtain ⟨⟨value, equal, _⟩, _⟩ := joins.eq_ok_iff.1 joining
    exact ⟨value, equal⟩

variable (outlined : Outlined routine limit head body privates parallel)
  (member : reduction ∈ parallel.reduction)
include outlined member

theorem Outlined.word_exec :
    (Footprint.word reduction.acc).Keeps (exec ctx (.forLoop (chunkHead parallel) body)) := by
  have words : ∀ reduction ∈ parallel.reduction.toList, reduction.type = .int :=
    fun reduction member => outlined.words reduction (by simpa using member)
  have elsewhere {id : LocalId} (apart : reduction.acc ≠ id) : reduction.acc ∉ [id] := by
    simpa using apart
  have unobstructed : ∀ node ∈ (Stmt.forLoop (chunkHead parallel) body).nodes,
      Passes.splitObstacle? node = none := by
    simpa only [Stmt.nodes, List.forall_mem_cons] using ⟨rfl, outlined.accepted.unobstructed⟩
  refine keeps_exec fun node present => keptBy_of_unobstructed
    (fun expr => word_of_outside (outside_of_locals (Footprint.locals_eval _ _)) List.not_mem_nil)
    (fun array position value => word_of_outside (outside_store _ _ _) List.not_mem_nil)
    (unobstructed node present) ?_ ?_
  · rintro id value rfl
    obtain present := (List.mem_cons.1 present).resolve_left nofun
    by_cases same : reduction.acc = id
    · subst same
      have updates : Split.Updates ⟨parallel.reduction.toList, fun _ => 0, []⟩ reduction.acc
          reduction.op value :=
        outlined.accepted.updates_of_assign words (by simpa using member) present
      constructor
      intro machine result after ran held
      have unchanged {scalar between}
          (evaluated : eval ctx.call value machine = .ok scalar between) : between = machine :=
        Split.eval_unchanged updates.callFree evaluated
      obtain ⟨scalar, evaluated, effect⟩ := assigns_of_ok unchanged ran
      obtain ⟨next, rfl⟩ := update_word updates held evaluated
      refine ⟨next, ?_⟩
      rw [effect.slots]
      exact Array.getElem?_setIfInBounds_self_of_lt effect.inside
    · exact word_of_outside (outside_assign (.head _) value) (elsewhere same)
  · rintro inner block rfl value
    refine word_of_outside (outside_write (.head _) value) (elsewhere fun same => ?_)
    obtain own | present := List.mem_cons.1 present
    · obtain ⟨rfl, rfl⟩ := Stmt.forLoop.inj own
      have counter : (chunkHead parallel).var = head.var := outlined.counter
      exact outlined.acc_ne_var member (same.trans counter)
    · have regular :
          Split.Regular ⟨parallel.reduction.toList, fun _ => 0, []⟩ (.forLoop inner block) :=
        outlined.accepted.regular words _ present
      cases regular with
      | forLoop apart => exact apart ⟨reduction, by simpa using member, same⟩

theorem Outlined.part_word (declared : parallel.chunkHi < lowered.locals.length) {lo hi : Int64}
    {after : Shared}
    (ran : runChunk lowered parallel (exec ctx (.forLoop (chunkHead parallel) body)) outer lo hi
      shared = .ok result after) : ∃ part, result.part = some (.int part) := by
  have inside : reduction.acc < lowered.locals.length :=
    Nat.lt_trans (Nat.lt_of_lt_of_le (outlined.written_lt (outlined.acc_written member)) outlined.lo)
      (Nat.lt_trans outlined.hi declared)
  obtain ⟨ended, looped, _, found⟩ := runChunk_eq_ok ran
  obtain ⟨part, held, returned, _⟩ := found reduction member
  obtain ⟨value, word⟩ := (outlined.word_exec member).after looped ⟨_, by
    rw [kernelSlots_acc member inside, outlined.words reduction member, reduction.op.identity_int]⟩
  cases held.symm.trans word
  exact ⟨value, returned⟩

end Words

section Loop

variable {fixed : LocalId → Prop}

theorem Confined.widen {narrow : LocalId → Prop} (confined : Confined narrow privates limit node)
    (wider : ∀ id, narrow id → fixed id) :
    Confined fixed privates limit node where
  unobstructed := confined.unobstructed
  reads expr member part inside id named :=
    (confined.reads expr member part inside id named).imp_left (wider id)
  writes := confined.writes
  stores same := wider _ (confined.stores same)

theorem Agrees.untracked (agrees : Agrees fixed [] limit assigned machine twin) :
    machine.distances = [] ∧ twin.distances = [] := by
  have none : machine.distances = [] := by
    cases listed : machine.distances with
    | nil => rfl
    | cons entry rest =>
      cases agrees.tracked entry.1 (by simp [listed])
  exact ⟨none, agrees.distances ▸ none⟩

/-- The loop in place: the private locals of its iterations do not matter. -/
theorem Outlined.inPlace_follows (outlined : Outlined routine limit head body privates parallel)
    (granted : ctx.fuel ≤ other.fuel) (known : ∀ id, Shares parallel id → fixed id) :
    FollowsIn (Agrees fixed [] limit [])
      (countFrom (chunkHead parallel) stop 1 (execBlock ctx body) ctx.fuel start)
      (countFrom head stop 1 (execBlock other body) other.fuel start) := by
  have range := outlined.accepted.bound_eq
  have visited := outlined.accepted.exitValue_eq
  have counter : (chunkHead parallel).var = head.var := outlined.counter
  rw [countFrom_eq_unitFrom rfl rfl, counter, ← countFrom_eq_unitFrom range visited]
  obtain ⟨_, flows⟩ := outlined.flows
  have iteration : FollowsIn (Agrees (fun id => fixed id ∨ id = head.var) [] limit [])
      (execBlock ctx body) (execBlock other body) :=
    (Agrees.execBlock granted nofun rfl body (fun node member =>
      (outlined.confined node member).widen fun id => Or.imp_left (known id)) flows).weaken id
        fun settles => settles.still
  have leaves {machine twin : Machine}
      (agrees : Agrees (fun id => fixed id ∨ id = head.var) [] limit [] machine twin) :
      Agrees fixed [] limit [] machine twin :=
    agrees.recast fun id settled => settled.imp_left .inl
  refine .countFrom leaves (fun i => ?_) iteration (fun i => ?_) granted start
  · simp only [setCount, visited]
    refine (Agrees.write outlined.declared (.int i)).weaken id fun agrees => ?_
    exact agrees.recast fun id settled => by simpa using settled
  · simp only [nextCount, visited]
    exact .pure leaves

variable {result : Unit}

theorem foldChunks_eq_ok (ran : foldChunks parallel results machine = .ok result after) :
    (parallel.reduction = none ∧ after = machine) ∨
      ∃ reduction acc folded, parallel.reduction = some reduction ∧
        machine.slots[reduction.acc]? = some (.scalar acc) ∧
        results.foldlM (foldChunk? reduction) acc = some folded ∧
        after = { machine with slots := machine.slots.setIfInBounds reduction.acc (.scalar folded) } := by
  rw [foldChunks] at ran
  cases only : parallel.reduction with
  | none =>
    rw [only] at ran
    exact .inl ⟨rfl, (Step.pure_eq_ok.1 ran).2.symm⟩
  | some reduction =>
    rw [only] at ran
    obtain ⟨acc, _, read, folding⟩ := Step.bind_eq_ok.1 ran
    obtain ⟨held, rfl⟩ := Machine.read_eq_ok.1 read
    obtain ⟨folded, _, joined, writing⟩ := Step.bind_eq_ok.1 folding
    obtain ⟨chosen, rfl⟩ := Step.ofOption_eq_ok.1 joined
    obtain ⟨_, rfl⟩ := Machine.write_eq_ok.1 writing
    exact .inr ⟨reduction, acc, folded, rfl, held, chosen, rfl⟩

/-- The machine before and after the parts of at least one chunk have been folded in. -/
structure Folded (parallel : ParallelHead) (results : List ChunkResult) (before next : Int64)
    (machine after : Machine) : Prop where
  held : ∀ reduction ∈ parallel.reduction,
    machine.slots[reduction.acc]? = some (.scalar (.int before))
  folds : FoldsTo parallel before results next
  holds : ∀ reduction ∈ parallel.reduction,
    after.slots[reduction.acc]? = some (.scalar (.int next))
  elsewhere : ∀ id, (∀ reduction ∈ parallel.reduction, reduction.acc ≠ id) →
    after.slots[id]? = machine.slots[id]?
  distances : after.distances = machine.distances
  shared : after.shared = machine.shared

theorem folded_of_foldChunks {first : ChunkResult} {rest : List ChunkResult}
    (words : ∀ reduction ∈ parallel.reduction, ∃ part, first.part = some (.int part))
    (ran : foldChunks parallel (first :: rest) machine = .ok result after) :
    ∃ before next, Folded parallel (first :: rest) before next machine after := by
  obtain ⟨bare, rfl⟩ | ⟨reduction, acc, folded, only, held, joined, rfl⟩ := foldChunks_eq_ok ran
  · exact ⟨0, 0, by simp [bare], by simp [FoldsTo, bare], by simp [bare], fun _ _ => rfl, rfl, rfl⟩
  · obtain ⟨part, word⟩ := words reduction only
    obtain ⟨before, rfl⟩ : ∃ before, acc = .int before := by
      obtain ⟨middle, start, -⟩ := Option.bind_eq_some_iff.1 joined
      cases acc with
      | int before => exact ⟨before, rfl⟩
      | float _ | bool _ => simp [foldChunk?, word] at start
    obtain ⟨next, rfl⟩ := foldlM_word joined
    have inside : reduction.acc < machine.slots.size := (Array.getElem?_eq_some_iff.1 held).1
    refine ⟨before, next, ?_, ?_, ?_, fun id apart => ?_, rfl, rfl⟩
    · simpa [only] using held
    · simpa [FoldsTo, only] using joined
    · intro other member
      obtain rfl : reduction = other := Option.mem_unique only member
      exact Array.getElem?_setIfInBounds_self_of_lt inside
    · exact Array.getElem?_setIfInBounds_ne (apart reduction only)

theorem countedLoop_of_stride {run : Step Machine Flow} (visited : head.exitValue = false)
    (fuel : Nat) :
    countedLoop head start stop 1 run fuel = countFrom head stop 1 run fuel start := by
  unfold countedLoop
  rw [if_neg fun zero => absurd zero.2 (by decide), visited]
  rfl

/-- Where all chunks end well and their parts fold, the plain loop ends well too, and the machines
agree on the fixed locals. -/
theorem Outlined.chunks_follow (outlined : Outlined routine limit head body privates parallel)
    (declared : parallel.chunkHi < lowered.locals.length) (granted : ctx.fuel + 2 ^ 63 ≤ other.fuel)
    (known : ∀ id, Shares parallel id → fixed id)
    (lost : ∀ id ∈ Stmt.writtenLocals body, fixed id → ∃ reduction ∈ parallel.reduction,
      reduction.acc = id) {plain : Machine} (agrees : Agrees fixed [] limit [] machine plain)
    (low : 0 ≤ start.toInt) (below : start.toInt < stop.toInt)
    (pieces : Chunk.Pieces stop start chunks)
    (ran : runChunks lowered parallel (exec ctx (.forLoop (chunkHead parallel) body)) machine.slots
      chunks machine.shared = .ok results shared) {folded : Machine}
    (folding : foldChunks parallel results { machine with shared } = .ok result folded)
    (written : Machine.write parallel.var (.int (stop - 1)) folded = .ok () after) :
    ∃ plainAfter, countFrom head stop 1 (execBlock other body) other.fuel start plain =
      .ok .next plainAfter ∧ Agrees fixed [] limit [] after plainAfter := by
  obtain ⟨untracked, plainUntracked⟩ := agrees.untracked
  -- there is a first chunk, so the accumulator holds a word
  obtain ⟨first, rest, rfl, words⟩ : ∃ first rest, results = first :: rest ∧
      ∀ reduction ∈ parallel.reduction, ∃ part, first.part = some (.int part) := by
    cases pieces with
    | done reached => omega
    | more =>
      unfold runChunks at ran
      rw [List.mapM_cons] at ran
      obtain ⟨first, _, began, later⟩ := Step.bind_eq_ok.1 ran
      obtain ⟨rest, _, _, ended⟩ := Step.bind_eq_ok.1 later
      obtain ⟨rfl, rfl⟩ := Step.pure_eq_ok.1 ended
      exact ⟨first, rest, rfl, fun reduction member => outlined.part_word member declared began⟩
  obtain ⟨before, next, folded⟩ := folded_of_foldChunks words folding
  have ready : Ready parallel limit machine.slots machine.shared before plain := {
    room := agrees.room
    taken := fun id member => by
      have inside : id < plain.slots.size :=
        Nat.lt_of_lt_of_le (outlined.taken id member).1 agrees.room
      have same := agrees.locals id (.inl (known id (.inl member)))
      rw [Array.getElem?_eq_getElem inside] at same ⊢
      rw [Array.getD_eq_getD_getElem?, same, Option.getD_some]
    shared := agrees.shared.symm
    untracked := plainUntracked
    holds := fun reduction member => by
      rw [← agrees.locals _ (.inl (known _ (.inr ⟨reduction, member, rfl⟩)))]
      exact folded.held reduction member }
  obtain ⟨plainAfter, advances, through, ready⟩ :=
    outlined.runChunks_follow declared (by omega : ctx.fuel ≤ other.fuel) pieces ready ran
      folded.folds (Int.le_of_lt below)
  have bound := stop.toInt_lt
  obtain ⟨fuel, enough⟩ : ∃ fuel, other.fuel = fuel + 1 + (stop.toInt - start.toInt).toNat :=
    ⟨other.fuel - 1 - (stop.toInt - start.toInt).toNat, by omega⟩
  obtain ⟨fits, rfl⟩ := Machine.write_eq_ok.1 written
  refine ⟨plainAfter, ?_, ⟨fun id settled => ?_, ready.room, ?_, ?_, ?_⟩⟩
  · rw [enough, advances (fuel + 1), countFrom_succ, if_neg]
    · rfl
    · simp [boundHolds, outlined.accepted.bound_eq]
  · have settled : fixed id := settled.resolve_right List.not_mem_nil
    by_cases counter : id = head.var
    · subst counter
      rw [through.counter below, outlined.counter]
      exact Array.getElem?_setIfInBounds_self_of_lt (outlined.counter ▸ fits)
    · rw [show parallel.var = head.var from outlined.counter,
        Array.getElem?_setIfInBounds_ne (Ne.symm counter)]
      by_cases accumulates : ∃ reduction ∈ parallel.reduction, reduction.acc = id
      · obtain ⟨reduction, member, rfl⟩ := accumulates
        rw [folded.holds reduction member, ready.holds reduction member]
      · have unwritten : id ∉ Stmt.writtenLocals body := fun member =>
          accumulates (lost id member settled)
        rw [folded.elsewhere id fun reduction member same => accumulates ⟨reduction, member, same⟩,
          through.untouched.2 id (by simp [unwritten, counter])]
        exact agrees.locals id (.inl settled)
  · intro id tracked
    rw [show _ = machine.distances from folded.distances, untracked] at tracked
    cases tracked
  · exact (folded.distances.trans untracked).trans ready.untracked.symm
  · exact folded.shared.trans ready.shared.symm

/-- A loop over chunks that ends well does what the plain loop does, up to its private locals. -/
theorem Outlined.parallelLoop_follows (outlined : Outlined routine limit head body privates parallel)
    (declared : parallel.chunkHi < lowered.locals.length) (granted : ctx.fuel + 2 ^ 63 ≤ other.fuel)
    (inside : ∀ id, fixed id → id < limit) (known : ∀ id, Shares parallel id → fixed id)
    (lost : ∀ id ∈ Stmt.writtenLocals body, fixed id →
      ∃ reduction ∈ parallel.reduction, reduction.acc = id) (least target : Int64) :
    FollowsIn (Agrees fixed [] limit [])
      (parallelLoop lowered parallel (exec ctx (.forLoop (chunkHead parallel) body))
        (exec ctx.inKernel (.forLoop (chunkHead parallel) body)) start stop least target)
      (countedLoop head start stop 1 (execBlock other body) other.fuel) where
  run {machine plain flow after} agrees ran := by
    rw [countedLoop_of_stride outlined.accepted.exitValue_eq]
    unfold parallelLoop at ran
    split at ran
    · -- in place, between the two ends
      obtain ⟨_, lower, first, rest⟩ := Step.bind_eq_ok.1 ran
      obtain ⟨_, upper, second, looped⟩ := Step.bind_eq_ok.1 rest
      obtain ⟨fitsLo, rfl⟩ := Machine.write_eq_ok.1 first
      obtain ⟨fitsHi, rfl⟩ := Machine.write_eq_ok.1 second
      have apart : parallel.chunkHi ≠ parallel.chunkLo := Nat.ne_of_gt outlined.hi
      have atLo : ((machine.slots.setIfInBounds parallel.chunkLo (.scalar (.int start))).setIfInBounds
          parallel.chunkHi (.scalar (.int stop)))[parallel.chunkLo]? = some (.scalar (.int start)) :=
        (Array.getElem?_setIfInBounds_ne apart).trans
          (Array.getElem?_setIfInBounds_self_of_lt fitsLo)
      rw [exec_chunk atLo (Array.getElem?_setIfInBounds_self_of_lt fitsHi)] at looped
      refine (outlined.inPlace_follows (by omega : ctx.fuel ≤ other.fuel) known).run ?_ looped
      refine ⟨fun id settled => ?_, agrees.room, agrees.tracked, agrees.distances, agrees.shared⟩
      have low := inside id (settled.resolve_right List.not_mem_nil)
      have notLo : parallel.chunkLo ≠ id := Nat.ne_of_gt (Nat.lt_of_lt_of_le low outlined.lo)
      have notHi : parallel.chunkHi ≠ id :=
        Nat.ne_of_gt (Nat.lt_trans (Nat.lt_of_lt_of_le low outlined.lo) outlined.hi)
      rw [Array.getElem?_setIfInBounds_ne notHi, Array.getElem?_setIfInBounds_ne notLo]
      exact agrees.locals id settled
    · rename_i notNegative
      have low : 0 ≤ start.toInt := by
        simpa [Int64.lt_iff_toInt_lt] using notNegative
      obtain ⟨outer, _, got, rest⟩ := Step.bind_eq_ok.1 ran
      cases got
      obtain ⟨chunks, _, granting, rest⟩ := Step.bind_eq_ok.1 rest
      obtain ⟨tabled, rfl⟩ := Step.grant_eq_ok.1 granting
      obtain ⟨results, _, chunked, rest⟩ := Step.bind_eq_ok.1 rest
      obtain ⟨shared, ranChunks, rfl⟩ := Machine.onShared_eq_ok.1 chunked
      obtain ⟨_, folded, folding, rest⟩ := Step.bind_eq_ok.1 rest
      have pieces := Chunk.pieces_bounds? tabled
      split at rest
      · rename_i below
        obtain ⟨_, _, written, ended⟩ := Step.bind_eq_ok.1 rest
        obtain ⟨rfl, rfl⟩ := Step.pure_eq_ok.1 ended
        have enough : ctx.inKernel.fuel + 2 ^ 63 ≤ other.fuel := granted
        exact outlined.chunks_follow declared enough known lost agrees low
          (Int64.lt_iff_toInt_lt.1 below) pieces ranChunks folding written
      · rename_i reached
        obtain ⟨rfl, rfl⟩ := Step.pure_eq_ok.1 rest
        have reached : stop.toInt ≤ start.toInt := by
          simpa [Int64.lt_iff_toInt_lt] using reached
        cases pieces with
        | more => omega
        | done =>
          cases ranChunks
          obtain rfl : folded = machine := by
            obtain ⟨_, rfl⟩ | ⟨reduction, acc, _, _, held, joined, rfl⟩ := foldChunks_eq_ok folding
            · rfl
            · cases joined
              have same : machine.slots.setIfInBounds reduction.acc (.scalar acc) =
                  machine.slots := by
                refine Array.ext_getElem? fun id => ?_
                by_cases here : reduction.acc = id
                · subst here
                  rw [held, Array.getElem?_setIfInBounds_self_of_lt
                    (Array.getElem?_eq_some_iff.1 held).1]
                · exact Array.getElem?_setIfInBounds_ne here
              rw [same]
          obtain ⟨fuel, enough⟩ : ∃ fuel, other.fuel = fuel + 1 := ⟨other.fuel - 1, by omega⟩
          refine ⟨plain, ?_, agrees⟩
          rw [enough, countFrom_succ, if_neg]
          · rfl
          · simp [boundHolds, outlined.accepted.bound_eq, Int64.lt_iff_toInt_lt, reached]

end Loop

end TwoTier.Native
