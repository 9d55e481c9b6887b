import TwoTier.Proofs.Chunks.Frame
import TwoTier.Proofs.Chunks.Pieces
import TwoTier.Proofs.Chunks.Privates
import TwoTier.Proofs.Lanes.SplitLoop

namespace TwoTier.Native

open Typed (ForHead LocalId ParallelHead Routine Stmt)

section Slots

variable {routine : Routine} {head : ParallelHead} {outer : Array Slot} {lo hi : Int64} {id : LocalId}

def takeSlots (outer : Array Slot) (ids : List LocalId) (slots : Array Slot) : Array Slot :=
  ids.foldl (fun slots id => slots.setIfInBounds id (outer.getD id default)) slots

@[simp]
theorem size_takeSlots (ids : List LocalId) (slots : Array Slot) :
    (takeSlots outer ids slots).size = slots.size := by
  induction ids generalizing slots with
  | nil => rfl
  | cons first rest ih =>
    change (takeSlots outer rest (slots.setIfInBounds first _)).size = _
    rw [ih, Array.size_setIfInBounds]

theorem takeSlots_other (apart : id ∉ ids) : (takeSlots outer ids slots)[id]? = slots[id]? := by
  induction ids generalizing slots with
  | nil => rfl
  | cons first rest ih =>
    refine (ih fun member => apart (.tail _ member)).trans ?_
    refine Array.getElem?_setIfInBounds_ne ?_
    rintro rfl
    exact apart (.head _)

theorem takeSlots_of_mem (member : id ∈ ids) (inside : id < slots.size) :
    (takeSlots outer ids slots)[id]? = some (outer.getD id default) := by
  induction ids generalizing slots with
  | nil => cases member
  | cons first rest ih =>
    by_cases later : id ∈ rest
    · exact ih later (by simpa using inside)
    · obtain rfl := (List.mem_cons.1 member).resolve_right later
      exact (takeSlots_other later).trans (Array.getElem?_setIfInBounds_self_of_lt inside)

@[simp]
theorem size_emptySlots : (emptySlots routine).size = routine.locals.length := by
  simp [emptySlots]

/-- The accumulator of a kernel is set last, and the ends of the chunk before it. -/
theorem kernelSlots_other (acc : ∀ reduction ∈ head.reduction, reduction.acc ≠ id) :
    (kernelSlots routine head outer lo hi)[id]? =
      (((takeSlots outer (head.captures ++ head.arrays) (emptySlots routine)).setIfInBounds
        head.chunkLo (.scalar (.int lo))).setIfInBounds head.chunkHi (.scalar (.int hi)))[id]? := by
  unfold kernelSlots
  split
  · rfl
  · rename_i reduction same
    exact Array.getElem?_setIfInBounds_ne (acc reduction same)

theorem kernelSlots_taken (member : id ∈ head.captures ++ head.arrays)
    (inside : id < routine.locals.length) (acc : ∀ reduction ∈ head.reduction, reduction.acc ≠ id)
    (notLo : head.chunkLo ≠ id) (notHi : head.chunkHi ≠ id) :
    (kernelSlots routine head outer lo hi)[id]? = some (outer.getD id default) := by
  rw [kernelSlots_other acc, Array.getElem?_setIfInBounds_ne notHi,
    Array.getElem?_setIfInBounds_ne notLo]
  exact takeSlots_of_mem member (by simpa using inside)

theorem kernelSlots_lo (inside : head.chunkLo < routine.locals.length)
    (acc : ∀ reduction ∈ head.reduction, reduction.acc ≠ head.chunkLo)
    (apart : head.chunkHi ≠ head.chunkLo) :
    (kernelSlots routine head outer lo hi)[head.chunkLo]? = some (.scalar (.int lo)) := by
  rw [kernelSlots_other acc, Array.getElem?_setIfInBounds_ne apart]
  exact Array.getElem?_setIfInBounds_self_of_lt (by simpa using inside)

theorem kernelSlots_hi (inside : head.chunkHi < routine.locals.length)
    (acc : ∀ reduction ∈ head.reduction, reduction.acc ≠ head.chunkHi) :
    (kernelSlots routine head outer lo hi)[head.chunkHi]? = some (.scalar (.int hi)) := by
  rw [kernelSlots_other acc]
  exact Array.getElem?_setIfInBounds_self_of_lt (by simpa using inside)

theorem kernelSlots_acc (member : reduction ∈ head.reduction)
    (inside : reduction.acc < routine.locals.length) :
    (kernelSlots routine head outer lo hi)[reduction.acc]? =
      some (.scalar (reduction.op.identity reduction.type)) := by
  have bound : reduction.acc <
      (((takeSlots outer (head.captures ++ head.arrays) (emptySlots routine)).setIfInBounds
        head.chunkLo (.scalar (.int lo))).setIfInBounds head.chunkHi (.scalar (.int hi))).size := by
    simpa using inside
  unfold kernelSlots
  rw [member]
  exact Array.getElem?_setIfInBounds_self_of_lt bound

end Slots

/-- What a kernel takes over from outside, with its accumulator. -/
def Shares (parallel : ParallelHead) (id : LocalId) : Prop :=
  id ∈ parallel.captures ++ parallel.arrays ∨ ∃ reduction ∈ parallel.reduction, reduction.acc = id

/-- A loop that may run over chunks, with the head it then has and the limit of its plain locals. -/
structure Outlined (routine : Routine) (limit : Nat) (head : ForHead) (body : List Stmt)
    (privates : List LocalId) (parallel : ParallelHead) : Prop where
  accepted : Passes.Accepted routine head body parallel.reduction.toList
  words : ∀ reduction ∈ parallel.reduction, reduction.type = .int
  flows : ∃ after, Passes.flowBlock privates body {} = .ok after
  confined : ∀ node ∈ Stmt.blockNodes body,
    Confined (fun id => Shares parallel id ∨ id = head.var) privates limit node
  counter : parallel.var = head.var
  declared : head.var < limit
  taken : ∀ id ∈ parallel.captures ++ parallel.arrays,
    id < limit ∧ id ∉ Stmt.writtenLocals body ∧ id ≠ head.var
  lo : limit ≤ parallel.chunkLo
  hi : parallel.chunkLo < parallel.chunkHi

variable {routine lowered : Routine} {limit : Nat} {head : ForHead} {body : List Stmt}
  {privates : List LocalId} {parallel : ParallelHead} {ctx other : Context} {before : Int64}
  {plain : Machine}

namespace Outlined

variable (outlined : Outlined routine limit head body privates parallel)
include outlined

theorem written_lt {id : LocalId} (written : id ∈ Stmt.writtenLocals body) : id < limit := by
  obtain ⟨node, member, own⟩ := List.mem_flatMap.1 written
  exact (outlined.confined node member).writes id own

theorem acc_written (member : reduction ∈ parallel.reduction) :
    reduction.acc ∈ Stmt.writtenLocals body :=
  outlined.accepted.written reduction (by simpa using member)

theorem acc_ne_var (member : reduction ∈ parallel.reduction) : reduction.acc ≠ head.var :=
  fun same => outlined.accepted.counter (same ▸ outlined.acc_written member)

theorem distinct : ∀ first ∈ parallel.reduction.toList, ∀ second ∈ parallel.reduction.toList,
    first.acc = second.acc → first = second :=
  fun _ first _ second same => outlined.accepted.distinct first second same

theorem mirrors (granted : ctx.fuel ≤ more) (base : LocalId → Int64)
    (others : List (LocalId → Int64)) :
    Split.Mirrors ⟨parallel.reduction.toList, base, others⟩ (execBlock ctx body)
      (execBlock { ctx with fuel := more } body) := by
  have words : ∀ reduction ∈ parallel.reduction.toList, reduction.type = .int :=
    fun reduction member => outlined.words reduction (by simpa using member)
  have distinct : Split.Distinct ⟨parallel.reduction.toList, base, others⟩ := outlined.distinct
  exact Split.Mirrors.execBlock granted distinct words (outlined.accepted.regular words)

end Outlined

/-- The split of an accumulator between a kernel and what was there before the chunk. -/
def chunkSplit (parallel : ParallelHead) (before : Int64) : Split :=
  ⟨parallel.reduction.toList, fun _ => before, [fun _ => before]⟩

/-- A kernel and the plain machine between two iterations. -/
def Alongside (parallel : ParallelHead) (limit : Nat) (before : Int64) (kernel plain : Machine) :
    Prop :=
  ∃ middle, Agrees (Shares parallel) ((kernelDistances parallel).map (·.1)) limit [] kernel middle ∧
    (chunkSplit parallel before).Linked middle plain

section Chunk

variable {kernel after : Machine} {flow : Flow}

theorem mem_kernelDistances {id : LocalId} (tracked : id ∈ (kernelDistances parallel).map (·.1)) :
    Shares parallel id := by
  unfold kernelDistances at tracked
  split at tracked
  · rename_i reduction same
    split at tracked
    · obtain rfl : id = reduction.acc := by simpa using tracked
      exact .inr ⟨reduction, same, rfl⟩
    · cases tracked
  · cases tracked

/-- How the plain loop has come through a chunk next to the kernel. -/
structure Through (body : List Stmt) (head : ForHead) (i hi : Int64) (plain after : Machine) :
    Prop where
  untouched : (Footprint.outside (head.var :: Stmt.writtenLocals body)).rel plain after
  counter : i.toInt < hi.toInt → after.slots[head.var]? = some (.scalar (.int (hi - 1)))
  empty : hi.toInt ≤ i.toInt → after = plain

variable (outlined : Outlined routine limit head body privates parallel)
include outlined

theorem Outlined.iterate (granted : ctx.fuel ≤ other.fuel)
    (alongside : Alongside parallel limit before kernel plain)
    (written : Machine.write head.var (.int i) kernel = .ok () entered)
    (ran : execBlock ctx body entered = .ok flow after)
    (bounded : (chunkSplit parallel before).Bounded after) :
    ∃ plainEntered plainAfter, Machine.write head.var (.int i) plain = .ok () plainEntered ∧
      execBlock other body plainEntered = .ok flow plainAfter ∧
        Alongside parallel limit before after plainAfter := by
  obtain ⟨middle, agrees, linked⟩ := alongside
  obtain ⟨_, flows⟩ := outlined.flows
  have same : ctx.fuel ≤ ({ other with fuel := ctx.fuel } : Context).fuel := Nat.le_refl _
  -- the kernel against the machine in the middle: the private locals do not matter
  have alike : Follows (Agrees (fun id => Shares parallel id ∨ id = head.var)
        ((kernelDistances parallel).map (·.1)) limit [])
      (Settles (fun id => Shares parallel id ∨ id = head.var) _ limit {} _)
      (execBlock ctx body) (execBlock { other with fuel := ctx.fuel } body) :=
    Agrees.execBlock same (fun id tracked => .inl (mem_kernelDistances tracked)) rfl body
      outlined.confined flows
  obtain ⟨middleEntered, middleWritten, agrees⟩ :=
    (Agrees.write outlined.declared (.int i)).run agrees written
  obtain ⟨middleAfter, middleRan, settles⟩ :=
    alike.run (agrees.recast fun id known => by simpa using known) ran
  -- the machine in the middle against the plain one: only the accumulator differs
  have apart : ¬ (chunkSplit parallel before).Accumulates head.var :=
    fun ⟨reduction, member, same⟩ =>
      outlined.acc_ne_var (by simpa [chunkSplit] using member) same
  have enough : ({ other with fuel := ctx.fuel } : Context).fuel ≤ other.fuel := granted
  have mirrors : (chunkSplit parallel before).Mirrors
      (Machine.write head.var (.int i) >>= fun _ => execBlock { other with fuel := ctx.fuel } body)
      (Machine.write head.var (.int i) >>= fun _ => execBlock other body) :=
    (Split.Mirrors.write apart _).bind fun _ => outlined.mirrors enough _ _
  have bounded : (chunkSplit parallel before).Bounded middleAfter := by
    unfold Split.Bounded Machine.distance at bounded ⊢
    rwa [← settles.still.distances]
  obtain ⟨plainAfter, plainRan, last⟩ := mirrors.follows linked
    ((Step.bind_of_ok middleWritten).trans middleRan) bounded
  obtain ⟨_, plainEntered, plainWritten, plainRan⟩ := Step.bind_eq_ok.1 plainRan
  exact ⟨plainEntered, plainAfter, plainWritten, plainRan, middleAfter,
    settles.still.recast fun id known => .inl (.inl (by simpa using known)), last⟩

theorem Outlined.growing (chunk : ForHead) (same : chunk.var = head.var) (stop : Int64)
    (fuel : Nat) (i : Int64) :
    Footprint.growing.Keeps (countFrom chunk stop 1 (execBlock ctx body) fuel i) := by
  have mirrors := outlined.mirrors (Nat.le_refl ctx.fuel) (fun _ => 0) []
  have apart : ¬ Split.Accumulates ⟨parallel.reduction.toList, fun _ => 0, []⟩ chunk.var := by
    rw [same]
    exact fun ⟨reduction, member, equal⟩ => outlined.acc_ne_var (by simpa using member) equal
  exact Split.Mirrors.grows ((Split.mirroring_counts apart).countFrom mirrors stop 1 (.inl rfl) i)

/-- A kernel that ends well on its chunk has done what as many iterations of the plain loop do. -/
theorem Outlined.chunk_follows (granted : ctx.fuel ≤ other.fuel) {chunk : ForHead}
    (same : chunk.var = head.var) (range : chunk.bound = .range)
    (visited : chunk.exitValue = false) {stop hi : Int64} (high : hi.toInt ≤ stop.toInt)
    {fuel : Nat} {i : Int64} (low : i.toInt ≤ hi.toInt)
    (alongside : Alongside parallel limit before kernel plain)
    (ran : countFrom chunk hi 1 (execBlock ctx body) fuel i kernel = .ok .next after)
    (bounded : (chunkSplit parallel before).Bounded after) :
    ∃ plainAfter, Advances head stop (execBlock other body) (hi.toInt - i.toInt).toNat i plain hi
        plainAfter ∧ Alongside parallel limit before after plainAfter ∧
      Through body head i hi plain plainAfter := by
  induction fuel generalizing i kernel plain with
  | zero => simp [countFrom, Step.exhausted] at ran
  | succ fuel ih =>
    rw [countFrom_succ] at ran
    split at ran
    · rename_i below
      have below : i.toInt < hi.toInt := by
        simpa [boundHolds, range, Int64.lt_iff_toInt_lt] using below
      obtain ⟨_, entered, written, inside⟩ := Step.bind_eq_ok.1 ran
      obtain ⟨flow, between, iterated, rest⟩ := Step.bind_eq_ok.1 inside
      have written : Machine.write head.var (.int i) kernel = .ok () entered := by
        simpa [setCount, visited, same] using written
      obtain ⟨_, (stays : Yields _ (execBlock ctx body))⟩ :=
        stays_of_unobstructed outlined.accepted.unobstructed
      have next : nextCount chunk 1 i between = .ok (some (i + 1)) between := by
        simp [nextCount, visited, addOverflows_one hi below]
      have continues : flow = .next ∨ flow = .skip := by
        cases stays.value iterated with
        | next => exact .inl rfl
        | skip => exact .inr rfl
        | exit => cases (Step.pure_eq_ok.1 rest).1
      have looped : countFrom chunk hi 1 (execBlock ctx body) fuel (i + 1) between =
          .ok .next after := by
        obtain rfl | rfl := continues
        all_goals exact (Step.bind_of_ok next).symm.trans rest
      have grown := (outlined.growing chunk same hi fuel (i + 1)).after looped
      obtain ⟨plainEntered, plainBetween, plainWritten, plainIterated, alongside⟩ :=
        outlined.iterate granted alongside written iterated (bounded.of_grown grown)
      have succ := toInt_succ hi below
      obtain ⟨plainAfter, advances, alongside, through⟩ := ih (by omega) alongside looped
      have once := advances_one outlined.accepted.bound_eq outlined.accepted.exitValue_eq
        (show i.toInt < stop.toInt by omega) plainWritten plainIterated
        (continues.elim (· ▸ .next) (· ▸ .skip))
      have inner : (Footprint.outside (Stmt.writtenLocals body)).Keeps (execBlock other body) :=
        outside_execBlock outlined.accepted.unobstructed
      have kept := inner.after plainIterated
      obtain ⟨fits, rfl⟩ := Machine.write_eq_ok.1 plainWritten
      refine ⟨plainAfter, ?_, alongside, ?_, fun _ => ?_, fun reached => absurd below (by omega)⟩
      · rw [show (hi.toInt - i.toInt).toNat = 1 + (hi.toInt - (i + 1).toInt).toNat by omega]
        exact once.trans advances
      · refine (Footprint.outside _).trans ?_ through.untouched
        refine ⟨kept.1.trans (by simp), fun id apart => ?_⟩
        rw [List.mem_cons, not_or] at apart
        rw [kept.2 id apart.2]
        exact Array.getElem?_setIfInBounds_ne (Ne.symm apart.1)
      · by_cases last : (i + 1).toInt < hi.toInt
        · exact through.counter last
        · obtain rfl := through.empty (by omega)
          obtain rfl : i + 1 = hi := Int64.toInt_inj.1 (by omega)
          rw [kept.2 _ outlined.accepted.counter, Int64.add_sub_cancel]
          exact Array.getElem?_setIfInBounds_self_of_lt fits
    · rename_i reached
      obtain ⟨_, rfl⟩ := Step.pure_eq_ok.1 ran
      have reached : ¬ i.toInt < hi.toInt := by
        simpa [boundHolds, range, Int64.lt_iff_toInt_lt] using reached
      obtain rfl : i = hi := Int64.toInt_inj.1 (by omega)
      refine ⟨plain, ?_, alongside, (Footprint.outside _).refl plain, fun below => absurd below reached,
        fun _ => rfl⟩
      rw [Int.sub_self]
      exact Advances.refl

end Chunk

section Fold

variable {reduction : Reduction} {before part next : Int64} {distance : UInt64}

/-- A part that is folded is exact, and no prefix of its sum has left the integers. -/
theorem foldChunk?_eq_some {result : ChunkResult} (word : reduction.op ≠ .mul)
    (folded : foldChunk? reduction (.int before) result = some (.int next)) :
    (∃ part, result.part = some (.int part) ∧
      next.toInt = reduction.op.join before.toInt part.toInt) ∧
      (needsDistance reduction = true → before.toInt.natAbs + result.distance.toNat < 2 ^ 63) := by
  obtain ⟨part, distance⟩ := result
  match part with
  | some (.int y) =>
    simp only [foldChunk?] at folded
    split at folded
    · cases folded
    · rename_i inRange
      obtain ⟨value, joined, equal⟩ := Option.map_eq_some_iff.1 folded
      cases equal
      refine ⟨⟨y, rfl, ?_⟩, fun sum => ?_⟩
      · obtain ⟨acc, op, type⟩ := reduction
        cases op with
        | add | sub =>
          simp only [ReductionOp.foldWord?, Word.add?, Word.fit?_eq_some_iff] at joined
          exact joined
        | mul => exact absurd rfl word
        | min | max =>
          simp only [ReductionOp.foldWord?, Option.some.injEq] at joined
          subst joined
          simp only [Int64.lt_iff_toInt_lt, ReductionOp.join]
          split <;> omega
      · have bounded : Chunk.sumBounded before distance = true := by simpa [sum] using inRange
        simp only [Chunk.sumBounded, decide_eq_true_eq, toNat_magnitude] at bounded
        have most : Int64.maxValue.toInt.toNat = 2 ^ 63 - 1 := by decide
        dsimp only
        omega

end Fold

section RunChunk

variable {outer : Array Slot} {lo hi : Int64}

/-- The plain machine before a chunk: it holds what the kernel takes over. -/
structure Ready (parallel : ParallelHead) (limit : Nat) (outer : Array Slot) (shared : Shared)
    (before : Int64) (plain : Machine) : Prop where
  room : limit ≤ plain.slots.size
  taken : ∀ id ∈ parallel.captures ++ parallel.arrays,
    plain.slots[id]? = some (outer.getD id default)
  shared : plain.shared = shared
  untracked : plain.distances = []
  holds : ∀ reduction ∈ parallel.reduction,
    plain.slots[reduction.acc]? = some (.scalar (.int before))

theorem mem_keys_of_lookup {entries : List (LocalId × UInt64)} {id : LocalId}
    (found : (entries.lookup id).isSome) : id ∈ entries.map (·.1) := by
  induction entries with
  | nil => cases found
  | cons entry rest ih =>
    rw [List.lookup_cons] at found
    split at found
    · rename_i same
      simp [beq_iff_eq.1 same]
    · exact .tail _ (ih found)

@[simp]
theorem size_setInts (reductions : List Reduction) (values : LocalId → Int64) (machine : Machine) :
    (machine.setInts reductions values).slots.size = machine.slots.size := by
  induction reductions generalizing machine with
  | nil => rfl
  | cons first rest ih => rw [setInts_cons, ih, Array.size_setIfInBounds]

def chunkHead (parallel : ParallelHead) : ForHead :=
  ⟨parallel.var, .var parallel.chunkLo .int, .var parallel.chunkHi .int, .int 1, .range, false,
    parallel.span⟩

theorem exec_chunk (atLo : machine.slots[parallel.chunkLo]? = some (.scalar (.int lo)))
    (atHi : machine.slots[parallel.chunkHi]? = some (.scalar (.int hi))) :
    exec ctx (.forLoop (chunkHead parallel) body) machine =
      countFrom (chunkHead parallel) hi 1 (execBlock ctx body) ctx.fuel lo machine := by
  have first : evalInt ctx.call (.var parallel.chunkLo .int) machine = .ok lo machine := by
    rw [evalInt_eq_ok]
    exact Machine.read_eq_ok.2 ⟨atLo, rfl⟩
  have second : evalInt ctx.call (.var parallel.chunkHi .int) machine = .ok hi machine := by
    rw [evalInt_eq_ok]
    exact Machine.read_eq_ok.2 ⟨atHi, rfl⟩
  rw [exec, chunkHead, Step.bind_of_ok first, Step.bind_of_ok second]
  rfl

variable (outlined : Outlined routine limit head body privates parallel)
include outlined

theorem Outlined.alongside_start (declared : limit ≤ lowered.locals.length)
    (ready : Ready parallel limit outer shared before plain) :
    Alongside parallel limit before
      ⟨kernelSlots lowered parallel outer lo hi, kernelDistances parallel, shared⟩ plain := by
  have apart {id : LocalId} (member : id ∈ parallel.captures ++ parallel.arrays)
      (reduction : Reduction) (isReduction : reduction ∈ parallel.reduction) : reduction.acc ≠ id :=
    fun same => (outlined.taken id member).2.1 (same ▸ outlined.acc_written isReduction)
  have accInside {reduction : Reduction} (member : reduction ∈ parallel.reduction) :
      reduction.acc < limit := outlined.written_lt (outlined.acc_written member)
  have holds : Holds parallel.reduction.toList (identityAt parallel.reduction.toList)
      (plain.setInts parallel.reduction.toList (identityAt parallel.reduction.toList)) :=
    holds_setInts fun reduction member =>
      Nat.lt_of_lt_of_le (accInside (by simpa using member)) ready.room
  refine ⟨⟨(plain.setInts parallel.reduction.toList (identityAt parallel.reduction.toList)).slots,
    kernelDistances parallel, shared⟩, ⟨?_, ?_, fun _ => mem_keys_of_lookup, rfl, rfl⟩, ?_⟩
  · intro id known
    obtain member | ⟨reduction, member, rfl⟩ := known.resolve_right (List.not_mem_nil)
    · have inside := (outlined.taken id member).1
      have notLo : parallel.chunkLo ≠ id := Nat.ne_of_gt (Nat.lt_of_lt_of_le inside outlined.lo)
      have notHi : parallel.chunkHi ≠ id :=
        Nat.ne_of_gt (Nat.lt_trans (Nat.lt_of_lt_of_le inside outlined.lo) outlined.hi)
      rw [kernelSlots_taken member (Nat.lt_of_lt_of_le inside declared) (apart member) notLo notHi,
        slots_setInts_of_apart fun reduction listed => apart member reduction (by simpa using listed)]
      exact (ready.taken id member).symm
    · have inside := accInside member
      have listed : reduction ∈ parallel.reduction.toList := by simpa using member
      rw [kernelSlots_acc member (Nat.lt_of_lt_of_le inside declared), holds reduction listed,
        outlined.words reduction member, reduction.op.identity_int, identityAt_acc outlined.distinct listed]
  · rw [size_setInts]
    exact ready.room
  · refine ⟨fun id away => ?_, ready.shared.symm, ready.untracked, fun reduction member sum => ?_,
      fun reduction member => ?_⟩
    · exact slots_setInts_of_apart fun reduction listed same => away ⟨reduction, listed, same⟩
    · have same : parallel.reduction = some reduction := by simpa [chunkSplit] using member
      simp [kernelDistances, same, sum]
    · have isReduction : reduction ∈ parallel.reduction := by simpa [chunkSplit] using member
      refine ⟨_, before, holds reduction member, ready.holds reduction isReduction, ?_, fun _ => ?_⟩
      · rw [identityAt_acc outlined.distinct member]
        change before.toInt = reduction.op.join _ before.toInt
        rw [reduction.op.join_comm, reduction.op.join_identity]
      · simp [chunkSplit]

theorem Outlined.exec_kernel (declared : parallel.chunkHi < lowered.locals.length) (shared : Shared) :
    exec ctx (.forLoop (chunkHead parallel) body)
        ⟨kernelSlots lowered parallel outer lo hi, kernelDistances parallel, shared⟩ =
      countFrom (chunkHead parallel) hi 1 (execBlock ctx body) ctx.fuel lo
        ⟨kernelSlots lowered parallel outer lo hi, kernelDistances parallel, shared⟩ := by
  have accOther {reduction : Reduction} (member : reduction ∈ parallel.reduction) {id : LocalId}
      (beyond : limit ≤ id) : reduction.acc ≠ id :=
    Nat.ne_of_lt (Nat.lt_of_lt_of_le (outlined.written_lt (outlined.acc_written member)) beyond)
  refine exec_chunk (kernelSlots_lo (Nat.lt_trans outlined.hi declared)
    (fun reduction member => accOther member outlined.lo) (Nat.ne_of_gt outlined.hi))
    (kernelSlots_hi declared fun reduction member => accOther member ?_)
  exact Nat.le_trans outlined.lo (Nat.le_of_lt outlined.hi)

/-- A chunk takes the plain loop from its lower end to its upper one, where the accumulator holds
what the part of the chunk folds into it. -/
theorem Outlined.runChunk_follows (declared : parallel.chunkHi < lowered.locals.length)
    (granted : ctx.fuel ≤ other.fuel) (low : lo.toInt < hi.toInt) (high : hi.toInt ≤ stop.toInt)
    {after : Shared} (ready : Ready parallel limit outer shared before plain) {result : ChunkResult}
    {next : Int64}
    (ran : runChunk lowered parallel (exec ctx (.forLoop (chunkHead parallel) body)) outer lo hi
      shared = .ok result after)
    (joins : ∀ reduction ∈ parallel.reduction, foldChunk? reduction (.int before) result = some
      (.int next)) :
    ∃ plainAfter, Advances head stop (execBlock other body) (hi.toInt - lo.toInt).toNat lo plain hi
        plainAfter ∧ Through body head lo hi plain plainAfter ∧
      Ready parallel limit outer after next plainAfter := by
  have fits : limit ≤ lowered.locals.length :=
    Nat.le_trans outlined.lo (Nat.le_of_lt (Nat.lt_trans outlined.hi declared))
  obtain ⟨ended, looped, rfl, found⟩ := runChunk_eq_ok ran
  rw [outlined.exec_kernel declared] at looped
  have folded {reduction : Reduction} (member : reduction ∈ parallel.reduction) :=
    foldChunk?_eq_some (outlined.accepted.op_ne_mul (by simpa using member)
      (outlined.words reduction member)) (joins reduction member)
  have sameVar : (chunkHead parallel).var = head.var := outlined.counter
  have grown := (outlined.growing _ sameVar hi ctx.fuel lo).after looped
  have bounded : (chunkSplit parallel before).Bounded ended := by
    intro reduction member sum
    have isReduction : parallel.reduction = some reduction := by simpa [chunkSplit] using member
    obtain ⟨part, _, _, moved⟩ := found reduction isReduction
    have inRange := (folded isReduction).2 sum
    have keys : [reduction.acc] = ended.distances.map (·.1) := by
      simpa [kernelDistances, isReduction, sum] using grown.1
    obtain ⟨entry, only, same⟩ := List.map_eq_singleton_iff.1 keys.symm
    rw [only] at moved
    rw [Machine.distance, only, List.lookup_cons, same, beq_self_eq_true]
    rw [moved] at inRange
    exact inRange
  obtain ⟨plainAfter, advances, ⟨middle, agrees, linked⟩, through⟩ :=
    outlined.chunk_follows granted sameVar rfl rfl high (Int.le_of_lt low)
      (outlined.alongside_start fits ready) looped bounded
  refine ⟨plainAfter, advances, through, ?_, ?_, ?_, linked.untracked, ?_⟩
  · rw [through.untouched.1]
    exact ready.room
  · intro id member
    obtain ⟨_, unwritten, apart⟩ := outlined.taken id member
    rw [through.untouched.2 id (by simp [unwritten, apart]), ready.taken id member]
  · exact (agrees.shared.trans linked.shared).symm
  · intro reduction member
    obtain ⟨held, whole, middleHeld, plainHeld, balanced⟩ :=
      linked.balanced reduction (by simpa [chunkSplit] using member)
    obtain ⟨part, kernelHeld, returned, _⟩ := found reduction member
    obtain ⟨⟨folding, equal, exact⟩, _⟩ := folded member
    rw [agrees.locals _ (.inl (.inr ⟨reduction, member, rfl⟩)), middleHeld] at kernelHeld
    cases kernelHeld
    cases returned.symm.trans equal
    rw [plainHeld]
    have total : whole.toInt = reduction.op.join held.toInt before.toInt := balanced.total
    rw [reduction.op.join_comm, ← exact] at total
    rw [Int64.toInt_inj.1 total]

end RunChunk
end TwoTier.Native
