import Mathlib
import TwoTier.Proofs.Lanes.Acceptance
import TwoTier.Proofs.Lanes.Folding
import TwoTier.Proofs.Lanes.Groups

namespace TwoTier.Native

open Typed (ForHead LocalId Routine Stmt VectorHead)

/-- The accumulators of a loop over lanes: each is listed once and is a word that splits. -/
structure Splits (reductions : List Reduction) : Prop where
  once : (reductions.map (·.acc)).Nodup
  distinct : ∀ first ∈ reductions, ∀ second ∈ reductions, first.acc = second.acc → first = second
  words : ∀ reduction ∈ reductions, reduction.type = .int
  sums : ∀ reduction ∈ reductions, reduction.op ≠ .mul

def sumsOf (vector : VectorHead) : List Reduction := vector.reductions.filter (needsDistance ·)

section Phase

variable {head : ForHead} {vector : VectorHead} {body plainBody : Step Machine Flow}
  {machine after : Machine} {start stop : Int64} {lanes : Nat}

theorem newlyTracked_eq (form : vector.form = .lanes lanes) (untracked : machine.distances = [])
    (holds : Holds vector.reductions machine.intAt machine) :
    newlyTracked vector machine =
      .ok ((sumsOf vector).map fun sum => (sum.acc, machine.intAt sum.acc)) machine := by
  have sums : untrackedSums vector machine = sumsOf vector := by
    simp [untrackedSums, form, untracked, sumsOf]
  have listed : (fun state => .ok (untrackedSums vector state) state : Step Machine _) machine =
      .ok (sumsOf vector) machine := congrArg (Outcome.ok · machine) sums
  refine (Step.bind_of_ok listed).trans (Step.mapM_of_ok fun sum member => ?_)
  have found : Machine.readInt sum.acc machine = .ok (machine.intAt sum.acc) machine :=
    Machine.readInt_eq_ok.2 ⟨holds sum (List.mem_filter.1 member).1, rfl⟩
  rw [Step.bind_of_ok found]
  rfl

theorem lookup_isSome {sums : List Reduction} (member : reduction ∈ sums) :
    ((sums.map fun sum => (sum.acc, (0 : UInt64))).lookup reduction.acc).isSome := by
  induction sums with
  | nil => cases member
  | cons first rest ih =>
    rw [List.map_cons, List.lookup_cons]
    split
    · rfl
    · rename_i other
      refine ih ((List.mem_cons.1 member).resolve_left fun same => ?_)
      simp [same] at other

/-- At the start all lanes hold identities, and no sum has moved. -/
theorem linked_start (splits : Splits vector.reductions) (untracked : machine.distances = [])
    (holds : Holds vector.reductions machine.intAt machine) :
    Split.Linked ⟨vector.reductions, machine.intAt,
        List.replicate lanes (identityAt vector.reductions)⟩
      { machine with distances := (sumsOf vector).map fun sum => (sum.acc, 0) } machine where
  elsewhere _ _ := rfl
  shared := rfl
  untracked := untracked
  tracked reduction member sum := lookup_isSome (List.mem_filter.2 ⟨member, sum⟩)
  balanced reduction member := by
    refine ⟨_, _, holds reduction member, holds reduction member, ?_, fun _ => ?_⟩
    · rw [List.map_replicate, identityAt_acc splits.distinct member,
        ReductionOp.total_identity]
    · simp

theorem bounded_of_checkDistances {tracked checked : Machine} {result : Unit}
    (ran : checkDistances ((sumsOf vector).map fun sum => (sum.acc, base sum.acc)) (((sumsOf
      vector).map (·.acc)).map fun id => (tracked.distances.lookup id).getD 0) machine = .ok result
      checked) : Split.Bounded ⟨vector.reductions, base, []⟩ tracked ∧ checked = machine := by
  unfold checkDistances at ran
  split at ran
  · rename_i inRange
    obtain ⟨_, rfl⟩ := Step.pure_eq_ok.1 ran
    refine ⟨fun reduction member sum => ?_, rfl⟩
    rw [List.map_map, List.zip_map', List.all_map, List.all_eq_true] at inRange
    exact (staysInRange_iff _ _).1 (inRange reduction (List.mem_filter.2 ⟨member, sum⟩))
  · simp at ran

/-- The full groups with the fold after them do what as many iterations of the plain loop do. -/
theorem vectorPhase_follows (twins : LoopTwins head vector machine.intAt body plainBody)
    (splits : Splits vector.reductions) (form : vector.form = .lanes (lanes + 1))
    (word : lanes + 1 < 2 ^ 63) (untracked : machine.distances = [])
    (holds : Holds vector.reductions machine.intAt machine) (nonneg : 0 ≤ start.toInt)
    (ran : vectorPhase vector (lanesStep vector body) start stop fuel machine = .ok ended after) :
    ∃ j partials count, ended = .done j partials ∧ j.toInt = start.toInt + (count : Nat) ∧
      Advances head stop plainBody count start machine j after ∧ after.distances = [] := by
  unfold vectorPhase at ran
  rw [Step.bind_of_ok (newlyTracked_eq form untracked holds)] at ran
  obtain ⟨_, tracked, tracking, grouping⟩ := Step.bind_eq_ok.1 ran
  obtain ⟨groups, grouped, looped, rest⟩ := Step.bind_eq_ok.1 grouping
  obtain ⟨totals, freed, freeing, checking⟩ := Step.bind_eq_ok.1 rest
  obtain ⟨next, partials, rfl⟩ := (twins.yields_groupsFrom _ _ _).value looped
  obtain ⟨_, checked, inRange, folding⟩ := Step.bind_eq_ok.1 checking
  obtain ⟨_, folded, folds, ending⟩ := Step.bind_eq_ok.1 folding
  obtain ⟨rfl, rfl⟩ := Step.pure_eq_ok.1 ending
  have ids : (((sumsOf vector).map fun sum => (sum.acc, machine.intAt sum.acc)).map (·.1)) =
      (sumsOf vector).map (·.acc) := by simp
  rw [ids] at tracking freeing
  cases tracking
  cases freeing
  obtain ⟨bounded, rfl⟩ := bounded_of_checkDistances inRange
  have linked : Split.Linked ⟨vector.reductions, machine.intAt,
      List.replicate lanes (identityAt vector.reductions)⟩ _ machine :=
    linked_start splits untracked holds
  have start : startPartials vector =
      (List.replicate lanes (identityAt vector.reductions)).map (laneOf vector.reductions) := by
    simp [startPartials, form, identities_eq splits.distinct splits.words]
  have wide : (Int64.ofNat (groupWidth vector.form)).toInt =
      (List.replicate lanes (identityAt vector.reductions)).length + 1 := by
    rw [form, List.length_replicate, groupWidth, Int64.toInt_ofNat_of_lt word]
    rfl
  have tracks : (((sumsOf vector).map (·.acc)).map (·, (0 : UInt64))) ++ machine.distances =
      (sumsOf vector).map fun sum => (sum.acc, 0) := by simp [untracked]
  rw [start, tracks] at looped
  obtain ⟨j, last, plainAfter, count, same, reached, advanced, ended⟩ :=
    twins.groupsFrom_follows wide nonneg linked looped bounded
  cases same
  obtain ⟨wholes, distances⟩ := (ended.joined _).foldLanes splits.once splits.sums folds
  have emptied : folded.distances = [] := by
    have keys := congrArg List.length ((twins.growing_groupsFrom _ _ _).after looped).1
    rw [distances, List.drop_eq_nil_iff]
    simp only [List.length_map] at keys ⊢
    omega
  obtain rfl := wholes.eq (emptied.trans ended.untracked.symm)
  exact ⟨next, _, count, rfl, reached, advanced, emptied⟩

end Phase

theorem Split.Mirrors.same {α : Type} {base : LocalId → Int64} {step other : Step Machine α}
    {machine after : Machine} {value : α} (mirrors : Split.Mirrors ⟨[], base, []⟩ step other)
    (untracked : machine.distances = []) (ran : step machine = .ok value after) :
    other machine = .ok value after ∧ after.distances = [] := by
  have linked : Split.Linked ⟨[], base, []⟩ machine machine :=
    ⟨fun _ _ => rfl, rfl, untracked, by simp, by simp⟩
  have emptied : after.distances = [] := by
    have keys := (mirrors.grows.after ran).1
    rw [untracked] at keys
    exact List.map_eq_nil_iff.1 keys.symm
  obtain ⟨plainAfter, plainRan, last⟩ := mirrors.follows linked ran (by simp [Split.Bounded])
  obtain rfl : after = plainAfter :=
    (last.joined after.distances).eq (emptied.trans last.untracked.symm)
  exact ⟨plainRan, last.untracked⟩

theorem countFrom_of_unitFrom {body : Step Machine Flow} {after : Machine}
    (range : head.bound = .range) (visited : head.exitValue = false)
    (stays : Yields (Stays []) body) (mirrors : Split.Mirrors ⟨[], base, []⟩ body plainBody)
    (untracked : machine.distances = []) (granted : fuel ≤ more)
    (ran : unitFrom head.var stop body fuel i machine = .ok flow after) :
    flow = .next ∧ countFrom head stop 1 plainBody more i machine = .ok .next after := by
  induction fuel generalizing i machine more with
  | zero => simp [unitFrom, Step.exhausted] at ran
  | succ fuel ih =>
    obtain ⟨more, rfl⟩ := Nat.exists_eq_add_of_lt granted
    rw [unitFrom_succ] at ran
    split at ran
    · rename_i below
      rw [Int64.lt_iff_toInt_lt] at below
      obtain ⟨_, entered, written, inside⟩ := Step.bind_eq_ok.1 ran
      obtain ⟨ended, between, iterated, rest⟩ := Step.bind_eq_ok.1 inside
      have kept := stays.value iterated
      have still : entered.distances = [] := by
        obtain ⟨_, rfl⟩ := Machine.write_eq_ok.1 written
        exact untracked
      obtain ⟨plainIterated, emptied⟩ := mirrors.same still iterated
      have advanced := advances_one range visited below written plainIterated kept (fuel + more)
      rw [advanced]
      refine ih emptied (by omega) ?_
      cases kept with
      | next | skip => exact rest
      | exit absent => cases absent
    · rename_i reached
      obtain ⟨rfl, rfl⟩ := Step.pure_eq_ok.1 ran
      have fails : boundHolds head.bound 1 i stop = false := by
        simpa [boundHolds, range] using reached
      rw [countFrom_succ, fails]
      exact ⟨rfl, rfl⟩

def lanesHead (head : ForHead) (use : Passes.LoopUse) (lanes : Nat) : VectorHead :=
  ⟨head.var, head.start, head.stop, use.reductions, .lanes lanes, [], head.span⟩

/-- The statement comes to this end, given enough iterations for its loops. -/
def Finishes (ctx : Context) (stmt : Stmt) (machine : Machine) (flow : Flow) (after : Machine) :
    Prop :=
  ∃ granted, ∀ fuel ≥ granted, exec { ctx with fuel } stmt machine = .ok flow after

section Loop

variable {ctx : Context} {routine : Routine} {head : ForHead} {body : List Stmt}
  {use : Passes.LoopUse} {machine after : Machine} {flow : Flow} {lanes : Nat}

/-- A loop by lanes that ends well does what the plain loop does: whole groups first, then the fold
of the lanes, then the rest one by one. -/
theorem vectorLoop_follows (accepted : Passes.Accepted routine head body use.reductions)
    (within : Stmt.blockExitsWithin [] body = true)
    (integers : ∀ reduction ∈ use.reductions, reduction.type = .int) (several : 2 ≤ lanes)
    (word : lanes < 2 ^ 63) (holds : Holds use.reductions machine.intAt machine)
    (untracked : machine.distances = []) {start : Int64} (granted : ctx.fuel + 2 ^ 63 ≤ more)
    (ran : vectorLoop (lanesHead head use lanes) (lanesStep (lanesHead head use lanes) (execBlock
      ctx body)) (execBlock ctx body) start stop ctx.fuel machine = .ok flow after) :
    flow = .next ∧
      countFrom head stop 1 (execBlock { ctx with fuel := more } body) more start machine =
        .ok .next after := by
  have lessFuel : ctx.fuel ≤ more := by omega
  have stays : Yields (Stays []) (execBlock ctx body) :=
    yields_execBlock body accepted.unobstructed within
  have alone : Split.Mirrors ⟨[], machine.intAt, []⟩ (execBlock ctx body)
      (execBlock { ctx with fuel := more } body) :=
    .execBlock lessFuel (fun _ absent => by cases absent) (fun _ absent => by cases absent)
      (accepted.withoutReductions.regular fun _ absent => by cases absent)
  unfold vectorLoop at ran
  split at ran
  · exact countFrom_of_unitFrom accepted.bound_eq accepted.exitValue_eq stays alone untracked
      lessFuel ran
  · rename_i nonneg
    have twins : LoopTwins head (lanesHead head use lanes) machine.intAt (execBlock ctx body)
        (execBlock { ctx with fuel := more } body) := {
      counter := rfl
      range := accepted.bound_eq
      visited := accepted.exitValue_eq
      apart := fun reduction member same =>
        accepted.counter (same ▸ accepted.written reduction member)
      stays
      mirrors := fun others =>
        .execBlock lessFuel (fun _ first _ second => accepted.distinct first second) integers
          (accepted.regular integers) }
    have splits : Splits use.reductions := {
      once := accepted.once
      distinct := fun _ first _ second => accepted.distinct first second
      words := integers
      sums := fun reduction member => accepted.op_ne_mul member (integers reduction member) }
    obtain ⟨lanes, rfl⟩ : ∃ others, lanes = others + 1 := ⟨lanes - 1, by omega⟩
    obtain ⟨ended, between, phase, rest⟩ := Step.bind_eq_ok.1 ran
    rw [Int64.lt_iff_toInt_lt, Int64.toInt_zero] at nonneg
    obtain ⟨j, partials, count, rfl, reached, advanced, emptied⟩ :=
      vectorPhase_follows twins splits rfl word untracked holds (by omega) phase
    have high := j.toInt_lt
    obtain ⟨left, rfl⟩ : ∃ left, more = left + count := ⟨more - count, by omega⟩
    rw [advanced left]
    exact countFrom_of_unitFrom accepted.bound_eq accepted.exitValue_eq stays alone emptied
      (by omega) rest

/-- A loop over lanes that ends well has done what the plain loop does. Its accumulators are integer
reductions, no exit of its body leaves it, and no loop over lanes is under way around it. -/
theorem forLoop_of_vector {reads : List LocalId}
    (accepted : Passes.loopUse routine head body .vector reads = .ok use)
    (within : Stmt.blockExitsWithin [] body = true)
    (integers : ∀ reduction ∈ use.reductions, reduction.type = .int) (several : 2 ≤ lanes)
    (word : lanes < 2 ^ 63)
    (typed : ∀ reduction ∈ use.reductions, ∃ value,
      machine.slots[reduction.acc]? = some (.scalar value) ∧ value.type = reduction.type)
    (untracked : machine.distances = [])
    (ran : exec ctx (.vector (lanesHead head use lanes) body) machine = .ok flow after) :
    flow = .next ∧ Finishes ctx (.forLoop head body) machine .next after := by
  have accepted := Passes.accepted_of_loopUse accepted
  rw [exec] at ran
  obtain ⟨start, between, started, rest⟩ := Step.bind_eq_ok.1 ran
  obtain ⟨stop, entered, stopped, looped⟩ := Step.bind_eq_ok.1 rest
  obtain ⟨slots, distances⟩ := Footprint.locals.trans
    ((Footprint.locals_evalInt ctx.call head.start).after started)
    ((Footprint.locals_evalInt ctx.call head.stop).after stopped)
  have holds : Holds use.reductions entered.intAt entered := by
    intro reduction member
    obtain ⟨value, held, word⟩ := typed reduction member
    rw [integers reduction member] at word
    cases value with
    | int value => rw [Machine.intAt, slots, held]
    | float | bool => cases word
  have follows {more : Nat} (granted : ctx.fuel + 2 ^ 63 ≤ more) :=
    vectorLoop_follows accepted within integers several word holds (distances.trans untracked)
      granted looped
  refine ⟨(follows (Nat.le_refl _)).1, ctx.fuel + 2 ^ 63, fun fuel granted => ?_⟩
  have started : evalInt ctx.call head.start machine = .ok start between := started
  have stopped : evalInt ctx.call head.stop between = .ok stop entered := stopped
  have stepped : evalInt ctx.call head.step entered = .ok 1 entered := by
    rw [accepted.step_eq]
    rfl
  rw [exec, Step.bind_of_ok started, Step.bind_of_ok stopped, Step.bind_of_ok stepped]
  unfold countedLoop
  rw [if_neg (fun zero => absurd zero.2 (by decide)), accepted.exitValue_eq]
  exact (follows granted).2

end Loop

section Tally

/-- A loop over the five elements of the first local. -/
def tallyHead : ForHead := ⟨1, .int 0, .int 5, .int 1, .range, false, default⟩

/-- Keeps the last element, adds up all of them, finds the greatest above two and negates them. -/
def tallyBody : List Stmt :=
  [.assign 4 (.index 0 .int (.var 1 .int)),
   .assign 2 (.binary .add (.var 2 .int) (.var 4 .int)),
   .branch (.compare .gt (.var 4 .int) (.int 2))
     [.assign 3 (.extremum .max (.var 3 .int) (.var 4 .int))] [],
   .store 0 (.var 1 .int) (.unary .neg (.var 4 .int))]

def tallyRoutine : Routine :=
  { (default : Routine) with
    locals := [⟨"xs", .array .int, .param 0⟩, ⟨"i", .scalar .int, .user⟩,
      ⟨"total", .scalar .int, .user⟩, ⟨"best", .scalar .int, .user⟩,
      ⟨"last", .scalar .int, .user⟩] }

def tallyUse : Passes.LoopUse := ⟨[⟨2, .add, .int⟩, ⟨3, .max, .int⟩], [4], [], [0]⟩

def tallyContext : Context := ⟨tallyRoutine, fun _ _ => Step.stuck, 10, 1, 1⟩

def tallyMachine (locals elements : List Int64) : Machine where
  slots := (.array (some 0) :: locals.map fun value => .scalar (.int value)).toArray
  distances := []
  shared := ⟨#[(elements.map .int).toArray], 0⟩

/-- Two groups of two lanes and a rest of one iteration. -/
theorem forLoop_of_vector_tally :
    Finishes tallyContext (.forLoop tallyHead tallyBody)
      (tallyMachine [0, 10, 3, 0] [1, 7, 2, 5, 3]) .next
      (tallyMachine [4, 28, 7, 3] [-1, -7, -2, -5, -3]) := by
  have accepted :
      Passes.loopUse tallyRoutine tallyHead tallyBody .vector [] = .ok tallyUse := by cbv
  have ran :
      exec tallyContext (.vector (lanesHead tallyHead tallyUse 2) tallyBody)
          (tallyMachine [0, 10, 3, 0] [1, 7, 2, 5, 3]) =
        .ok .next (tallyMachine [4, 28, 7, 3] [-1, -7, -2, -5, -3]) := by cbv
  refine (forLoop_of_vector accepted (by decide) (by decide) (by decide) (by decide)
    (fun reduction member => ?_) rfl ran).2
  simp only [tallyUse, List.mem_cons, List.not_mem_nil, or_false] at member
  rcases member with rfl | rfl
  · exact ⟨_, rfl, rfl⟩
  · exact ⟨_, rfl, rfl⟩

end Tally
end TwoTier.Native
