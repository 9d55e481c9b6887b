import TwoTier.Native.Stmt
import TwoTier.Proofs.Instruction
import TwoTier.Proofs.Loop
import TwoTier.Proofs.Progression

/-! Counted loops visit exactly the integers of a progression, although the counter is a word. -/

namespace TwoTier

/-- The test of a loop on integers. -/
def Typed.LoopBound.Admits : Typed.LoopBound → (step i stop : Int) → Prop
  | .range, step, i, stop => Before step i stop
  | .lt, _, i, stop => i < stop
  | .le, _, i, stop => i ≤ stop
  | .gt, _, i, stop => stop < i
  | .ge, _, i, stop => stop ≤ i

/-- Steps that bring a counter nearer to the bound. -/
def Typed.LoopBound.Suits : Typed.LoopBound → (step : Int) → Prop
  | .range, step => step ≠ 0
  | .lt, step | .le, step => 0 < step
  | .gt, step | .ge, step => step < 0

/-- The first integer that fails the test, whichever step leads there. -/
def Typed.LoopBound.limit : Typed.LoopBound → (stop : Int) → Int
  | .le, stop => stop + 1
  | .ge, stop => stop - 1
  | .range, stop | .lt, stop | .gt, stop => stop

namespace Native

open Typed (ForHead LocalId LoopBound Stmt)

variable {bound : LoopBound} {step : Int}

theorem admits_iff (suits : bound.Suits step) (i stop : Int) :
    bound.Admits step i stop ↔ Before step i (bound.limit stop) := by
  cases bound <;> simp only [LoopBound.Suits, LoopBound.Admits, LoopBound.limit, Before] at *
    <;> split <;> omega

theorem ne_zero_of_suits (suits : bound.Suits step) : step ≠ 0 := by
  cases bound <;> simp only [LoopBound.Suits] at suits <;> omega

theorem boundHolds_iff (bound : LoopBound) (step i stop : Int64) :
    boundHolds bound step i stop = true ↔ bound.Admits step.toInt i.toInt stop.toInt := by
  cases bound <;> simp only [boundHolds, LoopBound.Admits, Before, gt_iff_lt, ge_iff_le,
    Int64.lt_iff_toInt_lt, Int64.le_iff_toInt_le, Int64.toInt_zero, decide_eq_true_eq]
  split <;> simp only [decide_eq_true_eq]

def Machine.setInt (machine : Machine) (id : LocalId) (i : Int64) : Machine :=
  { machine with slots := machine.slots.setIfInBounds id (.scalar (.int i)) }

/-- The body falls through from every machine of a kind. -/
structure FallsThrough (ready : Machine → Prop) (var : LocalId) (body : Step Machine Flow) :
    Prop where
  inside : ∀ {machine}, ready machine → var < machine.slots.size
  count : ∀ {machine}, ready machine → ∀ i, ready (machine.setInt var i)
  run : ∀ {machine}, ready machine → ∃ flow after, body machine = .ok flow after ∧
    (flow = .next ∨ flow = .skip) ∧ ready after

/-- The body leaves a local as it is. -/
def Leaves (ready : Machine → Prop) (var : LocalId) (body : Step Machine Flow) : Prop :=
  ∀ {machine flow after}, ready machine → body machine = .ok flow after →
    after.slots[var]? = machine.slots[var]?

/-- Runs of a body for one value of the counter after the other. -/
inductive Visits (var : LocalId) (body : Step Machine Flow) :
    List Int64 → Machine → Machine → Prop where
  | nil {machine : Machine} : Visits var body [] machine machine
  | cons {i : Int64} {rest : List Int64} {machine between after : Machine} {flow : Flow}
      (ran : body (machine.setInt var i) = .ok flow between) (on : flow = .next ∨ flow = .skip)
      (others : Visits var body rest between after) : Visits var body (i :: rest) machine after

/-- The machine at the head of a loop, where the counter itself may be the local. -/
def atHead (head : ForHead) (i : Int64) (machine : Machine) : Machine :=
  if head.exitValue then machine.setInt head.var i else machine

/-- How a loop ends whose first value past the bound is this integer. -/
def ending (head : ForHead) (past : Int) (machine : Machine) : Outcome Machine Flow :=
  if head.exitValue then
    match Word.fit? past with
    | some last => .ok .next (machine.setInt head.var last)
    | none => .deopt []
  else .ok .next machine

variable {ready : Machine → Prop} {head : ForHead} {body : Step Machine Flow} {machine : Machine}

theorem FallsThrough.exists_visits (through : FallsThrough ready var body) (values : List Int64)
    (starts : ready machine) : ∃ final, Visits var body values machine final := by
  induction values generalizing machine with
  | nil => exact ⟨machine, .nil⟩
  | cons i rest ih =>
    obtain ⟨flow, between, ran, on, still⟩ := through.run (through.count starts i)
    obtain ⟨final, others⟩ := ih still
    exact ⟨final, .cons ran on others⟩

/-- A body that leaves the counter alone leaves it at the last value visited. -/
theorem Visits.counter (through : FallsThrough ready var body) (leaves : Leaves ready var body)
    {values : List Int64}
    {final : Machine} (visits : Visits var body values machine final) (starts : ready machine) :
    final.slots[var]? =
      (values.getLast?.map fun i => some (Slot.scalar (.int i))).getD machine.slots[var]? := by
  induction visits with
  | nil => rfl
  | @cons i rest machine between after flow ran on others ih =>
    obtain ⟨flow', after', ran', -, still⟩ := through.run (through.count starts i)
    have kept := leaves (through.count starts i) ran
    cases ran.symm.trans ran'
    rw [ih still, kept, Machine.setInt, Array.getElem?_setIfInBounds_self_of_lt (through.inside starts)]
    cases rest with
    | nil => rfl
    | cons next rest => simp [List.getLast?_cons]

theorem write_int {id : LocalId} (inside : id < machine.slots.size) (i : Int64) :
    Machine.write id (.int i) machine = .ok () (machine.setInt id i) :=
  Machine.write_eq_ok.2 ⟨inside, rfl⟩

theorem setCount_atHead (inside : head.var < machine.slots.size) (i : Int64) :
    setCount head i (atHead head i machine) = .ok () (machine.setInt head.var i) := by
  unfold setCount atHead
  split
  · rfl
  · exact write_int inside i

/-- The next value of the counter is exact, and there is none where it is not a word. -/
theorem nextCount_eq (inside : head.var < machine.slots.size)
    (held : head.exitValue = true → machine.slots[head.var]? = some (.scalar (.int i)))
    (step : Int64) :
    nextCount head step i machine =
      match Word.add? i step with
      | some next => .ok (some next) (atHead head next machine)
      | none => if head.exitValue then .deopt [] else .ok none machine := by
  have summed := checkedAdd_eq i step
  unfold checkedAdd at summed
  rw [← summed]
  unfold nextCount atHead
  split
  · rename_i counts
    rw [Step.bind_of_ok (Machine.readInt_eq_ok.2 ⟨held counts, rfl⟩)]
    dsimp only
    split
    · rfl
    · exact Step.bind_of_ok (write_int inside _)
  · dsimp only
    split <;> rfl

theorem not_before_of_overflow {i step stop : Int64} (suits : bound.Suits step.toInt)
    (beyond : Word.add? i step = none) :
    ¬ Before step.toInt (i.toInt + step.toInt) (bound.limit stop.toInt) := by
  have iLow := i.le_toInt
  have iHigh := i.toInt_lt
  have stopLow := stop.le_toInt
  have stopHigh := stop.toInt_lt
  rw [Word.add?, Word.fit?_eq_none_iff] at beyond
  unfold Before
  cases bound <;> simp only [LoopBound.limit] at * <;> split <;> omega

theorem countFrom_eq {step : Int64} (suits : head.bound.Suits step.toInt)
    (through : FallsThrough ready head.var body)
    (leaves : head.exitValue = true → Leaves ready head.var body) {final : Machine}
    (starts : ready machine)
    (counted : extent i.toInt (head.bound.limit stop.toInt) step.toInt = count)
    (visits : Visits head.var body (progression i.toInt step.toInt count) machine final)
    (granted : count < fuel) :
    countFrom head stop step body fuel i (atHead head i machine) =
      ending head (i.toInt + count * step.toInt) final := by
  have moves := ne_zero_of_suits suits
  have test (i : Int64) := (boundHolds_iff head.bound step i stop).trans (admits_iff suits _ _)
  induction count generalizing i machine fuel with
  | zero =>
    obtain ⟨fuel, rfl⟩ := Nat.exists_eq_add_of_lt granted
    have held : Word.fit? i.toInt = some i := (Word.fit?_eq_some_iff _ _).2 rfl
    have fails : ¬ boundHolds head.bound step i stop = true := by
      intro holds
      have := extent_of_before moves ((test i).1 holds)
      omega
    cases visits
    rw [countFrom_succ, if_neg fails]
    simp only [Int.natCast_zero, Int.zero_mul, Int.add_zero, ending, atHead, held]
    split <;> rfl
  | succ count ih =>
    obtain ⟨fuel, rfl⟩ := Nat.exists_eq_add_of_lt granted
    have before : Before step.toInt i.toInt (head.bound.limit stop.toInt) := by
      by_contra past
      have := extent_of_not_before moves past
      omega
    have left : extent (i.toInt + step.toInt) (head.bound.limit stop.toInt) step.toInt = count := by
      have := extent_of_before moves before
      omega
    rw [progression_succ, Int64.ofInt_toInt] at visits
    obtain _ | ⟨ran, on, others⟩ := visits
    rename_i between flow
    have inside := through.inside starts
    have held (counts : head.exitValue = true) :
        between.slots[head.var]? = some (.scalar (.int i)) := by
      rw [leaves counts (through.count starts i) ran, Machine.setInt,
        Array.getElem?_setIfInBounds_self_of_lt inside]
    obtain ⟨_, _, ran', -, still⟩ := through.run (through.count starts i)
    cases ran.symm.trans ran'
    have again (next : Step Machine Flow) : afterBody next flow = next := by
      obtain rfl | rfl := on <;> rfl
    have past : i.toInt + (count + 1 : Nat) * step.toInt =
        i.toInt + step.toInt + count * step.toInt := by
      push_cast
      rw [Int.add_mul]
      omega
    rw [countFrom_succ, if_pos ((test i).2 before), Step.bind_of_ok (setCount_atHead inside i),
      Step.bind_of_ok ran, again, Step.bind_apply, Step.bind,
      nextCount_eq (through.inside still) held, past]
    cases sum : Word.add? i step with
    | some next =>
      have exact : next.toInt = i.toInt + step.toInt := (Word.fit?_eq_some_iff _ _).1 sum
      rw [← exact] at left others ⊢
      exact ih still left others (by omega)
    | none =>
      -- the sum is no word, so nothing is left to visit
      rw [extent_of_not_before moves (not_before_of_overflow suits sum)] at left
      subst left
      cases others
      rw [Word.add?] at sum
      simp only [Int.natCast_zero, Int.zero_mul, Int.add_zero, ending, sum]
      cases head.exitValue <;> rfl

/-- A loop over words visits the integers from the start on that pass its test, in order, and no
others. Where the counter is kept apart, it does so whatever the body does to the local, and nothing
fails even next to the ends of the words; the local is at the last of them if the body leaves it
alone. A counter that is the local itself, which the body has to leave alone, ends at the first
integer that fails the test, and only where that is no word the code is left. -/
theorem forLoop_visits {ctx : Context} {body : List Stmt}
    (through : FallsThrough ready head.var (execBlock ctx body)) (starts : ready machine)
    {start stop step : Int64} (first : evalInt ctx.call head.start machine = .ok start machine)
    (last : evalInt ctx.call head.stop machine = .ok stop machine)
    (stride : evalInt ctx.call head.step machine = .ok step machine) :
    (head.bound = .range → step = 0 → exec ctx (.forLoop head body) machine = .deopt []) ∧
    (head.bound.Suits step.toInt →
      (head.exitValue = true → Leaves ready head.var (execBlock ctx body)) → ∃ count final,
      (∀ k : Nat, k < count ↔
        head.bound.Admits step.toInt (start.toInt + k * step.toInt) stop.toInt) ∧
      Visits head.var (execBlock ctx body) (progression start.toInt step.toInt count) machine final ∧
      (count < ctx.fuel → if head.exitValue then
          (∀ next : Int64, next.toInt = start.toInt + count * step.toInt →
            exec ctx (.forLoop head body) machine = .ok .next (final.setInt head.var next)) ∧
          ((∀ next : Int64, next.toInt ≠ start.toInt + count * step.toInt) →
            exec ctx (.forLoop head body) machine = .deopt [])
        else exec ctx (.forLoop head body) machine = .ok .next final ∧
          (Leaves ready head.var (execBlock ctx body) → final.slots[head.var]? =
            ((progression start.toInt step.toInt count).getLast?.map fun i =>
              some (Slot.scalar (.int i))).getD machine.slots[head.var]?))) := by
  have entered : exec ctx (.forLoop head body) machine =
      countedLoop head start stop step (execBlock ctx body) ctx.fuel machine := by
    rw [exec, Step.bind_of_ok first, Step.bind_of_ok last, Step.bind_of_ok stride]
  refine ⟨fun ranged still => ?_, fun suits leaves => ?_⟩
  · rw [entered, countedLoop, if_pos ⟨ranged, still⟩]
    rfl
  · have moves := ne_zero_of_suits suits
    have nonzero : ¬ (head.bound = .range ∧ step = 0) := fun zero => moves (zero.2 ▸ rfl)
    obtain ⟨final, visits⟩ := through.exists_visits (progression start.toInt step.toInt
      (extent start.toInt (head.bound.limit stop.toInt) step.toInt)) starts
    refine ⟨_, final, fun k => (lt_extent_iff moves k).trans (admits_iff suits _ _).symm, visits,
      fun granted => ?_⟩
    have ended := countFrom_eq suits through leaves starts rfl visits granted
    have headed : countedLoop head start stop step (execBlock ctx body) ctx.fuel machine =
        countFrom head stop step (execBlock ctx body) ctx.fuel start (atHead head start machine) := by
      rw [countedLoop, if_neg nonzero]
      unfold atHead
      split
      · exact Step.bind_of_ok (write_int (through.inside starts) start)
      · rfl
    rw [entered, headed, ended]
    unfold ending
    split
    · refine ⟨fun next exact => ?_, fun none => ?_⟩
      · rw [(Word.fit?_eq_some_iff _ _).2 exact]
      · cases found : Word.fit? _ with
        | some next => exact absurd ((Word.fit?_eq_some_iff _ _).1 found) (none next)
        | none => rfl
    · exact ⟨rfl, fun alone => visits.counter through alone starts⟩

/-- A range of three elements after which the counter would leave the words. -/
def lastStrides : ForHead :=
  ⟨0, .int (Int64.maxValue - 12), .int Int64.maxValue, .int 5, .range, false, default⟩

/-- Gathers the elements in a local of its own. -/
def gathering : List Stmt := [.assign 1 (.binary .bitXor (.var 1 .int) (.var 0 .int))]

/-- A machine with a counter and another integer. -/
def TwoInts (machine : Machine) : Prop :=
  ∃ i total shared, machine = ⟨#[.scalar (.int i), .scalar (.int total)], [], shared⟩

namespace TwoInts

theorem inside {machine : Machine} (ints : TwoInts machine) : 0 < machine.slots.size := by
  obtain ⟨_, _, _, rfl⟩ := ints
  exact Nat.two_pos

theorem setInt {machine : Machine} (ints : TwoInts machine) (i : Int64) :
    TwoInts (machine.setInt 0 i) := by
  obtain ⟨_, total, shared, rfl⟩ := ints
  exact ⟨i, total, shared, rfl⟩

end TwoInts

/-- A context without callees. -/
def noCallees : Context := ⟨default, fun _ _ => Step.stuck, 10, 1, 1⟩

theorem execBlock_gathering (i total : Int64) (shared : Shared) :
    execBlock noCallees gathering ⟨#[.scalar (.int i), .scalar (.int total)], [], shared⟩ =
      .ok .next ⟨#[.scalar (.int i), .scalar (.int (total ^^^ i))], [], shared⟩ := rfl

theorem forLoop_visits_lastStrides :
    ∃ final, exec noCallees (.forLoop lastStrides gathering)
        ⟨#[.scalar (.int 0), .scalar (.int 0)], [], ⟨#[], 0⟩⟩ = .ok .next final ∧
      Visits 0 (execBlock noCallees gathering)
        [Int64.maxValue - 12, Int64.maxValue - 7, Int64.maxValue - 2]
        ⟨#[.scalar (.int 0), .scalar (.int 0)], [], ⟨#[], 0⟩⟩ final ∧
      final.slots[0]? = some (.scalar (.int (Int64.maxValue - 2))) := by
  have through : FallsThrough TwoInts lastStrides.var (execBlock noCallees gathering) := by
    refine ⟨TwoInts.inside, TwoInts.setInt, ?_⟩
    rintro _ ⟨i, total, shared, rfl⟩
    exact ⟨.next, _, execBlock_gathering i total shared, .inl rfl, i, total ^^^ i, shared, rfl⟩
  have leaves : Leaves TwoInts lastStrides.var (execBlock noCallees gathering) := by
    rintro _ _ _ ⟨i, total, shared, rfl⟩ ran
    cases (execBlock_gathering i total shared).symm.trans ran
    rfl
  obtain ⟨count, final, counts, visits, ended⟩ :=
    (forLoop_visits through ⟨0, 0, _, rfl⟩ rfl rfl rfl).2 (show (5 : Int) ≠ 0 by decide) nofun
  have three : 2 < count := (counts 2).2 (show Before _ _ _ by decide)
  have four : ¬ 3 < count := mt (counts 3).1 (show ¬ Before _ _ _ by decide)
  obtain rfl : count = 3 := by omega
  obtain ⟨ran, counter⟩ := ended (by decide)
  exact ⟨final, ran, visits, counter leaves⟩

/-- A range of three elements. -/
def thrice : ForHead := ⟨0, .int 0, .int 3, .int 1, .range, false, default⟩

/-- A body that falls through and sets the local of the counter: the local ends where the body put
it and not at the last element. -/
theorem forLoop_leaves_rebound :
    FallsThrough TwoInts thrice.var (execBlock noCallees [.assign 0 (.int 10)]) ∧
      exec noCallees (.forLoop thrice [.assign 0 (.int 10)])
          ⟨#[.scalar (.int 0), .scalar (.int 0)], [], ⟨#[], 0⟩⟩ =
        .ok .next ⟨#[.scalar (.int 10), .scalar (.int 0)], [], ⟨#[], 0⟩⟩ := by
  refine ⟨⟨TwoInts.inside, TwoInts.setInt, ?_⟩, rfl⟩
  rintro _ ⟨i, total, shared, rfl⟩
  exact ⟨.next, _, rfl, .inl rfl, 10, total, shared, rfl⟩

end Native
end TwoTier
