import TwoTier.Passes.Lanes
import TwoTier.Proofs.Buffers
import TwoTier.Proofs.Lanes.SplitLoop

namespace TwoTier.Native

open Passes (isFloatArray isPackable isPackableStmt)

open Typed (Expr ForHead LocalId Routine Stmt VectorHead)

variable {array : LocalId} {value : Scalar} {result : Unit} {partials : Partials}
  {run : Step Machine Flow}

variable {after : Machine}

theorem pairPosition_eq_ok :
    pairPosition array i machine = .ok position after ↔
      after = machine ∧ position = i.toUInt64.toNat ∧
        ∃ length, Machine.length array machine = .ok length machine ∧ (i + 1).toInt < length.toInt := by
  unfold pairPosition
  rw [Step.bind_eq_ok]
  constructor
  · rintro ⟨length, between, measured, rest⟩
    obtain ⟨rfl, _⟩ := Machine.length_eq_ok.1 measured
    split at rest
    · simp at rest
    · rename_i inside
      obtain ⟨rfl, rfl⟩ := Step.pure_eq_ok.1 rest
      rw [ge_iff_le, Int64.le_iff_toInt_le, Int.not_le] at inside
      exact ⟨rfl, rfl, length, measured, inside⟩
  · rintro ⟨rfl, rfl, length, measured, inside⟩
    have outside : ¬ i + 1 ≥ length := by
      rw [ge_iff_le, Int64.le_iff_toInt_le]
      omega
    exact ⟨length, after, measured, by simp [outside]⟩

theorem requireFloat_eq_ok {x : Float} :
    requireFloat value machine = .ok x after ↔ value = .float x ∧ after = machine := by
  cases value with
  | float y => simp [requireFloat, eq_comm]
  | int | bool => simp [requireFloat]

/-- One half of the pair at `i`: the iteration it stands for, and where that touches arrays. -/
structure Half (second : Bool) (i count : Int64) (position : Nat) : Prop where
  nonneg : 0 ≤ i.toInt
  next : (i + 1).toInt = i.toInt + 1
  count : count.toInt = i.toInt + second.toNat
  place : position = i.toUInt64.toNat + second.toNat

def half (second : Bool) (pair : Float × Float) : Float := if second then pair.2 else pair.1

/-- A machine in an iteration next to one that runs the pair. -/
structure Beside (var : LocalId) (count : Int64) (position : Nat) (pair lane : Machine) : Prop where
  counter : lane.slots[var]? = some (.scalar (.int count))
  locals : ∀ id, id ≠ var → lane.slots[id]? = pair.slots[id]?
  shared : Shared.SameIn (fun _ place => place = position) pair.shared lane.shared

section Half

variable {var : LocalId} {second : Bool} {i count : Int64} {position : Nat}
  {pair lane : Machine}

/-- An array has the same length in both machines, and the iteration is inside it. -/
theorem Half.elementPosition (half : Half second i count position)
    (inside : (i + 1).toInt < length.toInt) :
    Native.elementPosition count length = some position := by
  have first := half.nonneg
  have next := half.next
  have counts := half.count
  have small := second.toNat_le
  rw [elementPosition_of_inside (by omega) (by omega), half.place]
  have low := toNat_toUInt64 count
  have base := toNat_toUInt64 i
  have high := length.toInt_lt
  exact congrArg some (by omega)

theorem Beside.length (beside : Beside var count position pair lane) (apart : array ≠ var)
    {length : Int64} (measured : Machine.length array pair = .ok length pair) :
    Machine.length array lane = .ok length lane := by
  refine Machine.length_eq_ok.2 ⟨rfl, ?_⟩
  rw [beside.locals array apart]
  obtain ⟨_, none | ⟨buffer, held, rfl⟩⟩ := Machine.length_eq_ok.1 measured
  · exact .inl none
  · exact .inr ⟨buffer, held, by rw [beside.shared.extents]⟩

theorem Beside.load (beside : Beside var count position pair lane) (apart : array ≠ var)
    (loaded : Machine.load array position pair = .ok value pair) :
    Machine.load array position lane = .ok value lane := by
  obtain ⟨_, buffer, held, inside⟩ := Machine.load_eq_ok.1 loaded
  refine Machine.load_eq_ok.2 ⟨rfl, buffer, ?_, ?_⟩
  · rw [beside.locals array apart, held]
  · rw [beside.shared.elements buffer position rfl, inside]

variable {routine : Routine} {invariants : List LocalId} {call : Callee}

theorem eval_of_packedEval (arrays : ∀ array, isFloatArray routine array = true → array ≠ var)
    (fixed : ∀ id ∈ invariants, id ≠ var) (at_half : Half second i count position)
    (packable : isPackable routine var invariants expr = true)
    (beside : Beside var count position pair lane) {values : Float × Float}
    (ran : packedEval i expr pair = .ok values after) :
    after = pair ∧ eval call expr lane = .ok (.float (half second values)) lane := by
  fun_induction packedEval i expr generalizing values after with
  | case1 value =>
    obtain ⟨rfl, rfl⟩ := Step.pure_eq_ok.1 ran
    cases second <;> exact ⟨rfl, rfl⟩
  | case2 id type =>
    simp only [isPackable, Bool.and_eq_true, List.contains_iff_mem] at packable
    obtain ⟨value, _, read, rest⟩ := Step.bind_eq_ok.1 ran
    obtain ⟨x, _, needed, ended⟩ := Step.bind_eq_ok.1 rest
    obtain ⟨held, rfl⟩ := Machine.read_eq_ok.1 read
    obtain ⟨rfl, rfl⟩ := requireFloat_eq_ok.1 needed
    obtain ⟨rfl, rfl⟩ := Step.pure_eq_ok.1 ended
    refine ⟨rfl, ?_⟩
    rw [eval, Machine.read_eq_ok, beside.locals id (fixed id packable.2), held]
    cases second <;> exact ⟨rfl, rfl⟩
  | case3 array element index =>
    simp only [isPackable, Bool.and_eq_true] at packable
    obtain ⟨type, rfl⟩ : ∃ type, index = .var var type := by
      cases index <;> simp_all [Expr.var?]
    have apart := arrays array packable.1.2
    obtain ⟨place, _, paired, loading⟩ := Step.bind_eq_ok.1 ran
    obtain ⟨rfl, rfl, length, measured, inside⟩ := pairPosition_eq_ok.1 paired
    obtain ⟨first, _, loadFirst, needing⟩ := Step.bind_eq_ok.1 loading
    obtain ⟨rfl, _⟩ := Machine.load_eq_ok.1 loadFirst
    obtain ⟨x, _, needX, loadingOther⟩ := Step.bind_eq_ok.1 needing
    obtain ⟨rfl, rfl⟩ := requireFloat_eq_ok.1 needX
    obtain ⟨other, _, loadOther, needingOther⟩ := Step.bind_eq_ok.1 loadingOther
    obtain ⟨rfl, _⟩ := Machine.load_eq_ok.1 loadOther
    obtain ⟨y, _, needY, ended⟩ := Step.bind_eq_ok.1 needingOther
    obtain ⟨rfl, rfl⟩ := requireFloat_eq_ok.1 needY
    obtain ⟨rfl, rfl⟩ := Step.pure_eq_ok.1 ended
    refine ⟨rfl, ?_⟩
    have read : eval call (.var var type) lane = .ok (.int count) lane := by
      exact Machine.read_eq_ok.2 ⟨beside.counter, rfl⟩
    have loaded : Machine.load array position lane = .ok (.float (half second (x, y))) lane := by
      refine beside.load apart ?_
      rw [at_half.place]
      cases second with
      | false => exact loadFirst
      | true => exact loadOther
    rw [eval, Step.bind_of_ok read, Step.bind_of_ok (requireInt_eq_ok.2 ⟨rfl, rfl⟩),
      Step.bind_of_ok (beside.length apart measured), at_half.elementPosition inside]
    exact loaded
  | case4 op left right first other =>
    simp only [isPackable, Bool.and_eq_true, Bool.or_eq_true, decide_eq_true_eq] at packable
    obtain ⟨x, _, ranLeft, rest⟩ := Step.bind_eq_ok.1 ran
    obtain ⟨rfl, evalLeft⟩ := first packable.1.2 ranLeft
    obtain ⟨y, _, ranRight, combined⟩ := Step.bind_eq_ok.1 rest
    obtain ⟨rfl, evalRight⟩ := other packable.2 ranRight
    rw [eval, Step.bind_of_ok evalLeft, Step.bind_of_ok evalRight]
    obtain (rfl | rfl) | rfl := packable.1.1.2
    all_goals
      obtain ⟨rfl, rfl⟩ := Step.pure_eq_ok.1 combined
      cases second <;> exact ⟨rfl, rfl⟩
  | case5 operand inner =>
    simp only [isPackable, Bool.and_eq_true] at packable
    obtain ⟨x, _, ranInner, ended⟩ := Step.bind_eq_ok.1 ran
    obtain ⟨rfl, evalInner⟩ := inner packable.2 ranInner
    obtain ⟨rfl, rfl⟩ := Step.pure_eq_ok.1 ended
    rw [eval, Step.bind_of_ok evalInner]
    cases second <;> exact ⟨rfl, rfl⟩
  | case6 => simp at ran

/-- A run that has changed nothing but elements of arrays at certain positions. -/
structure Touches (positions : Nat → Prop) (before after : Machine) : Prop where
  slots : after.slots = before.slots
  distances : after.distances = before.distances
  depth : after.shared.depth = before.shared.depth
  others : Shared.SameIn (fun _ place => ¬ positions place) before.shared after.shared

namespace Touches

variable {positions : Nat → Prop} {first middle last : Machine}

theorem refl (machine : Machine) : Touches positions machine machine := ⟨rfl, rfl, rfl, .refl _⟩

theorem trans (start : Touches positions first middle) (rest : Touches positions middle last) :
    Touches positions first last :=
  ⟨rest.slots.trans start.slots, rest.distances.trans start.distances,
    rest.depth.trans start.depth, start.others.trans rest.others⟩

theorem store {place : Nat} (here : positions place)
    (stored : Machine.store array place value first = .ok result last) :
    Touches positions first last := by
  obtain ⟨buffer, _, rfl⟩ := Machine.store_eq_ok.1 stored
  exact ⟨rfl, rfl, rfl, (Shared.SameIn.refl _).put value (absurd here)⟩

end Touches

/-- The same store on both sides; the pair also stores at the other position. -/
theorem Beside.store (at_half : Half second i count position)
    (beside : Beside var count position pair lane) {array : LocalId} (apart : array ≠ var)
    {values : Float × Float} {between : Machine} {result other : Unit}
    (first : Machine.store array i.toUInt64.toNat (.float values.1) pair = .ok result between)
    (last : Machine.store array (i.toUInt64.toNat + 1) (.float values.2) between = .ok other after) :
    ∃ laneAfter,
      Machine.store array position (.float (half second values)) lane = .ok () laneAfter ∧
        Beside var count position after laneAfter ∧ Touches (· = position) lane laneAfter := by
  obtain ⟨buffer, held, rfl⟩ := Machine.store_eq_ok.1 first
  obtain ⟨same, again, rfl⟩ := Machine.store_eq_ok.1 last
  obtain rfl : buffer = same := by simpa [held] using again
  have stored : Machine.store array position (.float (half second values)) lane = .ok () _ :=
    Machine.store_eq_ok.2 ⟨buffer, by rw [beside.locals array apart, held], rfl⟩
  refine ⟨_, stored, ⟨beside.counter, beside.locals, ?_⟩, .store rfl stored⟩
  have place := at_half.place
  cases second with
  | false =>
    obtain rfl : position = i.toUInt64.toNat := by simpa using place
    exact ((beside.shared.both _ _ _).symm.put _ (by omega)).symm
  | true =>
    obtain rfl : position = i.toUInt64.toNat + 1 := by simpa using place
    exact (beside.shared.symm.put _ (by omega)).symm.both _ _ _

/-- What a packed body without accumulators consists of: stores at the counter. -/
structure Packs (routine : Routine) (var : LocalId) (invariants : List LocalId)
    (body : List Stmt) : Prop where
  arrays : ∀ array, isFloatArray routine array = true → array ≠ var
  fixed : ∀ id ∈ invariants, id ≠ var
  stores : ∀ stmt ∈ body, ∃ array type value, stmt = .store array (.var var type) value ∧
    isFloatArray routine array = true ∧ isPackable routine var invariants value = true

theorem Packs.tail {rest : List Stmt} (packs : Packs routine var invariants (stmt :: rest)) :
    Packs routine var invariants rest :=
  ⟨packs.arrays, packs.fixed, fun other member => packs.stores other (.tail _ member)⟩

/-- The pair runs a body one statement after the other, each in both halves. -/
theorem execBlock_of_packed {head : VectorHead} (packs : Packs routine var invariants body)
    (at_half : Half second i count position) (beside : Beside var count position pair lane)
    {parts : Partials} (ran : body.foldlM (packedStmt head i) partials pair = .ok parts after) :
    ∃ laneAfter, execBlock ctx body lane = .ok .next laneAfter ∧
      Beside var count position after laneAfter ∧ Touches (· = position) lane laneAfter ∧
      Touches (fun place => place = i.toUInt64.toNat ∨ place = i.toUInt64.toNat + 1) pair after := by
  induction body generalizing pair lane partials with
  | nil =>
    obtain ⟨_, rfl⟩ := Step.pure_eq_ok.1 ran
    exact ⟨lane, rfl, beside, .refl _, .refl _⟩
  | cons stmt rest ih =>
    obtain ⟨array, type, value, rfl, float, packable⟩ := packs.stores stmt (.head _)
    have apart := packs.arrays array float
    obtain ⟨kept, next, once, others⟩ := Step.bind_eq_ok.1 ran
    obtain ⟨values, evaluating, valued, placing⟩ := Step.bind_eq_ok.1 once
    obtain ⟨rfl, evaluated⟩ : evaluating = pair ∧
        eval ctx.call value lane = .ok (.float (half second values)) lane :=
      eval_of_packedEval packs.arrays packs.fixed at_half packable beside valued
    obtain ⟨place, _, paired, storing⟩ := Step.bind_eq_ok.1 placing
    obtain ⟨rfl, rfl, length, measured, inside⟩ := pairPosition_eq_ok.1 paired
    obtain ⟨_, between, first, storingOther⟩ := Step.bind_eq_ok.1 storing
    obtain ⟨_, _, last, ended⟩ := Step.bind_eq_ok.1 storingOther
    obtain ⟨rfl, rfl⟩ := Step.pure_eq_ok.1 ended
    obtain ⟨stored, storedLane, still, touched⟩ := beside.store at_half apart first last
    obtain ⟨laneAfter, ranRest, besideAfter, touchedRest, pairRest⟩ := ih packs.tail still others
    have counter : evalInt ctx.call (.var var type) lane = .ok count lane := by
      rw [evalInt_eq_ok]
      exact Machine.read_eq_ok.2 ⟨beside.counter, rfl⟩
    have executed : exec ctx (.store array (.var var type) value) lane = .ok .next stored := by
      rw [exec, Step.bind_of_ok evaluated, Step.bind_of_ok counter,
        Step.bind_of_ok (beside.length apart measured), at_half.elementPosition inside]
      exact Step.bind_of_ok storedLane
    refine ⟨laneAfter, ?_, besideAfter, touched.trans touchedRest, ?_⟩
    · rw [execBlock, Step.bind_of_ok executed]
      exact ranRest
    · exact ((Touches.store (.inl rfl) first).trans (.store (.inr rfl) last)).trans pairRest

end Half

/-- The plain loop next to the pairs: it has a counter of its own. -/
structure Trails (var : LocalId) (packed plain : Machine) : Prop where
  size : plain.slots.size = packed.slots.size
  locals : ∀ id, id ≠ var → plain.slots[id]? = packed.slots[id]?
  distances : plain.distances = packed.distances
  shared : plain.shared = packed.shared

section Loop

variable {routine : Routine} {head : ForHead} {vector : VectorHead} {invariants : List LocalId}
  {body : List Stmt} {ctx : Context} {i stop : Int64} {packed plain after : Machine}

/-- Setting the counter makes up for all that the plain loop has ahead. -/
theorem Trails.beside (trails : Trails head.var packed plain)
    (written : Machine.write head.var (.int i) plain = .ok result entered) (position : Nat) :
    Beside head.var i position packed entered := by
  obtain ⟨inside, rfl⟩ := Machine.write_eq_ok.1 written
  refine ⟨by simp [inside], fun id apart => ?_, trails.shared ▸ .refl _⟩
  rw [← trails.locals id apart]
  exact Array.getElem?_setIfInBounds_ne (Ne.symm apart)

/-- What both halves have done to the arrays is what the pair has done. -/
theorem shared_of_halves {before paired low high : Shared} {place : Nat}
    (depth : high.depth = paired.depth)
    (pair : Shared.SameIn (fun _ position => ¬ (position = place ∨ position = place + 1)) before paired)
    (lowOthers : Shared.SameIn (fun _ position => ¬ position = place) before low)
    (lowSame : Shared.SameIn (fun _ position => position = place) paired low)
    (highOthers : Shared.SameIn (fun _ position => ¬ position = place + 1) low high)
    (highSame : Shared.SameIn (fun _ position => position = place + 1) paired high) :
    high = paired := by
  refine Shared.ext_elements depth highSame.count fun buffer position => ?_
  by_cases isHigh : position = place + 1
  · exact highSame.elements buffer position isHigh
  rw [highOthers.elements buffer position isHigh]
  by_cases isLow : position = place
  · exact lowSame.elements buffer position isLow
  rw [lowOthers.elements buffer position isLow, pair.elements buffer position (by omega)]

/-- A pair does what two iterations of the plain loop do, but for the counter. -/
theorem packedStep_follows (packs : Packs routine head.var invariants body)
    (range : head.bound = .range) (visited : head.exitValue = false) (nonneg : 0 ≤ i.toInt)
    (room : i.toInt + 2 ≤ stop.toInt) (declared : head.var < packed.slots.size)
    (trails : Trails head.var packed plain) {parts : Partials}
    (ran : packedStep vector body i partials packed = .ok (flow, parts) after) :
    flow = .next ∧ after.slots = packed.slots ∧ ∃ plainAfter,
      Advances head stop (execBlock ctx body) 2 i plain (i + 2) plainAfter ∧
        Trails head.var after plainAfter ∧
        plainAfter.slots[head.var]? = some (.scalar (.int (i + 1))) := by
  obtain ⟨_, _, folded, ended⟩ := Step.bind_eq_ok.1 ran
  obtain ⟨same, rfl⟩ := Step.pure_eq_ok.1 ended
  cases same
  have succ := toInt_succ (i := i) stop (by omega)
  have enterLow : Machine.write head.var (.int i) plain = .ok () _ :=
    Machine.write_eq_ok.2 ⟨trails.size ▸ declared, rfl⟩
  have halfLow : Half false i i i.toUInt64.toNat := ⟨nonneg, succ, by simp, by simp⟩
  obtain ⟨low, (ranLow : execBlock ctx body _ = _), besideLow, touchedLow, touchedPair⟩ :=
    execBlock_of_packed packs halfLow (trails.beside enterLow _) folded
  -- the second half starts from what the first has left, which is the old state where it looks
  have sized : head.var < low.slots.size := by
    rw [touchedLow.slots]
    simpa [trails.size] using declared
  have enterHigh : Machine.write head.var (.int (i + 1)) low = .ok () _ :=
    Machine.write_eq_ok.2 ⟨sized, rfl⟩
  have halfHigh : Half true i (i + 1) (i.toUInt64.toNat + 1) := ⟨nonneg, succ, by simp [succ], rfl⟩
  have besideStart : Beside head.var (i + 1) (i.toUInt64.toNat + 1) packed
      { low with slots := low.slots.setIfInBounds head.var (.scalar (.int (i + 1))) } := by
    refine ⟨by simp [sized], fun id apart => ?_, ?_⟩
    · rw [Array.getElem?_setIfInBounds_ne (Ne.symm apart), touchedLow.slots,
        Array.getElem?_setIfInBounds_ne (Ne.symm apart), trails.locals id apart]
    · rw [← trails.shared]
      exact touchedLow.others.mono fun _ position here => by omega
  obtain ⟨high, (ranHigh : execBlock ctx body _ = _), besideHigh, touchedHigh, _⟩ :=
    execBlock_of_packed packs halfHigh besideStart folded
  have once := advances_one range visited (show i.toInt < stop.toInt by omega) enterLow ranLow .next
  have twice := advances_one range visited (show (i + 1).toInt < stop.toInt by omega) enterHigh
    ranHigh .next
  refine ⟨rfl, touchedPair.slots, high, ?_, ⟨?_, ?_, ?_, ?_⟩, ?_⟩
  · rw [show i + 2 = i + 1 + 1 by rw [Int64.add_assoc]; rfl]
    exact once.trans twice
  · rw [touchedHigh.slots, Array.size_setIfInBounds, touchedLow.slots, Array.size_setIfInBounds,
      trails.size, touchedPair.slots]
  · intro id apart
    rw [touchedHigh.slots, besideStart.locals id apart, touchedPair.slots]
  · rw [touchedHigh.distances, touchedLow.distances, touchedPair.distances]
    exact trails.distances
  · refine shared_of_halves ?_ touchedPair.others (trails.shared ▸ touchedLow.others)
      besideLow.shared touchedHigh.others besideHigh.shared
    rw [touchedHigh.depth, touchedLow.depth, touchedPair.depth, ← trails.shared]
  · rw [touchedHigh.slots]
    exact besideStart.counter

/-- How far the plain loop has come next to full pairs. -/
inductive Paced (head : ForHead) (stop i : Int64) (body : Step Machine Flow)
    (packed plain : Machine) : Nat → Int64 → Machine → Machine → Prop where
  | start : Paced head stop i body packed plain 0 i packed plain
  | pairs {count : Nat} {j : Int64} {after plainAfter : Machine} (full : 0 < count)
      (reached : j.toInt = i.toInt + 2 * count) (below : j.toInt ≤ stop.toInt)
      (slots : after.slots = packed.slots)
      (advances : Advances head stop body (2 * count) i plain j plainAfter)
      (trails : Trails head.var after plainAfter)
      (counter : plainAfter.slots[head.var]? = some (.scalar (.int (j - 1)))) :
      Paced head stop i body packed plain count j after plainAfter

section

variable (packs : Packs routine head.var invariants body)

include packs

theorem packedGroups_follow
    (range : head.bound = .range) (visited : head.exitValue = false) (nonneg : 0 ≤ i.toInt)
    (declared : head.var < packed.slots.size) (trails : Trails head.var packed plain)
    (ran : groupsFrom (packedStep vector body) 2 stop fuel i partials packed = .ok ended after) :
    ∃ j parts count plainAfter, ended = .done j parts ∧ stop.toInt < j.toInt + 2 ∧
      Paced head stop i (execBlock ctx body) packed plain count j after plainAfter := by
  induction fuel generalizing i packed plain partials with
  | zero => simp [groupsFrom, Step.exhausted] at ran
  | succ fuel ih =>
    rw [groupsFrom_succ] at ran
    have high := stop.toInt_lt
    have unwrapped := bmod_word (stop.toInt - i.toInt)
    have two : (2 : Int64).toInt = 2 := rfl
    split at ran
    · rename_i full
      obtain ⟨below, wide⟩ := full
      rw [ge_iff_le, Int64.le_iff_toInt_le, Int64.toInt_sub] at wide
      rw [Int64.lt_iff_toInt_lt] at below
      have room : i.toInt + 2 ≤ stop.toInt := by omega
      have moved : (i + 2).toInt = i.toInt + 2 := by
        have sum := bmod_word (i.toInt + 2)
        rw [Int64.toInt_add, two]
        omega
      obtain ⟨⟨flow, parts⟩, between, group, rest⟩ := Step.bind_eq_ok.1 ran
      obtain ⟨rfl, slots, plainBetween, steps, still, counter⟩ :=
        packedStep_follows packs range visited nonneg room declared trails group
      obtain ⟨j, last, count, plainAfter, rfl, ends, paced⟩ :=
        ih (by omega) (by rw [slots]; exact declared) still rest
      cases paced with
      | start =>
        have back : i + 2 - 1 = i + 1 := by
          rw [Int64.sub_eq_add_neg, Int64.add_assoc]
          rfl
        exact ⟨_, last, 1, _, rfl, ends,
          .pairs Nat.one_pos moved (by omega) slots steps still (by rw [back, counter])⟩
      | @pairs count _ _ _ full reached below laterSlots later trails counter =>
        refine ⟨j, last, count + 1, plainAfter, rfl, ends,
          .pairs count.succ_pos (by omega) below (laterSlots.trans slots) ?_ trails counter⟩
        rw [Nat.mul_succ, Nat.add_comm]
        exact steps.trans later
    · rename_i rest
      obtain ⟨rfl, rfl⟩ := Step.pure_eq_ok.1 ran
      refine ⟨i, partials, 0, plain, rfl, ?_, .start⟩
      rw [ge_iff_le, Int64.lt_iff_toInt_lt, Int64.le_iff_toInt_le, Int64.toInt_sub] at rest
      omega

theorem Packs.stays :
    Yields (· = .next) (execBlock ctx body) := by
  induction body with
  | nil =>
    exact .pure rfl
  | cons stmt rest ih =>
    obtain ⟨array, type, value, rfl, _⟩ := packs.stores stmt (.head _)
    have once : Yields (· = .next) (exec ctx (.store array (.var head.var type) value)) := by
      exact .after _ fun _ => .after _ fun _ => .after _ fun _ => .after _ fun _ => .after _ fun _ =>
        .pure rfl
    refine once.bind fun flow next => ?_
    subst next
    exact ih packs.tail

theorem Packs.execBlock_fuel (fuel : Nat) :
    execBlock { ctx with fuel } body = execBlock ctx body := by
  induction body with
  | nil => rw [execBlock, execBlock]
  | cons stmt rest ih =>
    obtain ⟨array, type, value, rfl, _⟩ := packs.stores stmt (.head _)
    rw [execBlock, execBlock, exec, exec, ih packs.tail]

end

theorem unitFrom_of_le (granted : fuel ≤ more)
    (ran : unitFrom var stop run fuel i machine = .ok flow after) :
    unitFrom var stop run more i machine = .ok flow after := by
  induction fuel generalizing i machine more with
  | zero => simp [unitFrom, Step.exhausted] at ran
  | succ fuel ih =>
    obtain ⟨more, rfl⟩ := Nat.exists_eq_add_of_lt granted
    rw [unitFrom_succ] at ran ⊢
    split at ran
    · rename_i below
      rw [if_pos below]
      obtain ⟨_, entered, written, inside⟩ := Step.bind_eq_ok.1 ran
      obtain ⟨ended, between, iterated, rest⟩ := Step.bind_eq_ok.1 inside
      rw [Step.bind_of_ok written, Step.bind_of_ok iterated]
      cases ended with
      | next | skip => exact ih (Nat.le_add_right ..) rest
      | leave | giveBack | exit => exact rest
    · rename_i ended
      rwa [if_neg ended]

theorem yields_unitFrom (stays : Yields (· = .next) run) (fuel : Nat) (i : Int64) :
    Yields (· = .next) (unitFrom var stop run fuel i) := by
  induction fuel generalizing i with
  | zero => exact ⟨fun ran => by simp [unitFrom, Step.exhausted] at ran⟩
  | succ fuel ih =>
    rw [unitFrom_succ]
    split
    · refine .after _ fun _ => stays.bind fun flow next => ?_
      subst next
      exact ih _
    · exact .pure rfl

/-- The plain machine is the packed one with a counter of its own. -/
theorem Trails.eq_set (trails : Trails var packed plain) (counter : plain.slots[var]? = some slot) :
    plain = { packed with slots := packed.slots.setIfInBounds var slot } := by
  have inside : var < packed.slots.size := trails.size ▸ (Array.getElem?_eq_some_iff.1 counter).1
  obtain ⟨slots, distances, shared⟩ := plain
  obtain ⟨size, locals, same, alike⟩ := trails
  congr 1
  refine Array.ext_getElem? fun id => ?_
  by_cases isCounter : id = var
  · subst isCounter
    rw [counter, Array.getElem?_setIfInBounds_self_of_lt inside]
  · rw [locals id isCounter, Array.getElem?_setIfInBounds_ne (Ne.symm isCounter)]

theorem Trails.write_eq (trails : Trails var packed plain) (value : Scalar) :
    Machine.write var value plain = Machine.write var value packed := by
  unfold Machine.write
  rw [trails.size]
  split
  · rename_i inside
    have trailing : Trails var packed
        { plain with slots := plain.slots.setIfInBounds var (.scalar value) } :=
      ⟨by simp [trails.size], fun id apart => by
        rw [Array.getElem?_setIfInBounds_ne (Ne.symm apart), trails.locals id apart],
        trails.distances, trails.shared⟩
    refine congrArg (Outcome.ok ()) (trailing.eq_set ?_)
    exact Array.getElem?_setIfInBounds_self_of_lt (trails.size ▸ inside)
  · rfl

theorem foldLanes_nil (lanes : Partials) (machine : Machine) :
    lanes.forM (foldLane []) machine = .ok () machine := by
  induction lanes with
  | nil => rfl
  | cons lane rest ih => exact ih

theorem groups_of_vectorPhase {group : Int64 → Partials → Step Machine (Flow × Partials)}
    (form : vector.form = .packed) (bare : vector.reductions = []) {start : Int64}
    (ran : vectorPhase vector group start stop fuel machine = .ok ended after) :
    ∃ groups, groupsFrom group 2 stop fuel start (startPartials vector) machine = .ok groups after ∧
      (∀ next parts, groups = .done next parts → ended = .done next parts) := by
  have tracked : newlyTracked vector machine = .ok [] machine := by
    simp only [newlyTracked, untrackedSums, form]
    rfl
  unfold vectorPhase at ran
  rw [Step.bind_of_ok tracked] at ran
  obtain ⟨_, tracking, begun, grouping⟩ := Step.bind_eq_ok.1 ran
  obtain rfl : machine = tracking := by cases begun; rfl
  obtain ⟨groups, grouped, looped, untracking⟩ := Step.bind_eq_ok.1 grouping
  obtain ⟨_, freed, freeing, folding⟩ := Step.bind_eq_ok.1 untracking
  obtain rfl : grouped = freed := by cases freeing; rfl
  rw [form] at looped
  cases groups with
  | left flow =>
    obtain ⟨_, rfl⟩ := Step.pure_eq_ok.1 folding
    exact ⟨_, looped, fun _ _ same => by cases same⟩
  | done next parts =>
    obtain ⟨_, checked, checking, summing⟩ := Step.bind_eq_ok.1 folding
    obtain rfl : grouped = checked := by
      cases checking
      rfl
    rw [bare, Step.bind_of_ok (foldLanes_nil parts grouped)] at summing
    obtain ⟨rfl, rfl⟩ := Step.pure_eq_ok.1 summing
    exact ⟨_, looped, fun _ _ same => same⟩

/-- Whether the last iteration of a loop in pairs is not one of a pair, if there is any. -/
def EndsInRest (start stop : Int64) : Prop :=
  start < 0 ∨ stop ≤ start ∨ (stop.toInt - start.toInt) % 2 = 1

instance (start stop : Int64) : Decidable (EndsInRest start stop) :=
  inferInstanceAs (Decidable (_ ∨ _))

/-- The machine after the plain loop, told from the machine after the loop in pairs. -/
def Machine.catchUp (machine : Machine) (var : LocalId) (start stop : Int64) : Machine :=
  if EndsInRest start stop then machine
  else { machine with slots := machine.slots.setIfInBounds var (.scalar (.int (stop - 1))) }

/-- An iteration of the plain loop sets the counter first: a machine that trails no longer does. -/
theorem Trails.unitFrom_eq (trails : Trails var packed plain) (below : i < stop) :
    unitFrom var stop run fuel i plain = unitFrom var stop run fuel i packed := by
  cases fuel with
  | zero => rfl
  | succ fuel =>
    rw [unitFrom_succ, if_pos below]
    simp only [Step.bind_apply, Step.bind]
    rw [trails.write_eq]

theorem unitFrom_self :
    unitFrom var stop run fuel stop machine = .ok .next after ↔ 0 < fuel ∧ machine = after := by
  cases fuel with
  | zero => simp [unitFrom, Step.exhausted]
  | succ fuel => simp [unitFrom_succ]

/-- The pairs and the scalar rest do what the plain loop does, but for the counter. -/
theorem vectorLoop_of_pairs (packs : Packs routine head.var invariants body)
    (range : head.bound = .range) (visited : head.exitValue = false) (same : vector.var = head.var)
    (form : vector.form = .packed) (bare : vector.reductions = []) {start : Int64}
    (declared : head.var < machine.slots.size)
    (ran : vectorLoop vector (packedStep vector body) (execBlock ctx body) start stop fuel machine =
      .ok flow after) :
    flow = .next ∧ (¬ EndsInRest start stop → after.slots = machine.slots) ∧
      ∃ granted, ∀ more ≥ granted, unitFrom head.var stop (execBlock ctx body) more start machine =
        .ok .next (after.catchUp head.var start stop) := by
  unfold vectorLoop at ran
  rw [same] at ran
  split at ran
  · rename_i negative
    obtain rfl := (yields_unitFrom packs.stays _ _).value ran
    have rests : EndsInRest start stop := .inl negative
    refine ⟨rfl, absurd rests, fuel, fun more granted => ?_⟩
    rw [Machine.catchUp, if_pos rests]
    exact unitFrom_of_le granted ran
  · rename_i nonneg
    rw [Int64.lt_iff_toInt_lt, Int64.toInt_zero, Int.not_lt] at nonneg
    obtain ⟨ended, between, phase, rest⟩ := Step.bind_eq_ok.1 ran
    obtain ⟨groups, looped, passes⟩ := groups_of_vectorPhase form bare phase
    obtain ⟨j, parts, count, plainAfter, rfl, ends, paced⟩ :=
      packedGroups_follow packs range visited nonneg declared ⟨rfl, fun _ _ => rfl, rfl, rfl⟩ looped
    obtain rfl := passes j parts rfl
    have rest : unitFrom head.var stop (execBlock ctx body) fuel j between = .ok flow after := rest
    obtain rfl := (yields_unitFrom packs.stays _ _).value rest
    refine ⟨rfl, ?_⟩
    cases paced with
    | start =>
      have rests : EndsInRest start stop := by
        unfold EndsInRest
        rw [Int64.le_iff_toInt_le]
        omega
      refine ⟨absurd rests, fuel, fun more granted => ?_⟩
      rw [Machine.catchUp, if_pos rests]
      exact unitFrom_of_le granted rest
    | pairs full reached below slots advances trails counter =>
      have advanced (more : Nat) (granted : fuel + 2 * count ≤ more) :
          unitFrom head.var stop (execBlock ctx body) more start machine =
            unitFrom head.var stop (execBlock ctx body) (more - 2 * count) j plainAfter := by
        rw [← countFrom_eq_unitFrom range visited, ← countFrom_eq_unitFrom range visited,
          ← advances (more - 2 * count), Nat.sub_add_cancel (by omega)]
      by_cases one : j.toInt < stop.toInt
      · -- the scalar iteration sets the counter, and the machines are one again
        have rests : EndsInRest start stop := by
          unfold EndsInRest
          omega
        refine ⟨absurd rests, fuel + 2 * count, fun more granted => ?_⟩
        rw [Machine.catchUp, if_pos rests, advanced more granted,
          trails.unitFrom_eq (Int64.lt_iff_toInt_lt.2 one)]
        exact unitFrom_of_le (by omega) rest
      · have behind : ¬ EndsInRest start stop := by
          unfold EndsInRest
          rw [Int64.lt_iff_toInt_lt, Int64.le_iff_toInt_le, Int64.toInt_zero]
          omega
        obtain rfl : j = stop := Int64.toInt_inj.1 (by omega)
        have ended : unitFrom head.var j (execBlock ctx body) fuel j between = .ok .next after := rest
        obtain ⟨-, rfl⟩ := unitFrom_self.1 ended
        refine ⟨fun _ => slots, fuel + 2 * count, fun more granted => ?_⟩
        rw [Machine.catchUp, if_neg behind, ← trails.eq_set counter, advanced more granted]
        exact unitFrom_self.2 ⟨by have := (unitFrom_self.1 ended).1; omega, rfl⟩

end Loop

/-- The loops that come out of the lowering in packed pairs have been accepted and can be packed. -/
theorem packed_of_laned {lane : List Stmt} (form : vector.form = .packed)
    (lowered : (Passes.laned routine width reads (.forLoop head body)).2 = .vector vector lane) :
    lane = body ∧ ∃ use, Passes.loopUse routine head body .vector reads = .ok use ∧
      Passes.isPackedLoop routine head body use = true ∧
      vector = ⟨head.var, head.start, head.stop, use.reductions, .packed, use.arrays, head.span⟩ := by
  unfold Passes.laned at lowered
  split at lowered
  · split at lowered
    · rename_i use accepted
      unfold Passes.vectorize at lowered
      split at lowered
      · rename_i packed
        cases lowered
        exact ⟨rfl, use, accepted, packed, rfl⟩
      · cases lowered
        cases form
    · cases lowered
  · cases lowered

theorem packs_of_isPackedLoop (examined : Passes.Examined routine head body lowering reads use)
    (packed : Passes.isPackedLoop routine head body use = true) (bare : use.reductions = [])
    (counter : (routine.decl head.var).kind = .scalar .int) :
    Packs routine head.var use.invariants body where
  arrays array float := by
    rintro rfl
    simp [isFloatArray, counter] at float
  fixed id member := (examined.mem_invariants.1 member).2.1
  stores stmt member := by
    simp only [Passes.isPackedLoop, Bool.and_eq_true, List.all_eq_true] at packed
    have packable := packed.2 stmt member
    unfold isPackableStmt at packable
    split at packable
    · rename_i array index value
      cases index <;> simp_all [Expr.var?]
    · simp [bare] at packable
    · cases packable

/-- A loop in packed pairs without float reductions that ends well has done what the plain loop
does: the arrays, and all locals but the counter, are the same. The counter is the same when the
loop ends in its scalar rest. Otherwise it still has the value from before the loop. -/
theorem forLoop_of_packed {routine : Routine} {width : Nat} {reads : List LocalId} {head : ForHead}
    {body lane : List Stmt} {vector : VectorHead} {ctx : Context} {machine after : Machine}
    {flow : Flow}
    (lowered : (Passes.laned routine width reads (.forLoop head body)).2 = .vector vector lane)
    (form : vector.form = .packed) (integers : ∀ reduction ∈ vector.reductions, reduction.type ≠ .float)
    (counter : (routine.decl head.var).kind = .scalar .int)
    (declared : head.var < machine.slots.size)
    (ran : exec ctx (.vector vector lane) machine = .ok flow after) :
    flow = .next ∧ ∃ start between stop entered,
      evalInt ctx.call head.start machine = .ok start between ∧
      evalInt ctx.call head.stop between = .ok stop entered ∧
      Finishes ctx (.forLoop head body) machine .next (after.catchUp head.var start stop) ∧
      (¬ EndsInRest start stop → after.slots = machine.slots) := by
  obtain ⟨rfl, use, accepted, packed, rfl⟩ := packed_of_laned form lowered
  have bare : use.reductions = [] := by
    simp only [Passes.isPackedLoop, Bool.and_eq_true, List.all_eq_true] at packed
    refine List.eq_nil_iff_forall_not_mem.2 fun reduction member => integers reduction member ?_
    have float := packed.1.2 reduction member
    simp only [Passes.isPackedReduction, Bool.and_eq_true, decide_eq_true_eq] at float
    exact float.1
  have packs := packs_of_isPackedLoop (Passes.examined_of_loopUse accepted) packed bare counter
  have accepted := Passes.accepted_of_loopUse accepted
  rw [exec] at ran
  obtain ⟨start, between, started, rest⟩ := Step.bind_eq_ok.1 ran
  obtain ⟨stop, entered, stopped, looped⟩ := Step.bind_eq_ok.1 rest
  obtain ⟨slots, -⟩ := Footprint.locals.trans
    ((Footprint.locals_evalInt ctx.call head.start).after started)
    ((Footprint.locals_evalInt ctx.call head.stop).after stopped)
  obtain ⟨ended, kept, granted, follows⟩ := vectorLoop_of_pairs packs accepted.bound_eq
    accepted.exitValue_eq rfl rfl bare (slots ▸ declared) looped
  refine ⟨ended, start, between, stop, entered, started, stopped, ⟨granted, fun fuel enough => ?_⟩,
    fun behind => (kept behind).trans slots⟩
  have started : evalInt ctx.call head.start machine = .ok start between := started
  have stopped : evalInt ctx.call head.stop between = .ok stop entered := stopped
  have stepped : evalInt ctx.call head.step entered = .ok 1 entered := by
    rw [accepted.step_eq]
    rfl
  rw [exec, Step.bind_of_ok started, Step.bind_of_ok stopped, Step.bind_of_ok stepped]
  unfold countedLoop
  rw [if_neg (fun zero => absurd zero.2 (by decide)), accepted.exitValue_eq, packs.execBlock_fuel]
  exact (congrFun (countFrom_eq_unitFrom accepted.bound_eq accepted.exitValue_eq fuel start)
    entered).trans (follows fuel enough)

section Copy

/-- A loop that copies the elements of the first local to the second. -/
def copyHead : ForHead := ⟨2, .int 0, .len 0, .int 1, .range, false, default⟩

def copyBody : List Stmt := [.store 1 (.var 2 .int) (.index 0 .float (.var 2 .int))]

def copyRoutine : Routine :=
  { (default : Routine) with
    locals := [⟨"xs", .array .float, .param 0⟩, ⟨"ys", .array .float, .param 1⟩,
      ⟨"i", .scalar .int, .user⟩] }

def copyContext : Context := ⟨copyRoutine, fun _ _ => Step.stuck, 10, 1, 1⟩

def copyMachine (counter : Int64) (source target : List Float) : Machine where
  slots := #[.array (some 0), .array (some 1), .scalar (.int counter)]
  distances := []
  shared := ⟨#[(source.map .float).toArray, (target.map .float).toArray], 0⟩

def copyVector : VectorHead := ⟨2, .int 0, .len 0, [], .packed, [1, 0], default⟩

/-- Of three elements the last is left for the scalar rest. -/
theorem forLoop_of_packed_copy :
    Finishes copyContext (.forLoop copyHead copyBody) (copyMachine 7 [1, 2, 3] [0, 0, 0]) .next
      (copyMachine 2 [1, 2, 3] [1, 2, 3]) := by
  have lowered : (Passes.laned copyRoutine 4 [] (.forLoop copyHead copyBody)).2 =
      .vector copyVector copyBody := by cbv
  have ran : exec copyContext (.vector copyVector copyBody) (copyMachine 7 [1, 2, 3] [0, 0, 0]) =
      .ok .next (copyMachine 2 [1, 2, 3] [1, 2, 3]) := by cbv
  obtain ⟨-, start, between, stop, entered, started, stopped, finishes, -⟩ :=
    forLoop_of_packed lowered rfl (by simp [copyVector]) rfl (by simp [copyMachine, copyHead]) ran
  cases started
  cases stopped
  rw [Machine.catchUp, if_pos (by decide)] at finishes
  exact finishes

/-- Of four elements none is left, and the pairs do not move the counter. -/
theorem packed_counter_behind_copy :
    (Passes.laned copyRoutine 4 [] (.forLoop copyHead copyBody)).2 = .vector copyVector copyBody ∧
      exec copyContext (.vector copyVector copyBody) (copyMachine 7 [1, 2, 3, 4] [0, 0, 0, 0]) =
        .ok .next (copyMachine 7 [1, 2, 3, 4] [1, 2, 3, 4]) ∧
      exec copyContext (.forLoop copyHead copyBody) (copyMachine 7 [1, 2, 3, 4] [0, 0, 0, 0]) =
        .ok .next (copyMachine 3 [1, 2, 3, 4] [1, 2, 3, 4]) := by
  refine ⟨?_, ?_, ?_⟩ <;> cbv

end Copy

end TwoTier.Native
