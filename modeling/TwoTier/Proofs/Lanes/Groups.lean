import TwoTier.Proofs.Lanes.Exits
import TwoTier.Proofs.Lanes.Lane

namespace TwoTier.Native

open Typed (ForHead LocalId VectorHead)

variable {entered : Machine} {flow : Flow} {lanes : List (LocalId → Int64)} {width : Int64}

/-- The plain loop comes from one iteration to a later one, whatever follows. -/
def Advances (head : ForHead) (stop : Int64) (body : Step Machine Flow) (count : Nat)
    (i : Int64) (machine : Machine) (j : Int64) (after : Machine) : Prop :=
  ∀ fuel, countFrom head stop 1 body (fuel + count) i machine =
    countFrom head stop 1 body fuel j after

theorem Advances.refl {body : Step Machine Flow} :
    Advances head stop body 0 i machine i machine := fun _ => rfl

theorem Advances.trans {j k : Int64} {body : Step Machine Flow} {first second third : Machine}
    (start : Advances head stop body count i first j second)
    (rest : Advances head stop body more j second k third) :
    Advances head stop body (count + more) i first k third := fun fuel => by
  rw [Nat.add_comm count more, ← Nat.add_assoc, start, rest]

theorem toInt_succ {i : Int64} (stop : Int64) (below : i.toInt < stop.toInt) :
    (i + 1).toInt = i.toInt + 1 := by
  have low := i.le_toInt
  have high := stop.toInt_lt
  have unwrapped := bmod_word (i.toInt + 1)
  rw [Int64.toInt_add, Int64.toInt_one]
  omega

theorem addOverflows_one (stop : Int64) (below : i.toInt < stop.toInt) :
    addOverflows i 1 (i + 1) = false := by
  cases overflows : addOverflows i 1 (i + 1) with
  | false => rfl
  | true =>
    have outside := (addOverflows_iff i 1).1 overflows
    have low := i.le_toInt
    have high := stop.toInt_lt
    rw [Word.add?, Word.fit?_eq_none_iff, Int64.toInt_one] at outside
    omega

/-- A loop over a range in steps of one looks at no more of its head than the counter. -/
theorem countFrom_eq_unitFrom {run : Step Machine Flow} (range : head.bound = .range)
    (visited : head.exitValue = false) (fuel : Nat) (i : Int64) :
    countFrom head stop 1 run fuel i = unitFrom head.var stop run fuel i := by
  induction fuel generalizing i with
  | zero => rfl
  | succ fuel ih =>
    rw [countFrom_succ, unitFrom_succ]
    have test : (boundHolds head.bound 1 i stop = true) = (i < stop) := by simp [boundHolds, range]
    simp only [test]
    split
    · rename_i below
      have next : nextCount head 1 i = pure (some (i + 1)) := by
        simp [nextCount, visited, addOverflows_one stop (Int64.lt_iff_toInt_lt.1 below)]
      simp [setCount, visited, next, ih]
    · rfl

theorem advances_one {body : Step Machine Flow} {after : Machine} (range : head.bound = .range)
    (visited : head.exitValue = false) (below : i.toInt < stop.toInt)
    (written : Machine.write head.var (.int i) machine = .ok () entered)
    (ran : body entered = .ok flow after) (stays : Stays [] flow) :
    Advances head stop body 1 i machine (i + 1) after := fun fuel => by
  have holds : boundHolds head.bound 1 i stop = true := by
    simp [boundHolds, range, Int64.lt_iff_toInt_lt, below]
  have counted : setCount head i machine = .ok () entered := by
    simpa [setCount, visited] using written
  have next : nextCount head 1 i after = .ok (some (i + 1)) after := by
    simp [nextCount, visited, addOverflows_one stop below]
  rw [countFrom_succ, if_pos holds, Step.bind_of_ok counted, Step.bind_of_ok ran]
  cases stays with
  | next | skip => exact Step.bind_of_ok next
  | exit inside => cases inside

/-- The plain loop and the loop over lanes run bodies that mirror each other. -/
structure LoopTwins (head : ForHead) (vector : VectorHead) (base : LocalId → Int64)
    (body plainBody : Step Machine Flow) : Prop where
  counter : vector.var = head.var
  range : head.bound = .range
  visited : head.exitValue = false
  apart : ∀ reduction ∈ vector.reductions, reduction.acc ≠ head.var
  stays : Yields (Stays []) body
  mirrors : ∀ others, Split.Mirrors ⟨vector.reductions, base, others⟩ body plainBody

namespace LoopTwins

variable {head : ForHead} {vector : VectorHead} {base : LocalId → Int64}
  {body plainBody : Step Machine Flow} {stop i : Int64} {machine plain after : Machine}
  {others : List (LocalId → Int64)}

section

variable (twins : LoopTwins head vector base body plainBody)

include twins

theorem enter (linked : Split.Linked ⟨vector.reductions, base, others⟩ machine plain)
    (written : Machine.write vector.var (.int i) machine = .ok () entered) :
    ∃ plainEntered, Machine.write head.var (.int i) plain = .ok () plainEntered ∧
      Split.Linked ⟨vector.reductions, base, others⟩ entered plainEntered := by
  have apart : ¬ Split.Accumulates ⟨vector.reductions, base, others⟩ head.var :=
    fun ⟨reduction, member, same⟩ => twins.apart reduction member same
  rw [twins.counter] at written
  obtain ⟨inside, rfl⟩ := Machine.write_eq_ok.1 written
  exact ⟨_, Machine.write_eq_ok.2 ⟨linked.lt_size apart inside, rfl⟩, linked.set apart inside _⟩

theorem iterate {plainEntered : Machine} (stop : Int64) (below : i.toInt < stop.toInt)
    (written : Machine.write head.var (.int i) plain = .ok () plainEntered)
    (linked : Split.Linked ⟨vector.reductions, base, others⟩ entered plainEntered)
    (ran : body entered = .ok flow after)
    (bounded : Split.Bounded ⟨vector.reductions, base, others⟩ after) :
    ∃ plainAfter, Advances head stop plainBody 1 i plain (i + 1) plainAfter ∧
      Split.Linked ⟨vector.reductions, base, others⟩ after plainAfter := by
  obtain ⟨plainAfter, plainRan, last⟩ := (twins.mirrors others).follows linked ran bounded
  exact ⟨plainAfter, advances_one twins.range twins.visited below written plainRan
    (twins.stays.value ran), last⟩

theorem growing_laneGroup (i : Int64)
    (lanes : Partials) : Footprint.growing.Keeps (laneGroup vector body i lanes) :=
  (Footprint.likeness_locals growing_write).laneGroup (twins.mirrors []).grows.alike i lanes

theorem laneGroup_follows (stop : Int64) {done : List (LocalId → Int64)} {partials : Partials}
    (linked : Split.Linked ⟨vector.reductions, base, done ++ lanes⟩ machine plain)
    (ran : laneGroup vector body i (lanes.map (laneOf vector.reductions)) machine = .ok (flow,
      partials) after) (bounded : Split.Bounded ⟨vector.reductions, base, []⟩ after)
    (room : i.toInt + lanes.length ≤ stop.toInt) :
    ∃ next plainAfter j, partials = next.map (laneOf vector.reductions) ∧
      next.length = lanes.length ∧ j.toInt = i.toInt + lanes.length ∧
      Advances head stop plainBody lanes.length i plain j plainAfter ∧
      Split.Linked ⟨vector.reductions, base, done ++ next⟩ after plainAfter := by
  induction lanes generalizing i machine plain done flow partials with
  | nil =>
    obtain ⟨same, rfl⟩ := Step.pure_eq_ok.1 ran
    cases same
    exact ⟨[], plain, i, rfl, rfl, by simp, .refl, linked⟩
  | cons lane lanes ih =>
    rw [List.length_cons] at room
    obtain ⟨_, entered, written, rest⟩ := Step.bind_eq_ok.1 ran
    obtain ⟨plainEntered, plainWritten, still⟩ := twins.enter linked written
    obtain ⟨⟨iterated, left⟩, restored, inLane, others⟩ := Step.bind_eq_ok.1 rest
    obtain ⟨between, inside, grown, leaves⟩ := withLane_eq_ok still.holds inLane
    have stays := twins.stays.value inside
    have later : ∃ partials', partials = left :: partials' ∧
        laneGroup vector body (i + 1) (lanes.map (laneOf vector.reductions)) restored =
          .ok (flow, partials') after := by
      cases stays with
      | next | skip =>
        obtain ⟨⟨flow', partials'⟩, _, remaining, ended⟩ := Step.bind_eq_ok.1 others
        obtain ⟨same, rfl⟩ := Step.pure_eq_ok.1 ended
        cases same
        exact ⟨partials', rfl, remaining⟩
      | exit absent => cases absent
    obtain ⟨partials', rfl, remaining⟩ := later
    have early : Split.Bounded ⟨vector.reductions, base, []⟩ between :=
      bounded.of_grown (Footprint.growing.trans grown ((twins.growing_laneGroup _ _).after remaining))
    -- the lane that runs and the real accumulators change places, and back after the body
    have running : Split.Linked ⟨vector.reductions, base, entered.intAt :: (done ++ lanes)⟩
        (entered.setInts vector.reductions lane) plainEntered :=
      still.switch still.holds
        ((List.Perm.cons _ List.perm_middle).trans (List.Perm.swap ..))
    obtain ⟨plainBetween, advanced, ended⟩ :=
      twins.iterate stop (by omega) plainWritten running inside early
    obtain ⟨rfl, rfl⟩ := leaves between.intAt ended.holds
    have back : Split.Linked ⟨vector.reductions, base, (done ++ [between.intAt]) ++ lanes⟩
        (between.setInts vector.reductions entered.intAt) plainBetween := by
      refine ended.switch ended.holds ((List.Perm.swap ..).trans (List.Perm.cons _ ?_))
      rw [List.append_assoc]
      exact List.perm_middle.symm
    have succ := toInt_succ (i := i) stop (by omega)
    obtain ⟨next, plainAfter, j, rfl, length, index, steps, last⟩ :=
      ih back remaining (by omega)
    refine ⟨between.intAt :: next, plainAfter, j, rfl, by simp [length], ?_, ?_, ?_⟩
    · rw [List.length_cons]
      omega
    · rw [List.length_cons, Nat.add_comm]
      exact advanced.trans steps
    · rwa [List.append_assoc] at last

/-- A group runs one iteration on each lane, the first on the real accumulators. -/
theorem lanesStep_follows (stop : Int64)
    {partials : Partials} (linked : Split.Linked ⟨vector.reductions, base, lanes⟩ machine plain)
    (ran : lanesStep vector body i (lanes.map (laneOf vector.reductions)) machine = .ok (flow,
      partials) after) (bounded : Split.Bounded ⟨vector.reductions, base, []⟩ after)
    (room : i.toInt + (lanes.length + 1) ≤ stop.toInt) :
    ∃ next plainAfter j, partials = next.map (laneOf vector.reductions) ∧
      next.length = lanes.length ∧ j.toInt = i.toInt + (lanes.length + 1) ∧
      Advances head stop plainBody (lanes.length + 1) i plain j plainAfter ∧
      Split.Linked ⟨vector.reductions, base, next⟩ after plainAfter := by
  obtain ⟨_, entered, written, rest⟩ := Step.bind_eq_ok.1 ran
  obtain ⟨iterated, between, inside, others⟩ := Step.bind_eq_ok.1 rest
  obtain ⟨plainEntered, plainWritten, still⟩ := twins.enter linked written
  have remaining : laneGroup vector body (i + 1) (lanes.map (laneOf vector.reductions)) between =
      .ok (flow, partials) after := by
    cases twins.stays.value inside with
    | next | skip => exact others
    | exit absent => cases absent
  have early : Split.Bounded ⟨vector.reductions, base, []⟩ between :=
    bounded.of_grown ((twins.growing_laneGroup _ _).after remaining)
  obtain ⟨plainBetween, advanced, ended⟩ :=
    twins.iterate stop (by omega) plainWritten still inside early
  have succ := toInt_succ (i := i) stop (by omega)
  obtain ⟨next, plainAfter, j, rfl, length, index, steps, last⟩ :=
    twins.laneGroup_follows stop (show Split.Linked ⟨_, _, [] ++ lanes⟩ _ _ from ended) remaining
      bounded (by omega)
  refine ⟨next, plainAfter, j, rfl, length, by omega, ?_, last⟩
  rw [Nat.add_comm]
  exact advanced.trans steps

theorem growing_groupsFrom (fuel : Nat) (i : Int64) (partials : Partials) :
    Footprint.growing.Keeps (groupsFrom (lanesStep vector body) width stop fuel i partials) :=
  Likeness.Alike.groupsFrom
    ((Footprint.likeness_locals growing_write).lanesStep (twins.mirrors []).grows.alike) width stop
    (.inl rfl) i partials

theorem yields_laneGroup (i : Int64)
    (lanes : Partials) : Yields (·.1 = Flow.next) (laneGroup vector body i lanes) := by
  induction lanes generalizing i with
  | nil => exact .pure rfl
  | cons lane rest ih =>
    have stays : Yields (fun ended => Stays [] ended.1) (withLane vector.reductions lane body) :=
      .after _ fun _ => .after _ fun _ => twins.stays.bind fun _ stays =>
        .after _ fun _ => .after _ fun _ => .pure stays
    refine .after _ fun _ => stays.bind fun ended kept => ?_
    obtain ⟨flow, partials⟩ := ended
    cases kept with
    | next | skip => exact (ih (i + 1)).bind fun _ same => .pure same
    | exit absent => cases absent

theorem yields_lanesStep (i : Int64)
    (lanes : Partials) : Yields (·.1 = Flow.next) (lanesStep vector body i lanes) := by
  refine .after _ fun _ => twins.stays.bind fun flow stays => ?_
  cases stays with
  | next | skip => exact twins.yields_laneGroup _ _
  | exit absent => cases absent

theorem yields_groupsFrom (fuel : Nat) (i : Int64) (partials : Partials) :
    Yields (fun ended => ∃ next last, ended = .done next last)
      (groupsFrom (lanesStep vector body) width stop fuel i partials) := by
  induction fuel generalizing i partials with
  | zero => exact ⟨fun ran => by simp [groupsFrom, Step.exhausted] at ran⟩
  | succ fuel ih =>
    rw [groupsFrom_succ]
    split
    · refine (twins.yields_lanesStep i partials).bind fun ended next => ?_
      obtain ⟨flow, partials⟩ := ended
      obtain rfl : flow = .next := next
      exact ih _ _
    · exact .pure ⟨i, partials, rfl⟩

/-- Whole groups take the plain loop through all iterations of their lanes, and the lanes still make
up the accumulators. -/
theorem groupsFrom_follows (wide : width.toInt = lanes.length + 1) (nonneg : 0 ≤ i.toInt)
    (linked : Split.Linked ⟨vector.reductions, base, lanes⟩ machine plain)
    (ran : groupsFrom (lanesStep vector body) width stop fuel i (lanes.map (laneOf
      vector.reductions)) machine = .ok ended after)
    (bounded : Split.Bounded ⟨vector.reductions, base, []⟩ after) :
    ∃ j next plainAfter count, ended = .done j (next.map (laneOf vector.reductions)) ∧
      j.toInt = i.toInt + (count : Nat) ∧
      Advances head stop plainBody count i plain j plainAfter ∧
      Split.Linked ⟨vector.reductions, base, next⟩ after plainAfter := by
  induction fuel generalizing i machine plain lanes with
  | zero => simp [groupsFrom, Step.exhausted] at ran
  | succ fuel ih =>
    rw [groupsFrom_succ] at ran
    split at ran
    · rename_i full
      have high := stop.toInt_lt
      obtain ⟨⟨flow, partials⟩, between, group, rest⟩ := Step.bind_eq_ok.1 ran
      have fits : i.toInt + (lanes.length + 1) ≤ stop.toInt := by
        have unwrapped := bmod_word (stop.toInt - i.toInt)
        have below := full.1
        have wideEnough := full.2
        rw [ge_iff_le, Int64.le_iff_toInt_le, Int64.toInt_sub] at wideEnough
        rw [Int64.lt_iff_toInt_lt] at below
        omega
      have early : Split.Bounded ⟨vector.reductions, base, []⟩ between :=
        bounded.of_grown
          ((Likeness.Alike.afterGroup
            (fun partials => (twins.growing_groupsFrom fuel (i + width) partials).alike) _).after rest)
      obtain rfl : flow = .next := (twins.yields_lanesStep _ _).value group
      obtain ⟨next, plainBetween, j, rfl, length, index, steps, still⟩ :=
        twins.lanesStep_follows stop linked group early fits
      have moved : i + width = j := by
        have unwrapped := bmod_word (i.toInt + width.toInt)
        rw [← Int64.toInt_inj, Int64.toInt_add]
        omega
      rw [moved] at rest
      obtain ⟨k, last, plainAfter, count, rfl, reached, later, ending⟩ :=
        ih (by omega) (by omega) still rest
      exact ⟨k, last, plainAfter, _, rfl, by omega, steps.trans later, ending⟩
    · obtain ⟨rfl, rfl⟩ := Step.pure_eq_ok.1 ran
      exact ⟨i, lanes, plain, 0, rfl, by simp, .refl, linked⟩

end

end LoopTwins
end TwoTier.Native
