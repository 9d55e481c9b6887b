import TwoTier.Proofs.Lanes.Lockstep

namespace TwoTier.Native

open Typed (LocalId)

def laneOf (reductions : List Reduction) (values : LocalId → Int64) : List Scalar :=
  reductions.map fun reduction => .int (values reduction.acc)

def Holds (reductions : List Reduction) (values : LocalId → Int64) (machine : Machine) : Prop :=
  ∀ reduction ∈ reductions,
    machine.slots[reduction.acc]? = some (.scalar (.int (values reduction.acc)))

def Machine.intAt (machine : Machine) (id : LocalId) : Int64 :=
  match machine.slots[id]? with
  | some (.scalar (.int value)) => value
  | _ => 0

def Machine.setInts (reductions : List Reduction) (values : LocalId → Int64) (machine : Machine) :
    Machine :=
  { machine with
    slots := reductions.foldl
      (fun slots reduction => slots.setIfInBounds reduction.acc (.scalar (.int (values reduction.acc))))
      machine.slots }

variable {reductions : List Reduction} {values : LocalId → Int64} {machine : Machine}

theorem Holds.lt_size (holds : Holds reductions values machine) :
    ∀ reduction ∈ reductions, reduction.acc < machine.slots.size := fun reduction member =>
  (Array.getElem?_eq_some_iff.1 (holds reduction member)).1

theorem setInts_cons (first : Reduction) (rest : List Reduction) :
    machine.setInts (first :: rest) values =
      Machine.setInts rest values { machine with
        slots := machine.slots.setIfInBounds first.acc (.scalar (.int (values first.acc))) } :=
  rfl

theorem slots_setInts_of_apart {id : LocalId}
    (apart : ∀ reduction ∈ reductions, reduction.acc ≠ id) :
    (machine.setInts reductions values).slots[id]? = machine.slots[id]? := by
  induction reductions generalizing machine with
  | nil => rfl
  | cons first rest ih =>
    rw [setInts_cons, ih fun reduction member => apart reduction (.tail _ member)]
    exact Array.getElem?_setIfInBounds_ne (apart first (.head _))

theorem holds_setInts (inside : ∀ reduction ∈ reductions, reduction.acc < machine.slots.size) :
    Holds reductions values (machine.setInts reductions values) := by
  induction reductions generalizing machine with
  | nil => exact fun _ absent => by cases absent
  | cons first rest ih =>
    have later : Holds rest values (Machine.setInts rest values { machine with
        slots := machine.slots.setIfInBounds first.acc (.scalar (.int (values first.acc))) }) :=
      ih fun reduction member => by simpa using inside reduction (List.mem_cons_of_mem _ member)
    intro reduction member
    rw [setInts_cons]
    rcases List.mem_cons.1 member with rfl | member
    · by_cases again : ∃ other ∈ rest, other.acc = reduction.acc
      · obtain ⟨other, present, same⟩ := again
        have held := later other present
        rwa [same] at held
      · rw [slots_setInts_of_apart fun other present same => again ⟨other, present, same⟩]
        exact Array.getElem?_setIfInBounds_self_of_lt (inside reduction List.mem_cons_self)
    · exact later reduction member

theorem writeLane_eq (inside : ∀ reduction ∈ reductions, reduction.acc < machine.slots.size) :
    ((reductions.zip (laneOf reductions values)).forM fun (reduction, value) =>
        Machine.write reduction.acc value) machine =
      .ok () (machine.setInts reductions values) := by
  induction reductions generalizing machine with
  | nil => rfl
  | cons first rest ih =>
    have written : Machine.write first.acc (.int (values first.acc)) machine = .ok () _ :=
      Machine.write_eq_ok.2 ⟨inside first (.head _), rfl⟩
    change (Machine.write first.acc (.int (values first.acc)) >>= fun _ =>
      (rest.zip (laneOf rest values)).forM fun (reduction, value) =>
        Machine.write reduction.acc value) machine = _
    rw [Step.bind_of_ok written]
    refine ih fun reduction member => ?_
    simpa using inside reduction (.tail _ member)

theorem readLane_eq (holds : Holds reductions values machine) :
    (reductions.mapM fun reduction => Machine.read reduction.acc) machine =
      .ok (laneOf reductions values) machine :=
  Step.mapM_of_ok fun reduction member => Machine.read_eq_ok.2 ⟨holds reduction member, rfl⟩

/-- The body runs with the lane's accumulators, and the real ones are put back after it. -/
theorem withLane_eq_ok {body : Step Machine Flow} {lane : List Scalar} {after : Machine}
    (holds : Holds reductions kept machine)
    (ran : withLane reductions (laneOf reductions values) body machine = .ok (flow, lane) after) :
    ∃ between, body (machine.setInts reductions values) = .ok flow between ∧
      Grown between.distances after.distances ∧
      ∀ next, Holds reductions next between →
        lane = laneOf reductions next ∧ after = between.setInts reductions kept := by
  unfold withLane at ran
  rw [Step.bind_of_ok (readLane_eq holds), Step.bind_of_ok (writeLane_eq holds.lt_size),
    Step.bind_eq_ok] at ran
  obtain ⟨entered, between, inside, rest⟩ := ran
  obtain ⟨found, reading, read, restoring⟩ := Step.bind_eq_ok.1 rest
  obtain ⟨_, restored, written, ending⟩ := Step.bind_eq_ok.1 restoring
  obtain ⟨same, rfl⟩ := Step.pure_eq_ok.1 ending
  cases same
  refine ⟨between, inside, ?_, fun next held => ?_⟩
  · have locals := Footprint.likeness_locals growing_write
    exact Footprint.growing.trans ((locals.readLane _).after read) ((locals.writeLane _).after written)
  · rw [readLane_eq held] at read
    cases read
    rw [writeLane_eq held.lt_size] at written
    cases written
    exact ⟨rfl, rfl⟩

namespace Split

variable {base : LocalId → Int64} {others : List (LocalId → Int64)} {plain : Machine}

theorem Linked.holds (linked : Linked ⟨reductions, base, others⟩ machine plain) :
    Holds reductions machine.intAt machine := by
  intro reduction member
  obtain ⟨part, _, held, _⟩ := linked.balanced reduction member
  rw [Machine.intAt, held]

theorem Linked.switch {next : LocalId → Int64} {rest : List (LocalId → Int64)}
    (linked : Linked ⟨reductions, base, others⟩ machine plain)
    (holds : Holds reductions kept machine) (lanes : (kept :: others).Perm (next :: rest)) :
    Linked ⟨reductions, base, rest⟩ (machine.setInts reductions next) plain where
  elsewhere id apart := by
    rw [slots_setInts_of_apart fun reduction member same => apart ⟨reduction, member, same⟩]
    exact linked.elsewhere id apart
  shared := linked.shared
  untracked := linked.untracked
  tracked := linked.tracked
  balanced reduction member := by
    obtain ⟨part, whole, held, plainHeld, balanced⟩ := linked.balanced reduction member
    obtain rfl : kept reduction.acc = part := by
      have same := (holds reduction member).symm.trans held
      simpa using same
    refine ⟨next reduction.acc, whole, holds_setInts holds.lt_size reduction member, plainHeld,
      ?_, balanced.near⟩
    have values := lanes.map fun (lane : LocalId → Int64) => (lane reduction.acc).toInt
    rw [balanced.total]
    exact reduction.op.total_perm values

end Split
end TwoTier.Native
