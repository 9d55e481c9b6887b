import TwoTier.Proofs.Lanes.Lane

namespace TwoTier

/-- The word that leaves every accumulator as it is. -/
def ReductionOp.identityWord : ReductionOp → Int64
  | .add | .sub => 0
  | .mul => 1
  | .min => Int64.maxValue
  | .max => Int64.minValue

theorem ReductionOp.identity_int (op : ReductionOp) : op.identity .int = .int op.identityWord := by
  cases op <;> rfl

theorem ReductionOp.join_identity (op : ReductionOp) (x : Int64) :
    op.join x.toInt op.identityWord.toInt = x.toInt := by
  have low := x.minValue_le_toInt
  have high := x.toInt_le
  cases op with
  | add | sub => simp [join, identityWord]
  | mul => simp [join, identityWord]
  | min => simp only [join, identityWord]; omega
  | max => simp only [join, identityWord]; omega

theorem ReductionOp.total_identity (op : ReductionOp) (x : Int64) (lanes : Nat) :
    op.total x.toInt (List.replicate lanes op.identityWord.toInt) = x.toInt := by
  induction lanes with
  | zero => rfl
  | succ lanes ih =>
    change op.total (op.join x.toInt op.identityWord.toInt) _ = _
    rw [op.join_identity, ih]

namespace Native

open Typed (LocalId)

variable {machine after plain : Machine} {lanes : List (LocalId → Int64)}

def identityAt (reductions : List Reduction) (id : LocalId) : Int64 :=
  match reductions.find? (·.acc = id) with
  | some reduction => reduction.op.identityWord
  | none => 0

variable {reductions : List Reduction}

theorem identityAt_acc
    (distinct : ∀ first ∈ reductions, ∀ second ∈ reductions, first.acc = second.acc → first =
      second) (member : reduction ∈ reductions) :
    identityAt reductions reduction.acc = reduction.op.identityWord := by
  unfold identityAt
  cases found : reductions.find? (·.acc = reduction.acc) with
  | none => simpa using List.find?_eq_none.1 found reduction member
  | some other =>
    have same := List.find?_some found
    rw [distinct other (List.mem_of_find?_eq_some found) reduction member (by simpa using same)]

theorem identities_eq (distinct : ∀ first ∈ reductions, ∀ second ∈ reductions,
      first.acc = second.acc → first = second)
    (words : ∀ reduction ∈ reductions, reduction.type = .int) :
    identities reductions = laneOf reductions (identityAt reductions) := by
  refine List.map_congr_left fun reduction member => ?_
  rw [words reduction member, reduction.op.identity_int, identityAt_acc distinct member]

theorem foldPart_eq_ok (word : reduction.op ≠ .mul) {x y : Int64} {value : Scalar}
    (ran : foldPart reduction (.int x) (.int y) machine = .ok value after) :
    (∃ z, value = .int z ∧ z.toInt = reduction.op.join x.toInt y.toInt) ∧ after = machine := by
  obtain ⟨acc, op, type⟩ := reduction
  cases op with
  | add | sub =>
    simp only [foldPart, Step.bind_eq_ok, checkedAdd_eq, Word.add?, Step.ofOption_eq_ok,
      Step.pure_eq_ok, Word.fit?_eq_some_iff] at ran
    obtain ⟨z, _, ⟨exact, rfl⟩, rfl, rfl⟩ := ran
    exact ⟨⟨z, rfl, exact⟩, rfl⟩
  | mul => exact absurd rfl word
  | min =>
    obtain ⟨rfl, rfl⟩ := Step.pure_eq_ok.1 ran
    refine ⟨⟨_, rfl, ?_⟩, rfl⟩
    simp only [Int64.lt_iff_toInt_lt, ReductionOp.join]
    split <;> omega
  | max =>
    obtain ⟨rfl, rfl⟩ := Step.pure_eq_ok.1 ran
    refine ⟨⟨_, rfl, ?_⟩, rfl⟩
    simp only [Int64.lt_iff_toInt_lt, ReductionOp.join]
    split <;> omega

/-- What folding a lane does: each accumulator is joined with its part, and nothing else changes. -/
structure Folds (reductions : List Reduction) (kept lane : LocalId → Int64)
    (machine after : Machine) : Prop where
  joined : ∀ reduction ∈ reductions, ∃ z,
    after.slots[reduction.acc]? = some (.scalar (.int z)) ∧
      z.toInt = reduction.op.join (kept reduction.acc).toInt (lane reduction.acc).toInt
  elsewhere : ∀ id, (∀ reduction ∈ reductions, reduction.acc ≠ id) →
    after.slots[id]? = machine.slots[id]?
  shared : after.shared = machine.shared
  distances : after.distances = machine.distances

/-- Folding a lane joins each of its parts with the accumulator it is for, and touches nothing
else. -/
theorem folds_of_foldLane {lane : LocalId → Int64} {result : Unit}
    (once : (reductions.map (·.acc)).Nodup) (words : ∀ reduction ∈ reductions, reduction.op ≠ .mul)
    (holds : Holds reductions kept machine)
    (ran : foldLane reductions (laneOf reductions lane) machine = .ok result after) :
    Folds reductions kept lane machine after := by
  induction reductions generalizing machine with
  | nil =>
    cases ran
    exact ⟨by simp, fun _ _ => rfl, rfl, rfl⟩
  | cons first rest ih =>
    obtain ⟨_, between, start, later⟩ := Step.bind_eq_ok.1 ran
    have found : Machine.read first.acc machine = .ok (.int (kept first.acc)) machine :=
      Machine.read_eq_ok.2 ⟨holds first (.head _), rfl⟩
    have start : (Machine.read first.acc >>= fun acc =>
        foldPart first acc (.int (lane first.acc)) >>= Machine.write first.acc) machine =
          .ok _ between := start
    rw [Step.bind_of_ok found] at start
    obtain ⟨value, middle, folded, written⟩ := Step.bind_eq_ok.1 start
    obtain ⟨⟨z, rfl, exact⟩, rfl⟩ := foldPart_eq_ok (words first (.head _)) folded
    obtain ⟨inside, rfl⟩ := Machine.write_eq_ok.1 written
    obtain ⟨fresh, once⟩ := List.nodup_cons.1 once
    have apart (reduction : Reduction) (member : reduction ∈ rest) : first.acc ≠ reduction.acc :=
      fun same => fresh (List.mem_map.2 ⟨reduction, member, same.symm⟩)
    have folds := ih once (fun reduction member => words reduction (.tail _ member))
      (fun reduction member => by
        rw [Array.getElem?_setIfInBounds_ne (apart reduction member)]
        exact holds reduction (.tail _ member)) later
    refine ⟨fun reduction member => ?_, fun id away => ?_, folds.shared, folds.distances⟩
    · rcases member with _ | ⟨_, member⟩
      · refine ⟨z, ?_, exact⟩
        rw [folds.elsewhere _ fun other present => Ne.symm (apart other present)]
        exact Array.getElem?_setIfInBounds_self_of_lt inside
      · exact folds.joined reduction member
    · rw [folds.elsewhere id fun reduction member => away reduction (.tail _ member)]
      exact Array.getElem?_setIfInBounds_ne (away first (.head _))

/-- A machine with parts of the accumulators and one with the wholes. -/
structure Joined (reductions : List Reduction) (lanes : List (LocalId → Int64))
    (machine plain : Machine) : Prop where
  elsewhere : ∀ id, (∀ reduction ∈ reductions, reduction.acc ≠ id) →
    machine.slots[id]? = plain.slots[id]?
  shared : machine.shared = plain.shared
  total : ∀ reduction ∈ reductions, ∃ part whole,
    machine.slots[reduction.acc]? = some (.scalar (.int part)) ∧
      plain.slots[reduction.acc]? = some (.scalar (.int whole)) ∧
      whole.toInt =
        reduction.op.total part.toInt (lanes.map fun lane => (lane reduction.acc).toInt)

theorem Split.Linked.joined {base : LocalId → Int64}
    (linked : Split.Linked ⟨reductions, base, lanes⟩ machine plain)
    (distances : List (LocalId × UInt64)) :
    Joined reductions lanes { machine with distances } plain where
  elsewhere id away := linked.elsewhere id fun ⟨reduction, member, same⟩ =>
    away reduction member same
  shared := linked.shared
  total reduction member := by
    obtain ⟨part, whole, held, plainHeld, balanced⟩ := linked.balanced reduction member
    exact ⟨part, whole, held, plainHeld, balanced.total⟩

theorem Joined.holds (joined : Joined reductions lanes machine plain) :
    Holds reductions machine.intAt machine := by
  intro reduction member
  obtain ⟨part, _, held, _⟩ := joined.total reduction member
  rw [Machine.intAt, held]

theorem Joined.foldLanes {result : Unit} (joined : Joined reductions lanes machine plain)
    (once : (reductions.map (·.acc)).Nodup) (words : ∀ reduction ∈ reductions, reduction.op ≠ .mul)
    (ran : (lanes.map (laneOf reductions)).forM (foldLane reductions) machine = .ok result after) :
    Joined reductions [] after plain ∧ after.distances = machine.distances := by
  induction lanes generalizing machine with
  | nil =>
    cases ran
    exact ⟨joined, rfl⟩
  | cons lane lanes ih =>
    obtain ⟨_, between, start, later⟩ := Step.bind_eq_ok.1 ran
    have folds := folds_of_foldLane once words joined.holds start
    have still : Joined reductions lanes between plain := {
      elsewhere := fun id away => (folds.elsewhere id away).trans (joined.elsewhere id away)
      shared := folds.shared.trans joined.shared
      total := fun reduction member => by
        obtain ⟨part, whole, held, plainHeld, total⟩ := joined.total reduction member
        obtain ⟨next, folded, exact⟩ := folds.joined reduction member
        have kept : machine.intAt reduction.acc = part := by rw [Machine.intAt, held]
        refine ⟨next, whole, folded, plainHeld, ?_⟩
        rw [total, exact, kept]
        rfl }
    obtain ⟨last, distances⟩ := ih still later
    exact ⟨last, distances.trans folds.distances⟩

theorem Joined.eq (joined : Joined reductions [] machine plain)
    (distances : machine.distances = plain.distances) : machine = plain := by
  have slots : machine.slots = plain.slots := by
    refine Array.ext_getElem? fun id => ?_
    by_cases accumulates : ∃ reduction ∈ reductions, reduction.acc = id
    · obtain ⟨reduction, member, rfl⟩ := accumulates
      obtain ⟨part, whole, held, plainHeld, same⟩ := joined.total reduction member
      rw [held, plainHeld, Int64.toInt_inj.1 same]
    · exact joined.elsewhere id fun reduction member same =>
        accumulates ⟨reduction, member, same⟩
  exact (Machine.mk.injEq ..).mpr ⟨slots, distances, joined.shared⟩

end Native
end TwoTier
