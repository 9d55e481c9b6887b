import TwoTier.Proofs.Footprint
import TwoTier.Proofs.Instruction

namespace TwoTier

/-- How what two lanes hold joins. -/
def ReductionOp.join : ReductionOp → Int → Int → Int
  | .add, x, y | .sub, x, y => x + y
  | .mul, x, y => x * y
  | .min, x, y => Min.min x y
  | .max, x, y => Max.max x y

/-- What several lanes hold together. -/
def ReductionOp.total (op : ReductionOp) (first : Int) (others : List Int) : Int :=
  others.foldl op.join first

theorem ReductionOp.join_comm (op : ReductionOp) (x y : Int) : op.join x y = op.join y x := by
  cases op with
  | add | sub => exact Int.add_comm x y
  | mul => exact Int.mul_comm x y
  | min => exact Int.min_comm x y
  | max => exact Int.max_comm x y

theorem ReductionOp.join_right_comm (op : ReductionOp) (x y z : Int) :
    op.join (op.join x y) z = op.join (op.join x z) y := by
  cases op with
  | add | sub => simp only [join]; omega
  | mul => simp only [join, Int.mul_assoc, Int.mul_comm y z]
  | min | max => simp only [join]; omega

theorem ReductionOp.total_join (op : ReductionOp) (first term : Int) (others : List Int) :
    op.total (op.join first term) others = op.join (op.total first others) term := by
  induction others generalizing first with
  | nil => rfl
  | cons other others ih =>
    change op.total (op.join (op.join first term) other) others = _
    rw [op.join_right_comm, ih]
    rfl

theorem ReductionOp.total_perm (op : ReductionOp) {first other : Int} {rest others : List Int}
    (lanes : (first :: rest).Perm (other :: others)) :
    op.total first rest = op.total other others := by
  -- a fold that starts from nothing treats the first lane like the others
  let step : Option Int → Int → Option Int := fun held part => some (held.elim part (op.join · part))
  have folded (first : Int) (rest : List Int) :
      rest.foldl step (some first) = some (op.total first rest) := by
    induction rest generalizing first with
    | nil => rfl
    | cons part rest ih => exact ih (op.join first part)
  have swap (held : Option Int) (x y : Int) : step (step held x) y = step (step held y) x := by
    cases held with
    | none => exact congrArg some (op.join_comm x y)
    | some held => exact congrArg some (op.join_right_comm held x y)
  have same := lanes.foldl_eq' (fun x _ y _ held => swap held x y) none
  exact Option.some.inj ((folded first rest).symm.trans (same.trans (folded other others)))

namespace Native

open Typed (Expr LocalId)

variable {id : LocalId} {machine plain : Machine}

def Machine.distance (machine : Machine) (id : LocalId) : Nat :=
  ((machine.distances.lookup id).getD 0).toNat

/-- The same locals are tracked, and none has moved back. -/
def Grown (before after : List (LocalId × UInt64)) : Prop :=
  before.map (·.1) = after.map (·.1) ∧
    ∀ id, (before.lookup id).getD 0 ≤ (after.lookup id).getD 0

theorem Grown.refl (distances : List (LocalId × UInt64)) : Grown distances distances :=
  ⟨rfl, fun _ => UInt64.le_refl _⟩

def Footprint.growing : Footprint Machine where
  rel before after := Grown before.distances after.distances
  refl machine := Grown.refl machine.distances
  trans start rest := ⟨start.1.trans rest.1, fun id => UInt64.le_trans (start.2 id) (rest.2 id)⟩

theorem growing_write (id : LocalId) (value : Scalar) :
    Footprint.growing.Keeps (Machine.write id value) where
  after ran := by
    obtain ⟨_, rfl⟩ := Machine.write_eq_ok.1 ran
    exact Grown.refl _

theorem growing_store (id : LocalId) (position : Nat) (value : Scalar) :
    Footprint.growing.Keeps (Machine.store id position value) where
  after ran := by
    unfold Machine.store at ran
    split at ran
    · cases ran
      exact Grown.refl _
    · cases ran

theorem lookup_update (distances : List (LocalId × UInt64)) (id other : LocalId) (total : UInt64) :
    (distances.map fun (key, old) => if key = id then (key, total) else (key, old)).lookup other =
      if other = id then (distances.lookup id).map fun _ => total else distances.lookup other := by
  induction distances with
  | nil => simp
  | cons entry rest ih =>
    obtain ⟨key, old⟩ := entry
    by_cases same : key = id
    · subst key
      by_cases wanted : other = id
      · simp [wanted]
      · simp [List.lookup_cons, beq_eq_false_iff_ne.2 wanted, wanted, ih]
    · by_cases asked : other = key
      · subst other
        simp [same]
      · have apart : (id == key) = false := beq_eq_false_iff_ne.2 (Ne.symm same)
        simp [List.lookup_cons, same, beq_eq_false_iff_ne.2 asked, apart, ih]

theorem keys_update (distances : List (LocalId × UInt64)) (id : LocalId) (total : UInt64) :
    (distances.map fun (key, old) => if key = id then (key, total) else (key, old)).map (·.1) =
      distances.map (·.1) := by
  rw [List.map_map]
  apply List.map_congr_left
  rintro ⟨key, old⟩ _
  by_cases same : key = id <;> simp [same]

/-- What an assignment of a value that changes nothing does. -/
structure Assigns (id : LocalId) (value : Scalar) (machine after : Machine) : Prop where
  inside : id < machine.slots.size
  slots : after.slots = machine.slots.setIfInBounds id (.scalar value)
  shared : after.shared = machine.shared
  grown : Grown machine.distances after.distances
  others : ∀ other, other ≠ id → after.distances.lookup other = machine.distances.lookup other
  moved : ∀ total, machine.distances.lookup id = some total → ∃ before now sum,
    machine.slots[id]? = some (.scalar (.int before)) ∧ value = .int now ∧
      addDistance total before now = some sum ∧ after.distances.lookup id = some sum

theorem assigns_of_ok {value : Expr} {after : Machine} {result : Unit}
    (unchanged : ∀ {scalar between}, eval ctx.call value machine = .ok scalar between → between =
      machine) (ran : assign ctx id value machine = .ok result after) :
    ∃ scalar, eval ctx.call value machine = .ok scalar machine ∧
      Assigns id scalar machine after := by
  unfold assign at ran
  split at ran
  · rename_i untracked
    obtain ⟨scalar, between, evaluated, written⟩ := Step.bind_eq_ok.1 ran
    obtain rfl := unchanged evaluated
    obtain ⟨inside, rfl⟩ := Machine.write_eq_ok.1 written
    refine ⟨scalar, evaluated, inside, rfl, rfl, Grown.refl _, fun _ _ => rfl, ?_⟩
    simp [untracked]
  · rename_i old tracked
    obtain ⟨before, _, found, rest⟩ := Step.bind_eq_ok.1 ran
    obtain ⟨held, rfl⟩ := Machine.readInt_eq_ok.1 found
    obtain ⟨now, between, evaluated, writing⟩ := Step.bind_eq_ok.1 rest
    rw [evalInt_eq_ok] at evaluated
    obtain rfl := unchanged evaluated
    obtain ⟨_, _, written, adding⟩ := Step.bind_eq_ok.1 writing
    obtain ⟨inside, rfl⟩ := Machine.write_eq_ok.1 written
    simp only [tracked] at adding
    split at adding
    · cases adding
    · rename_i sum added
      cases adding
      refine ⟨.int now, evaluated, inside, rfl, rfl, ⟨(keys_update ..).symm, fun other => ?_⟩, ?_, ?_⟩
      · simp only [lookup_update]
        split
        · subst other
          simpa [tracked] using addDistance_le added
        · exact UInt64.le_refl _
      · intro other away
        simp only [lookup_update, if_neg away]
      · intro total same
        obtain rfl : old = total := by simpa [tracked] using same
        refine ⟨before, now, sum, held, rfl, added, ?_⟩
        simp [lookup_update, tracked]
/-- The accumulators of a split loop, and what the lanes hold that are not running. -/
structure Split where
  reductions : List Reduction
  base : LocalId → Int64
  others : List (LocalId → Int64)

namespace Split

def Accumulates (split : Split) (id : LocalId) : Prop :=
  ∃ reduction ∈ split.reductions, reduction.acc = id

/-- A lane's part and the plain accumulator, which is no further than all lanes have moved. -/
structure Balanced (split : Split) (reduction : Reduction) (distance : Nat)
    (part whole : Int64) : Prop where
  total : whole.toInt =
    reduction.op.total part.toInt (split.others.map fun lane => (lane reduction.acc).toInt)
  near : needsDistance reduction = true →
    (whole.toInt - (split.base reduction.acc).toInt).natAbs ≤ distance

/-- A machine that runs a lane, and the machine of the plain run. -/
structure Linked (split : Split) (machine plain : Machine) : Prop where
  elsewhere : ∀ id, ¬ split.Accumulates id → machine.slots[id]? = plain.slots[id]?
  shared : machine.shared = plain.shared
  untracked : plain.distances = []
  tracked : ∀ reduction ∈ split.reductions, needsDistance reduction = true →
    (machine.distances.lookup reduction.acc).isSome
  balanced : ∀ reduction ∈ split.reductions, ∃ part whole,
    machine.slots[reduction.acc]? = some (.scalar (.int part)) ∧
      plain.slots[reduction.acc]? = some (.scalar (.int whole)) ∧
      split.Balanced reduction (machine.distance reduction.acc) part whole

/-- No plain sum that has moved this far can have left the integers. -/
def Bounded (split : Split) (machine : Machine) : Prop :=
  ∀ reduction ∈ split.reductions, needsDistance reduction = true →
    (split.base reduction.acc).toInt.natAbs + machine.distance reduction.acc < 2 ^ 63

theorem Bounded.of_grown {split : Split} {before after : Machine} (bounded : split.Bounded after)
    (grown : Grown before.distances after.distances) : split.Bounded before := by
  intro reduction member sum
  have whole := bounded reduction member sum
  have moved : before.distance reduction.acc ≤ after.distance reduction.acc :=
    UInt64.le_iff_toNat_le.1 (grown.2 reduction.acc)
  omega

/-- A step that changes nothing and that both machines take alike. -/
structure Reads {α : Type} (split : Split) (step : Step Machine α) : Prop where
  unchanged : ∀ {machine value after}, step machine = .ok value after → after = machine
  agrees : ∀ {machine plain value}, split.Linked machine plain →
    step machine = .ok value machine → step plain = .ok value plain

/-- A plain step follows a lane's step wherever that ends well, as long as sums stay in range. -/
structure Mirrors {α : Type} (split : Split) (step other : Step Machine α) : Prop where
  grows : Footprint.growing.Keeps step
  follows : ∀ {machine plain value after}, split.Linked machine plain →
    step machine = .ok value after → split.Bounded after →
    ∃ plainAfter, other plain = .ok value plainAfter ∧ split.Linked after plainAfter

variable {split : Split} {α β : Type}

theorem Reads.pure (value : α) : split.Reads (Pure.pure value) where
  unchanged ran := (Step.pure_eq_ok.1 ran).2.symm
  agrees _ ran := by simpa using ran

theorem Reads.stuck : split.Reads (Step.stuck : Step Machine α) where
  unchanged ran := by simp at ran
  agrees _ ran := by simp at ran

theorem Reads.deopt : split.Reads (Step.deopt : Step Machine α) where
  unchanged ran := by simp at ran
  agrees _ ran := by simp at ran

variable {step : Step Machine α}

theorem Reads.bind {next : α → Step Machine β} (first : split.Reads step)
    (rest : ∀ value, split.Reads (next value)) : split.Reads (step >>= next) where
  unchanged ran := by
    obtain ⟨value, between, start, finish⟩ := Step.bind_eq_ok.1 ran
    obtain rfl := first.unchanged start
    exact (rest value).unchanged finish
  agrees linked ran := by
    obtain ⟨value, between, start, finish⟩ := Step.bind_eq_ok.1 ran
    obtain rfl := first.unchanged start
    rw [Step.bind_of_ok (first.agrees linked start)]
    exact (rest value).agrees linked finish

theorem Reads.read (apart : ¬ split.Accumulates id) :
    split.Reads (Machine.read id) where
  unchanged ran := (Machine.read_eq_ok.1 ran).2
  agrees linked ran := by
    rw [Machine.read_eq_ok, linked.elsewhere id apart] at ran
    exact Machine.read_eq_ok.2 ⟨ran.1, rfl⟩

theorem Linked.array (linked : split.Linked machine plain) {buffer : Option Nat}
    (held : machine.slots[id]? = some (.array buffer)) :
    plain.slots[id]? = some (.array buffer) := by
  by_cases accumulates : split.Accumulates id
  · obtain ⟨reduction, member, rfl⟩ := accumulates
    obtain ⟨part, _, scalar, _⟩ := linked.balanced reduction member
    rw [held] at scalar
    cases scalar
  · rw [← linked.elsewhere id accumulates, held]

theorem Reads.length (id : LocalId) : split.Reads (Machine.length id) where
  unchanged ran := by
    unfold Machine.length at ran
    split at ran <;> simp_all
  agrees {machine plain value} linked ran := by
    unfold Machine.length at ran ⊢
    split at ran
    · rename_i index held
      simp_all [linked.array held, linked.shared]
    · rename_i held
      simp_all [linked.array held]
    · cases ran

theorem Reads.buffer (id : LocalId) : split.Reads (Machine.buffer id) where
  unchanged ran := by
    unfold Machine.buffer at ran
    split at ran <;> simp_all
  agrees {machine plain value} linked ran := by
    unfold Machine.buffer at ran ⊢
    split at ran
    · rename_i index held
      simp_all [linked.array held, linked.shared]
    · rename_i held
      simp_all [linked.array held]
    · cases ran

theorem Reads.load (id : LocalId) (position : Nat) : split.Reads (Machine.load id position) :=
  (Reads.buffer id).bind fun elements => by
    cases elements[position]? with
    | none => exact Reads.stuck
    | some value => exact Reads.pure value

theorem Reads.of_constant (constant : step.Constant) :
    split.Reads step := by
  cases constant with
  | pure value => exact Reads.pure value
  | deopt => exact Reads.deopt
  | stuck => exact Reads.stuck

/-- An expression that neither calls nor reads an accumulator. -/
def Avoids (split : Split) (expr : Expr) : Prop :=
  ∀ node ∈ expr.nodes, node.isCall = false ∧ ∀ id ∈ node.var?, ¬ split.Accumulates id

def reading (split : Split) : Likeness where
  Alike step _ := split.Reads step
  constant := .of_constant
  sequence := .bind
  exhausted := ⟨nofun, nofun⟩

theorem Reads.eval (call : Callee) (avoids : split.Avoids expr) :
    split.Reads (Native.eval call expr) := by
  have accesses : ∀ node ∈ expr.nodes, split.reading.Access call call node := by
    intro node member
    cases node with
    | var id => exact Reads.read ((avoids _ member).2 id rfl)
    | len array => exact Reads.length array
    | index array element position =>
      exact fun inner => .index inner (Reads.length array) (Reads.load array)
    | call => cases (avoids _ member).1
    | _ => trivial
  exact Likeness.Alike.eval accesses

theorem Mirrors.of_reads (reads : split.Reads step) :
    split.Mirrors step step where
  grows := .of_unchanged reads.unchanged
  follows {machine plain value after} linked ran _ := by
    obtain rfl := reads.unchanged ran
    exact ⟨plain, reads.agrees linked ran, linked⟩

theorem Mirrors.bind {other : Step Machine α} {next otherNext : α → Step Machine β}
    (first : split.Mirrors step other) (rest : ∀ value, split.Mirrors (next value) (otherNext value)) :
    split.Mirrors (step >>= next) (other >>= otherNext) where
  grows := first.grows.bind fun value => (rest value).grows
  follows linked ran bounded := by
    obtain ⟨value, between, start, finish⟩ := Step.bind_eq_ok.1 ran
    have early := bounded.of_grown ((rest value).grows.after finish)
    obtain ⟨plainBetween, plainStart, still⟩ := first.follows linked start early
    obtain ⟨plainAfter, plainFinish, last⟩ := (rest value).follows still finish bounded
    exact ⟨plainAfter, by rw [Step.bind_of_ok plainStart, plainFinish], last⟩

theorem Linked.lt_size (linked : split.Linked machine plain) (apart : ¬ split.Accumulates id)
    (inside : id < machine.slots.size) : id < plain.slots.size := by
  have same := linked.elsewhere id apart
  rw [Array.getElem?_eq_getElem inside] at same
  exact (Array.getElem?_eq_some_iff.1 same.symm).1

theorem Linked.set (linked : split.Linked machine plain) (apart : ¬ split.Accumulates id)
    (inside : id < machine.slots.size) (slot : Slot) :
    split.Linked { machine with slots := machine.slots.setIfInBounds id slot }
      { plain with slots := plain.slots.setIfInBounds id slot } where
  elsewhere other away := by
    have plainInside := linked.lt_size apart inside
    simp only [Array.getElem?_setIfInBounds, inside, plainInside, linked.elsewhere other away]
  shared := linked.shared
  untracked := linked.untracked
  tracked := linked.tracked
  balanced reduction member := by
    have other : id ≠ reduction.acc := fun same => apart ⟨reduction, member, same.symm⟩
    simp only [Array.getElem?_setIfInBounds_ne other]
    exact linked.balanced reduction member

theorem Mirrors.write (apart : ¬ split.Accumulates id) (value : Scalar) :
    split.Mirrors (Machine.write id value) (Machine.write id value) where
  grows := growing_write id value
  follows linked ran _ := by
    obtain ⟨inside, rfl⟩ := Machine.write_eq_ok.1 ran
    exact ⟨_, Machine.write_eq_ok.2 ⟨linked.lt_size apart inside, rfl⟩, linked.set apart inside _⟩

theorem Mirrors.store (id : LocalId) (position : Nat) (value : Scalar) :
    split.Mirrors (Machine.store id position value) (Machine.store id position value) where
  grows := growing_store id position value
  follows {machine plain result after} linked ran _ := by
    unfold Machine.store at ran ⊢
    split at ran
    · rename_i index held
      cases ran
      simp only [linked.array held]
      refine ⟨_, rfl, linked.elsewhere, ?_, linked.untracked, linked.tracked, linked.balanced⟩
      simp only [linked.shared]
    · cases ran

theorem Mirrors.of_failing {failing other : Step Machine α}
    (fails : ∀ {machine value after}, failing machine ≠ .ok value after) :
    split.Mirrors failing other where
  grows := ⟨fun ran => absurd ran fails⟩
  follows _ ran := absurd ran fails

theorem Reads.readInt (apart : ¬ split.Accumulates id) : split.Reads (Machine.readInt id) :=
  (Reads.read apart).bind fun value => by
    cases value with
    | int value => exact .pure value
    | float | bool => exact .stuck

def mirroring (split : Split) : Likeness where
  Alike := split.Mirrors
  constant constant := .of_reads (.of_constant constant)
  sequence := .bind
  exhausted := .of_failing nofun

theorem mirroring_grants (enough : fuel ≤ more) : split.mirroring.Grants fuel more :=
  .inr ⟨enough, .of_failing nofun⟩

theorem mirroring_counts (apart : ¬ split.Accumulates head.var) : split.mirroring.Counts head :=
  ⟨fun _ => .write apart _, fun _ => .of_reads (.readInt apart)⟩

end Split
end Native
end TwoTier
