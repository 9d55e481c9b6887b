import Mathlib.Algebra.Order.Ring.Int

namespace TwoTier

/-- Whether an integer comes before a limit on the way that the sign of the step gives. -/
def Before (step i limit : Int) : Prop := if 0 < step then i < limit else limit < i

instance (step i limit : Int) : Decidable (Before step i limit) := by
  unfold Before
  infer_instance

/-- How many integers of a progression come before the limit. -/
def extent (start limit step : Int) : Nat :=
  if 0 < step then ((limit - start - 1) / step + 1).toNat
  else ((start - limit - 1) / -step + 1).toNat

section Extent

variable {start limit step : Int} (moves : step ≠ 0)

include moves

theorem lt_extent_iff (k : Nat) :
    k < extent start limit step ↔ Before step (start + k * step) limit := by
  unfold extent Before
  split
  · rename_i up
    have fits := Int.le_ediv_iff_mul_le (a := k) (b := limit - start - 1) up
    omega
  · have down : 0 < -step := by omega
    have fits := Int.le_ediv_iff_mul_le (a := k) (b := start - limit - 1) down
    rw [Int.mul_neg] at fits
    omega

theorem extent_of_before (before : Before step start limit) :
    extent start limit step = extent (start + step) limit step + 1 := by
  have shifted (k : Nat) : start + (k + 1 : Nat) * step = start + step + k * step := by
    push_cast
    rw [Int.add_mul]
    omega
  have same (k : Nat) : k < extent start limit step ↔ k < extent (start + step) limit step + 1 := by
    cases k with
    | zero => simpa [lt_extent_iff moves] using before
    | succ k => rw [Nat.succ_lt_succ_iff, lt_extent_iff moves, lt_extent_iff moves, shifted]
  have less := same (extent start limit step)
  have more := same (extent (start + step) limit step + 1)
  omega

theorem extent_of_not_before (past : ¬ Before step start limit) : extent start limit step = 0 := by
  refine Nat.eq_zero_of_not_pos fun some => past ?_
  simpa using (lt_extent_iff moves 0).1 some

/-- What comes before the limit lies between the start and the limit. -/
theorem between_of_lt_extent (inside : k < extent start limit step) :
    start ≤ start + k * step ∧ start + k * step < limit ∨
      limit < start + k * step ∧ start + k * step ≤ start := by
  have before := (lt_extent_iff moves k).1 inside
  unfold Before at before
  split at before
  · rename_i up
    have := Int.mul_nonneg (Int.natCast_nonneg k) (Int.le_of_lt up)
    omega
  · have := Int.mul_nonneg (a := k) (b := -step) (Int.natCast_nonneg k) (by omega)
    rw [Int.mul_neg] at this
    omega

end Extent

/-- The first words of a progression. -/
def progression (start step : Int) (count : Nat) : List Int64 :=
  (List.range count).map fun k : Nat => Int64.ofInt (start + k * step)

theorem progression_succ (start step : Int) (count : Nat) :
    progression start step (count + 1) =
      Int64.ofInt start :: progression (start + step) step count := by
  unfold progression
  rw [List.range_succ_eq_map, List.map_cons, List.map_map]
  refine congrArg₂ List.cons (by simp) (List.map_congr_left fun k _ => congrArg Int64.ofInt ?_)
  push_cast
  rw [Int.add_mul]
  omega

end TwoTier
