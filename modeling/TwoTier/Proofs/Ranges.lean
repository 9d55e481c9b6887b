import TwoTier.Proofs.Instruction
import TwoTier.Proofs.Progression
import TwoTier.Proofs.Run

/-! A range of the interpreter holds exactly the integers of a progression. -/

namespace TwoTier

namespace Interp
namespace RangeValue

variable {range : RangeValue}

theorem nth_eq (range : RangeValue) (position : Nat) :
    range.nth position = Int64.ofInt (range.start.toInt + position * range.step.toInt) := by
  rw [Int64.ofInt_add, Int64.ofInt_mul, Int64.ofInt_toInt, Int64.ofInt_toInt]
  rfl

/-- An element lies between two words, so the word at its position is exact. -/
theorem toInt_nth (moves : range.step.toInt ≠ 0)
    (inside : k < extent range.start.toInt range.stop.toInt range.step.toInt) :
    (range.nth k).toInt = range.start.toInt + k * range.step.toInt := by
  have between := between_of_lt_extent moves inside
  have startLow := range.start.le_toInt
  have startHigh := range.start.toInt_lt
  have stopLow := range.stop.le_toInt
  have stopHigh := range.stop.toInt_lt
  rw [nth_eq]
  exact Int64.toInt_ofInt_of_le (by omega) (by omega)

theorem contains_iff (moves : range.step.toInt ≠ 0) (x : Int64) :
    range.contains x = true ↔
      ∃ k : Nat, k < extent range.start.toInt range.stop.toInt range.step.toInt ∧
        range.start.toInt + k * range.step.toInt = x.toInt := by
  have inside : range.contains x = true ↔
      (Before range.step.toInt x.toInt range.stop.toInt ∧
        (if 0 < range.step.toInt then range.start.toInt ≤ x.toInt else x.toInt ≤ range.start.toInt)) ∧
      range.step.toInt ∣ x.toInt - range.start.toInt := by
    simp only [contains, Before, gt_iff_lt, Int64.lt_iff_toInt_lt, Int64.le_iff_toInt_le,
      Int64.toInt_zero, Int.dvd_iff_tmod_eq_zero]
    split <;> simp [and_comm]
  rw [inside]
  constructor
  · rintro ⟨⟨before, past⟩, q, exact⟩
    have forward : 0 ≤ q := by
      by_contra negative
      split at past
      · have := Int.mul_neg_of_pos_of_neg ‹_› (Int.not_le.1 negative)
        omega
      · have := Int.mul_pos_of_neg_of_neg (a := range.step.toInt) (by omega) (Int.not_le.1 negative)
        omega
    have reached : range.start.toInt + q.toNat * range.step.toInt = x.toInt := by
      rw [Int.toNat_of_nonneg forward, Int.mul_comm]
      omega
    exact ⟨q.toNat, (lt_extent_iff moves _).2 (reached ▸ before), reached⟩
  · rintro ⟨k, counted, reached⟩
    have between := between_of_lt_extent moves counted
    have before := (lt_extent_iff moves k).1 counted
    rw [reached] at before between
    refine ⟨⟨before, ?_⟩, k, by rw [Int.mul_comm]; omega⟩
    unfold Before at before
    split at before <;> simp only [*, ↓reduceIte] <;> omega

/-- The length is exact unless the step has no opposite or the count no word. -/
theorem toInt_length (moves : range.step.toInt ≠ 0) (opposite : range.step ≠ Int64.minValue)
    (few : extent range.start.toInt range.stop.toInt range.step.toInt < 2 ^ 63) :
    range.length.toInt = extent range.start.toInt range.stop.toInt range.step.toInt := by
  have exact {low high step : Int} (up : 0 < step) (below : low < high)
      (few : ((high - low - 1) / step + 1).toNat < 2 ^ 63) :
      (Int64.ofInt ((high - low - 1).tdiv step + 1)).toInt = ((high - low - 1) / step + 1).toNat := by
    have wide : 0 ≤ high - low - 1 := by omega
    have := Int.ediv_nonneg wide (Int.le_of_lt up)
    rw [Int.tdiv_eq_ediv_of_nonneg wide, Int64.toInt_ofInt_of_le (by omega) (by omega)]
    omega
  unfold length
  by_cases up : 0 < range.step.toInt
  · have ascending : range.step > 0 := Int64.lt_iff_toInt_lt.2 up
    rw [if_pos ascending]
    by_cases below : range.start.toInt < range.stop.toInt
    · have some : ¬ range.start ≥ range.stop := by rw [ge_iff_le, Int64.le_iff_toInt_le]; omega
      simp only [some]
      simp only [extent, up] at few ⊢
      exact exact up below few
    · have empty : range.start ≥ range.stop := by rw [ge_iff_le, Int64.le_iff_toInt_le]; omega
      have past : ¬ Before range.step.toInt range.start.toInt range.stop.toInt := by
        simpa [Before, up] using below
      simp [empty, extent_of_not_before moves past]
  · have descending : ¬ range.step > 0 := fun above => up (Int64.lt_iff_toInt_lt.1 above)
    have negated : (-range.step).toInt = -range.step.toInt := by
      have low := range.step.le_toInt
      have unwrapped := bmod_word (-range.step.toInt)
      rw [← Int64.toInt_inj.ne, Int64.toInt_minValue] at opposite
      rw [Int64.toInt_neg]
      omega
    rw [if_neg descending]
    by_cases below : range.stop.toInt < range.start.toInt
    · have some : ¬ range.stop ≥ range.start := by rw [ge_iff_le, Int64.le_iff_toInt_le]; omega
      simp only [some, negated]
      simp only [extent, up] at few ⊢
      exact exact (by omega) below few
    · have empty : range.stop ≥ range.start := by rw [ge_iff_le, Int64.le_iff_toInt_le]; omega
      have past : ¬ Before range.step.toInt range.start.toInt range.stop.toInt := by
        simpa [Before, up] using below
      simp [empty, extent_of_not_before moves past]

end RangeValue

theorem overRange_eq (step : Value → Run σ (Option Flow)) (range : RangeValue) (count k : Nat) :
    overRange step range count k =
      overItems step ((progression (range.start.toInt + k * range.step.toInt) range.step.toInt
        count).map .int) := by
  induction count generalizing k with
  | zero => rfl
  | succ count ih =>
    have shifted : range.start.toInt + k * range.step.toInt + range.step.toInt =
        range.start.toInt + (k + 1 : Nat) * range.step.toInt := by
      push_cast
      rw [Int.add_mul]
      omega
    rw [overRange_succ, ih, progression_succ, List.map_cons, overItems_cons, shifted,
      RangeValue.nth_eq]

/-- A range holds the integers of its progression that come before the stop: so it is for elements
and membership under every step, and for the length and for iteration where the step has an opposite
and the count is a word. Limits of memory are left out: whatever is collected is taken to fit. -/
theorem range_exact (range : RangeValue) (moves : range.step ≠ 0) :
    ∃ count : Nat, (∀ k : Nat, k < count ↔
        Before range.step.toInt (range.start.toInt + k * range.step.toInt) range.stop.toInt) ∧
      (∀ k < count, (range.nth k).toInt = range.start.toInt + k * range.step.toInt) ∧
      (∀ (x : Int64) (heap : Heap), ∃ found, contains (.range range) (.int x) heap = .ok found heap ∧
        (found = true ↔ ∃ k < count, range.start.toInt + k * range.step.toInt = x.toInt)) ∧
      (range.step ≠ Int64.minValue → count < 2 ^ 63 → range.length.toInt = count ∧
        (∀ heap, iterate (.range range) heap =
          .ok ((progression range.start.toInt range.step.toInt count).map Value.int).toArray heap) ∧
        ∀ {τ : Type} (ctx : Context τ) (step : Value → Run (Frame τ) (Option Flow)),
          overValue ctx step (.range range) = overItems step
            ((progression range.start.toInt range.step.toInt count).map Value.int)) := by
  have moves : range.step.toInt ≠ 0 := fun zero => moves (Int64.toInt_inj.1 zero)
  refine ⟨_, lt_extent_iff moves, fun k => RangeValue.toInt_nth moves,
    fun x heap => ⟨_, rfl, RangeValue.contains_iff moves x⟩, fun opposite few => ?_⟩
  have length := RangeValue.toInt_length moves opposite few
  have count : range.count = extent range.start.toInt range.stop.toInt range.step.toInt := by
    rw [RangeValue.count, length, Int.toNat_natCast]
  refine ⟨length, fun heap => ?_, fun ctx step => ?_⟩
  · change Result.ok ((List.range range.count).map fun k => Value.int (range.nth k)).toArray heap = _
    simp only [count, progression, List.map_map, RangeValue.nth_eq]
    rfl
  · change overRange step range range.count 0 = _
    rw [overRange_eq, count]
    simp

/-- Three elements that are as far apart as words can be. -/
def extremes : RangeValue := ⟨Int64.maxValue, Int64.minValue, -Int64.maxValue⟩

theorem range_exact_extremes : extremes.step ≠ 0 ∧ extremes.length.toInt = 3 ∧
    ∀ heap, iterate (.range extremes) heap =
      .ok #[.int Int64.maxValue, .int 0, .int (-Int64.maxValue)] heap := by
  obtain ⟨count, counts, -, -, listed⟩ := range_exact extremes (by decide)
  have two : 2 < count := (counts 2).2 (by decide)
  have three : ¬ 3 < count := mt (counts 3).1 (by decide)
  obtain rfl : count = 3 := by omega
  obtain ⟨length, items, -⟩ := listed (by decide) (by decide)
  have words : progression extremes.start.toInt extremes.step.toInt 3 =
      [Int64.maxValue, 0, -Int64.maxValue] := by decide
  refine ⟨by decide, length, fun heap => ?_⟩
  rw [items heap, words]
  rfl

/-- A step without an opposite, and a count beyond words, hide elements that come before the stop. -/
theorem length_hides_elements :
    (Before Int64.minValue.toInt (4611686018427387904 : Int64).toInt Int64.minValue.toInt ∧
      (⟨4611686018427387904, Int64.minValue, Int64.minValue⟩ : RangeValue).length = 0) ∧
    Before 1 Int64.minValue.toInt Int64.maxValue.toInt ∧
      (⟨Int64.minValue, Int64.maxValue, 1⟩ : RangeValue).length = -1 := by
  decide

end Interp
end TwoTier
