import Mathlib.Algebra.Order.Ring.Int
import TwoTier.Native.Instruction

/-! The instruction sequences compute what exact arithmetic of words says. -/

namespace TwoTier

theorem Word.fit?_eq_some_iff (i : Int) (z : Int64) : fit? i = some z ↔ z.toInt = i := by
  have low := z.minValue_le_toInt
  have high := z.toInt_le
  unfold fit?
  constructor
  · intro found
    split at found
    · rename_i inside
      rw [Int64.toInt_maxValue] at inside
      rw [← Option.some.inj found]
      exact Int64.toInt_ofInt_of_le inside.1 (by omega)
    · cases found
  · rintro rfl
    rw [if_pos ⟨low, high⟩, Int64.ofInt_toInt]

theorem Word.fit?_eq_none_iff (i : Int) : fit? i = none ↔ i < -2 ^ 63 ∨ 2 ^ 63 ≤ i := by
  unfold fit?
  rw [Int64.toInt_minValue, Int64.toInt_maxValue]
  split <;> simp <;> omega

theorem Word.exists_fit {i : Int} (low : -2 ^ 63 ≤ i) (high : i < 2 ^ 63) :
    ∃ z, fit? i = some z := by
  cases found : fit? i with
  | some z => exact ⟨z, rfl⟩
  | none =>
    have outside := (fit?_eq_none_iff i).1 found
    omega

/-- What a word holds of an integer, without the conditional of the balanced remainder. -/
theorem bmod_word (z : Int) :
    z.bmod (2 ^ 64) = z % 2 ^ 64 ∧ z % 2 ^ 64 < 2 ^ 63 ∨
      z.bmod (2 ^ 64) = z % 2 ^ 64 - 2 ^ 64 ∧ 2 ^ 63 ≤ z % 2 ^ 64 := by
  rw [Int.bmod_def]
  split <;> omega

namespace Native

theorem neg_iff_msb (x : Int64) : x < 0 ↔ x.toBitVec.msb = true := by
  rw [Int64.lt_iff_toInt_lt, BitVec.msb_eq_toInt]
  simp

theorem addOverflows_iff (x y : Int64) :
    addOverflows x y (x + y) = true ↔ Word.add? x y = none := by
  have overflow : x.toBitVec.saddOverflow y.toBitVec = true ↔
      x.toInt + y.toInt < -2 ^ 63 ∨ 2 ^ 63 ≤ x.toInt + y.toInt := by
    simp [BitVec.saddOverflow, or_comm]
  rw [Word.add?, Word.fit?_eq_none_iff, ← overflow, BitVec.saddOverflow_eq, addOverflows,
    decide_eq_true_iff, neg_iff_msb]
  simp only [Int64.toBitVec_and, Int64.toBitVec_xor, Int64.toBitVec_add, BitVec.msb_and,
    BitVec.msb_xor]
  -- only the three sign bits matter from here on
  generalize (x.toBitVec + y.toBitVec).msb = sign
  cases x.toBitVec.msb <;> cases y.toBitVec.msb <;> cases sign <;> decide

theorem checkedAdd_eq (x y : Int64) : checkedAdd x y = Word.add? x y := by
  unfold checkedAdd
  cases fits : Word.add? x y with
  | none => simp [(addOverflows_iff x y).2 fits]
  | some z =>
    have inside : ¬ addOverflows x y (x + y) = true := by simp [addOverflows_iff, fits]
    have exact : x + y = z := by
      rw [Word.add?, Word.fit?_eq_some_iff] at fits
      rw [← Int64.toInt_inj, Int64.toInt_add, ← fits]
      exact Int64.toInt_bmod ..
    rw [if_neg inside, exact]

theorem subOverflows_iff (x y : Int64) :
    (x ^^^ y) &&& (x ^^^ (x - y)) < 0 ↔ Word.sub? x y = none := by
  have overflow : x.toBitVec.ssubOverflow y.toBitVec = true ↔
      x.toInt - y.toInt < -2 ^ 63 ∨ 2 ^ 63 ≤ x.toInt - y.toInt := by
    simp [BitVec.ssubOverflow, or_comm]
  rw [Word.sub?, Word.fit?_eq_none_iff, ← overflow, BitVec.ssubOverflow_eq, neg_iff_msb]
  simp only [Int64.toBitVec_and, Int64.toBitVec_xor, Int64.toBitVec_sub, BitVec.msb_and,
    BitVec.msb_xor]
  generalize (x.toBitVec - y.toBitVec).msb = sign
  cases x.toBitVec.msb <;> cases y.toBitVec.msb <;> cases sign <;> decide

theorem checkedSub_eq (x y : Int64) : checkedSub x y = Word.sub? x y := by
  unfold checkedSub
  cases fits : Word.sub? x y with
  | none => simp [(subOverflows_iff x y).2 fits]
  | some z =>
    have inside : ¬ (x ^^^ y) &&& (x ^^^ (x - y)) < 0 := by simp [subOverflows_iff, fits]
    have exact : x - y = z := by
      rw [Word.sub?, Word.fit?_eq_some_iff] at fits
      rw [← Int64.toInt_inj, Int64.toInt_sub, ← fits]
      exact Int64.toInt_bmod ..
    rw [if_neg inside, exact]

theorem toNat_toUInt64 (x : Int64) : (x.toUInt64.toNat : Int) = x.toInt % 2 ^ 64 := by
  have wrapped : x.toInt = (x.toUInt64.toNat : Int).bmod (2 ^ 64) :=
    BitVec.toInt_eq_toNat_bmod x.toBitVec
  have small := x.toUInt64.toNat_lt
  have unwrapped := bmod_word x.toUInt64.toNat
  omega

theorem elementPosition_of_inside {index : Int64} (low : 0 ≤ index.toInt)
    (high : index.toInt < length.toInt) :
    elementPosition index length = some index.toUInt64.toNat := by
  have first := toNat_toUInt64 index
  have second := toNat_toUInt64 length
  have bounded := length.toInt_lt
  have positive : ¬ index < 0 := by
    rw [Int64.lt_iff_toInt_lt, Int64.toInt_zero]
    omega
  have inside : ¬ index.toUInt64 ≥ length.toUInt64 := by
    rw [ge_iff_le, UInt64.le_iff_toNat_le]
    omega
  simp [elementPosition, positive, inside]

theorem toInt_toInt64 (x : UInt64) : x.toInt64.toInt = (x.toNat : Int).bmod (2 ^ 64) :=
  BitVec.toInt_eq_toNat_bmod x.toBitVec

theorem toNat_unsignedAbs (x : Int64) : (unsignedAbs x).toNat = x.toInt.natAbs := by
  have low := x.le_toInt
  have high := x.toInt_lt
  have kept := toNat_toUInt64 x
  have negated := toNat_toUInt64 (-x)
  rw [Int64.toInt_neg] at negated
  have unwrapped := bmod_word (-x.toInt)
  unfold unsignedAbs
  split
  · rename_i negative
    rw [Int64.lt_iff_toInt_lt, Int64.toInt_zero] at negative
    omega
  · rename_i nonneg
    rw [Int64.lt_iff_toInt_lt, Int64.toInt_zero] at nonneg
    omega

/-- How far an update moves is exact, also where the difference wraps. -/
theorem natAbs_sub_of_moved {before after : Int64} {moved : Int} (near : moved.natAbs ≤ 2 ^ 63)
    (exact : after.toInt = before.toInt + moved) : (after - before).toInt.natAbs = moved.natAbs := by
  have unwrapped := bmod_word moved
  have cancelled : before.toInt + moved - before.toInt = moved := by omega
  rw [Int64.toInt_sub, exact, cancelled]
  omega

/-- A total of distances that has not wrapped is exact, whatever the update moved by. -/
theorem toNat_of_addDistance {sum : UInt64} {before after : Int64} {moved : Int}
    (near : moved.natAbs ≤ 2 ^ 63) (exact : after.toInt = before.toInt + moved)
    (added : addDistance total before after = some sum) :
    sum.toNat = total.toNat + moved.natAbs := by
  have change := natAbs_sub_of_moved near exact
  simp only [addDistance] at added
  split at added
  · cases added
  · obtain rfl := Option.some.inj added
    rw [UInt64.lt_iff_toNat_lt, UInt64.toNat_add, toNat_unsignedAbs] at *
    omega

theorem addDistance_le {sum : UInt64} {before after : Int64}
    (added : addDistance total before after = some sum) : total ≤ sum := by
  simp only [addDistance] at added
  split at added
  · cases added
  · rename_i whole
    obtain rfl := Option.some.inj added
    exact UInt64.not_lt.mp whole

theorem staysInRange_iff (base : Int64) (total : UInt64) :
    staysInRange base total = true ↔ base.toInt.natAbs + total.toNat < 2 ^ 63 := by
  have small := total.toNat_lt
  have unwrapped := bmod_word ((base.toInt.natAbs + total.toNat) % 2 ^ 64 : Nat)
  simp only [staysInRange, Bool.and_eq_true, Bool.not_eq_true', decide_eq_false_iff_not,
    UInt64.lt_iff_toNat_lt, Int64.lt_iff_toInt_lt, toInt_toInt64, UInt64.toNat_add,
    toNat_unsignedAbs, Int64.toInt_zero]
  omega

theorem eq_of_fit? {i : Int} {w z : Int64} (wrapped : w.toInt = i.bmod (2 ^ 64))
    (fits : Word.fit? i = some z) : w = z := by
  rw [Word.fit?_eq_some_iff] at fits
  rw [← Int64.toInt_inj, wrapped, ← fits]
  exact Int64.toInt_bmod ..

section Shift

variable {x count : Int64} (low : 0 ≤ count.toInt) (high : count.toInt < 64)

include low high

theorem toNat_smod : (count.toBitVec.smod 64).toNat = count.toInt.toNat := by
  have kept : (count.toBitVec.smod 64).toInt = count.toInt := by
    rw [BitVec.toInt_smod]
    exact Int.fmod_eq_of_lt low high
  have := BitVec.toInt_eq_toNat_cond (count.toBitVec.smod 64)
  split at * <;> omega

theorem toInt_shiftRight : (x >>> count).toInt = x.toInt / 2 ^ count.toInt.toNat := by
  rw [← Int64.toInt_toBitVec, Int64.toBitVec_shiftRight, BitVec.toInt_sshiftRight',
    toNat_smod low high, Int.shiftRight_eq_div_pow]
  norm_cast

end Shift

theorem toInt_sshiftRight_63 (x : Int64) :
    (x >>> 63).toInt = if x.toInt < 0 then -1 else 0 := by
  have low := x.le_toInt
  have high := x.toInt_lt
  have edge : (63 : Int64).toInt.toNat = 63 := by decide
  rw [toInt_shiftRight (by decide) (by decide), edge]
  split <;> omega

theorem toInt_mulHigh (x y : Int64) : (mulHigh x y).toInt = x.toInt * y.toInt / 2 ^ 64 := by
  have lowX := x.le_toInt
  have highX := x.toInt_lt
  have lowY := y.le_toInt
  have highY := y.toInt_lt
  have bounded : (x.toInt * y.toInt).natAbs ≤ 2 ^ 63 * 2 ^ 63 := by
    rw [Int.natAbs_mul]
    exact Nat.mul_le_mul (by omega) (by omega)
  have shifted : (x.toInt * y.toInt).shiftRight 64 = x.toInt * y.toInt / 2 ^ 64 :=
    Int.shiftRight_eq_div_pow _ _
  rw [mulHigh, shifted]
  exact Int64.toInt_ofInt_of_le (by omega) (by omega)

theorem mulHigh_eq_iff (x y : Int64) :
    mulHigh x y = (x * y) >>> 63 ↔ ∃ z, Word.mul? x y = some z := by
  have upper := toInt_mulHigh x y
  have sign := toInt_sshiftRight_63 (x * y)
  have wrapped := Int64.toInt_mul x y
  have unwrapped := bmod_word (x.toInt * y.toInt)
  rw [← Int64.toInt_inj, sign]
  constructor
  · intro same
    apply Word.exists_fit
    · split at same <;> omega
    · split at same <;> omega
  · rintro ⟨z, fits⟩
    rw [Word.mul?, Word.fit?_eq_some_iff] at fits
    have low := z.le_toInt
    have high := z.toInt_lt
    split <;> omega

theorem checkedMul_eq (x y : Int64) : checkedMul x y = Word.mul? x y := by
  unfold checkedMul
  cases fits : Word.mul? x y with
  | none =>
    have outside : mulHigh x y ≠ (x * y) >>> 63 := by
      intro inside
      obtain ⟨z, found⟩ := (mulHigh_eq_iff x y).1 inside
      rw [fits] at found
      cases found
    rw [if_pos outside]
  | some z =>
    have inside := (mulHigh_eq_iff x y).2 ⟨z, fits⟩
    rw [if_neg (not_not_intro inside), eq_of_fit? (Int64.toInt_mul x y) fits]

theorem checkedNeg_eq (x : Int64) : checkedNeg x = Word.neg? x := by
  unfold checkedNeg
  by_cases least : x = Int64.minValue
  · rw [least]
    decide
  · rw [if_neg least]
    have low := x.le_toInt
    have high := x.toInt_lt
    rw [← Int64.toInt_inj, Int64.toInt_minValue] at least
    obtain ⟨z, fits⟩ := Word.exists_fit (i := -x.toInt) (by omega) (by omega)
    rw [Word.neg?, fits, eq_of_fit? (Int64.toInt_neg x) fits]

theorem checkedAbs_eq (x : Int64) : checkedAbs x = Word.abs? x := by
  unfold checkedAbs
  by_cases least : x = Int64.minValue
  · rw [least]
    decide
  · rw [if_neg least]
    by_cases negative : x < 0
    · have neg := checkedNeg_eq x
      rw [checkedNeg, if_neg least] at neg
      rw [if_pos negative, neg, Word.neg?]
      rw [Int64.lt_iff_toInt_lt, Int64.toInt_zero] at negative
      congr 1
      omega
    · rw [if_neg negative, Word.abs?, eq_comm, Word.fit?_eq_some_iff]
      rw [Int64.lt_iff_toInt_lt, Int64.toInt_zero] at negative
      omega

theorem decide_neg_eq_msb (x : Int64) : decide (x < 0) = x.toBitVec.msb := by
  rw [Bool.eq_iff_iff, decide_eq_true_iff]
  exact neg_iff_msb x

theorem xor_neg_iff (x y : Int64) :
    x ^^^ y < 0 ↔ (decide (x < 0) != decide (y < 0)) = true := by
  rw [neg_iff_msb, Int64.toBitVec_xor, BitVec.msb_xor, decide_neg_eq_msb, decide_neg_eq_msb]

theorem roundsUp_iff (r y : Int64) :
    roundsUp r y = true ↔ r ≠ 0 ∧ (decide (r < 0) != decide (y < 0)) = true := by
  simp only [roundsUp, Bool.and_eq_true, decide_eq_true_iff, xor_neg_iff]

theorem mod_neg_iff {x y : Int64} (nonzero : x % y ≠ 0) : x % y < 0 ↔ x < 0 := by
  rw [← Int64.toInt_inj.ne, Int64.toInt_mod, Int64.toInt_zero] at nonzero
  rw [Int64.lt_iff_toInt_lt, Int64.lt_iff_toInt_lt, Int64.toInt_mod, Int64.toInt_zero]
  constructor
  · intro negative
    by_contra nonneg
    have := Int.tmod_nonneg y.toInt (not_lt.1 nonneg)
    omega
  · intro negative
    have flipped := Int.neg_tmod x.toInt y.toInt
    have := Int.tmod_nonneg y.toInt (a := -x.toInt) (by omega)
    omega

theorem floorRemainder_eq (x y : Int64) :
    floorRemainder x y = (Word.floorMod x y).toOption := by
  unfold floorRemainder Word.floorMod
  by_cases zero : y = 0
  · rw [if_pos zero, if_pos zero]
    rfl
  · rw [if_neg zero]
    by_cases minus : y = -1
    · subst minus
      have none' : x % -1 = 0 := by
        rw [← Int64.toInt_inj, Int64.toInt_mod]
        exact (Int.tmod_neg x.toInt 1).trans (Int.tmod_one _)
      simp [safeDivisor, none', roundsUp, Except.toOption]
    · have same := roundsUp_iff (x % y) y
      simp only [safeDivisor, if_neg minus]
      split <;> split <;> simp_all [Except.toOption]

theorem div_neg_one (x : Int64) : x / -1 = -x := by
  have minus : (-1 : Int64).toInt = -1 := by decide
  rw [← Int64.toInt_inj, Int64.toInt_div, minus, Int.tdiv_neg, Int.tdiv_one, Int64.toInt_neg]

theorem floorQuotient_eq (x y : Int64) :
    floorQuotient x y = (Word.floorDiv x y).toOption := by
  unfold floorQuotient Word.floorDiv
  by_cases zero : y = 0
  · rw [if_pos zero, if_pos zero]
    rfl
  · rw [if_neg zero]
    by_cases minus : y = -1
    · subst minus
      have none : x % -1 = 0 := by
        rw [← Int64.toInt_inj, Int64.toInt_mod]
        exact (Int.tmod_neg x.toInt 1).trans (Int.tmod_one _)
      by_cases least : x = Int64.minValue
      · simp [least, Except.toOption]
      · simp [least, none, div_neg_one x, Except.toOption]
    · have same := roundsUp_iff (x % y) y
      have sign := @mod_neg_iff x y
      simp only [safeDivisor]
      by_cases exact : x % y = 0
      · simp_all [Except.toOption]
      · split <;> split <;> simp_all [Except.toOption, Int64.sub_eq_add_neg]

theorem checkedShr_eq (x y : Int64) : checkedShr x y = (Word.shiftRight x y).toOption := by
  unfold checkedShr Word.shiftRight clampShift
  by_cases negative : y < 0
  · rw [if_pos negative, if_pos negative]
    rfl
  · rw [if_neg negative, if_neg negative]
    by_cases small : y < 63
    · have inside : ¬ y > 63 := by
        rw [gt_iff_lt, Int64.lt_iff_toInt_lt] at *
        omega
      rw [if_neg inside, if_pos small]
      rfl
    · by_cases edge : y = 63
      · subst edge
        rfl
      · have beyond : y > 63 := by
          rw [gt_iff_lt, Int64.lt_iff_toInt_lt] at *
          rw [← Int64.toInt_inj] at edge
          omega
        rw [if_pos beyond, if_neg small]
        rfl

theorem checkedShl_eq (x y : Int64) : checkedShl x y = (Word.shiftLeft x y).toOption := by
  unfold checkedShl Word.shiftLeft clampShift
  by_cases negative : y < 0
  · rw [if_pos negative, if_pos negative]
    rfl
  · rw [if_neg negative, if_neg negative]
    by_cases large : y > 63
    · have past : y ≥ 64 := by
        rw [ge_iff_le, Int64.le_iff_toInt_le]
        rw [gt_iff_lt, Int64.lt_iff_toInt_lt] at large
        exact large
      have outside : ¬ y ≤ 63 := Int64.not_le.2 large
      by_cases zero : x = 0
      · subst zero
        simp [Except.toOption]
      · simp [outside, zero, past, Except.toOption]
    · have inside : y ≤ 63 := Int64.not_lt.1 large
      have below : ¬ y ≥ 64 := by
        rw [ge_iff_le, Int64.le_iff_toInt_le]
        rw [Int64.le_iff_toInt_le] at inside
        intro past
        have := inside.trans (show (63 : Int64).toInt ≤ 63 from by decide)
        have := (show (64 : Int) ≤ (64 : Int64).toInt from by decide).trans past
        omega
      by_cases zero : x = 0
      · subst zero
        simp [Except.toOption]
      · by_cases kept : (x <<< y) >>> y = x
        · simp [large, below, zero, kept, Except.toOption]
        · simp [large, zero, kept, Except.toOption]

theorem toNat_magnitude (x : Int64) : (Word.magnitude x).toNat = x.toInt.natAbs := by
  have same : Word.magnitude x = unsignedAbs x := by
    unfold Word.magnitude unsignedAbs
    split <;> rfl
  rw [same, toNat_unsignedAbs]

/-- The test of one comparison finds the integers that convert without rounding. -/
theorem fitsExactly_eq (x : Int64) : fitsExactly x = Binary64.isExact x := by
  have low := x.le_toInt
  have high := x.toInt_lt
  have limit : Binary64.exactLimit.toInt = 2 ^ 53 := by decide
  have bound : (2 * Binary64.exactLimit).toUInt64.toNat = 2 ^ 54 := by decide
  have bound' : Binary64.exactLimit.toUInt64.toNat = 2 ^ 53 := by decide
  have moved := toNat_toUInt64 (x + Binary64.exactLimit)
  rw [Int64.toInt_add, limit] at moved
  have unwrapped := bmod_word (x.toInt + 2 ^ 53)
  rw [Bool.eq_iff_iff, fitsExactly, Binary64.isExact, decide_eq_true_iff, decide_eq_true_iff,
    UInt64.le_iff_toNat_le, UInt64.le_iff_toNat_le, toNat_magnitude, bound, bound']
  omega

end Native
end TwoTier
