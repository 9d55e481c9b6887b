import Mathlib.Tactic.Linarith
import TwoTier.Proofs.Instruction

/-! Arithmetic of words is exact: it gives the word of the value, and a fault where there is
none. -/

namespace TwoTier.Word

open Native (toInt_shiftRight toNat_smod)

/-- The word that holds an integer, or the fault that there is none. -/
def exactly (i : Int) : Except ArithFault Int64 :=
  match fit? i with
  | some z => .ok z
  | none => .error .overflow

theorem exactly_eq_ok_iff {i : Int} {z : Int64} : exactly i = .ok z ↔ z.toInt = i := by
  rw [← fit?_eq_some_iff, exactly]
  split <;> simp_all

theorem exactly_of_outside {i : Int} (outside : i < -2 ^ 63 ∨ 2 ^ 63 ≤ i) :
    exactly i = .error .overflow := by
  rw [exactly, (fit?_eq_none_iff i).2 outside]

theorem fit?_toInt (z : Int64) : fit? z.toInt = some z := (fit?_eq_some_iff _ _).2 rfl

/-! ### Powers -/

theorem fit?_mul_of_pos {i k : Int} (outside : fit? i = none) (positive : 0 < k) :
    fit? (i * k) = none := by
  rw [fit?_eq_none_iff] at *
  obtain below | above := outside
  · left
    nlinarith
  · right
    nlinarith

/-- A square without a word is farther from zero than any word: none has the value `2 ^ 63`. -/
theorem lt_sq_of_overflow {x : Int64} (outside : mul? x x = none) :
    2 ^ 63 < x.toInt * x.toInt := by
  have large := (fit?_eq_none_iff _).1 outside
  rw [← Int.natAbs_mul_self (a := x.toInt)] at *
  generalize x.toInt.natAbs = n at *
  have : 3037000499 < n := by
    by_contra small
    have := Nat.mul_le_mul (Nat.not_lt.1 small) (Nat.not_lt.1 small)
    omega
  have := Nat.mul_le_mul this this
  omega

theorem fit?_mul_of_lt {i k : Int} (far : 2 ^ 63 < i) (nonzero : k ≠ 0) : fit? (i * k) = none := by
  rw [fit?_eq_none_iff]
  obtain negative | positive := Int.lt_or_gt_of_ne nonzero
  · left
    nlinarith
  · right
    nlinarith

/-- Squaring fails only where the power has no word: what has been squared is still to be used. -/
theorem powFrom_eq {acc base : Int64} (exponent : Nat) (live : base.toInt ≠ 0 → acc.toInt ≠ 0) :
    powFrom acc base exponent = fit? (acc.toInt * base.toInt ^ exponent) := by
  induction exponent using Nat.strongRecOn generalizing acc base with
  | ind exponent ih =>
  rw [powFrom]
  split
  · rename_i none
    rw [none, pow_zero, mul_one, fit?_toInt]
  split
  · rename_i one
    rw [one, pow_one, mul?]
  have halves : base.toInt ^ exponent =
      base.toInt ^ (exponent % 2) * (base.toInt * base.toInt) ^ (exponent / 2) := by
    rw [← pow_two, ← pow_mul, ← pow_add, Nat.mod_add_div]
  have taken : (if exponent % 2 = 1 then mul? acc base else Option.some acc) =
      fit? (acc.toInt * base.toInt ^ (exponent % 2)) := by
    obtain even | odd := Nat.mod_two_eq_zero_or_one exponent
    · rw [if_neg (by omega), even, pow_zero, mul_one, fit?_toInt]
    · rw [if_pos odd, odd, pow_one, mul?]
  have half : exponent / 2 ≠ 0 := by omega
  rw [taken, halves, ← mul_assoc]
  cases squared : mul? base base with
  | none =>
    have far := lt_sq_of_overflow squared
    have moves : base.toInt ≠ 0 := by
      rintro zero
      rw [zero] at far
      omega
    have nonzero : acc.toInt * base.toInt ^ (exponent % 2) *
        (base.toInt * base.toInt) ^ (exponent / 2 - 1) ≠ 0 :=
      mul_ne_zero (mul_ne_zero (live moves) (pow_ne_zero _ moves))
        (pow_ne_zero _ (mul_ne_zero moves moves))
    rw [← mul_pow_sub_one half, mul_left_comm, fit?_mul_of_lt far nonzero]
    split <;> simp_all
  | some square =>
    have exact := (fit?_eq_some_iff _ _).1 squared
    cases first : fit? (acc.toInt * base.toInt ^ (exponent % 2)) with
    | none =>
      refine (fit?_mul_of_pos first ?_).symm
      have moves : base.toInt ≠ 0 := by
        rintro zero
        obtain even | odd := Nat.mod_two_eq_zero_or_one exponent
        · simp [even, fit?_toInt] at first
        · rw [odd, zero, pow_one, mul_zero] at first
          exact absurd first (by decide)
      exact pow_pos (mul_self_pos.2 moves) _
    | some next =>
      have reached := (fit?_eq_some_iff _ _).1 first
      rw [← exact, ← reached]
      refine ih _ (by omega) ?_
      rw [exact, reached]
      exact fun moves => mul_ne_zero (live (left_ne_zero_of_mul moves))
        (pow_ne_zero _ (left_ne_zero_of_mul moves))

/-- A power is exact, unless the base is minus one and an odd exponent is past the limit. -/
theorem pow_exact {base exponent : Int64}
    (regular : base = -1 → exponent.toInt % 2 = 1 → exponent < exponentLimit) :
    pow base exponent =
      if exponent < 0 then .error .domain else exactly (base.toInt ^ exponent.toInt.toNat) := by
  unfold pow
  split
  · rfl
  rename_i nonneg
  rw [Int64.lt_iff_toInt_lt, Int64.toInt_zero] at nonneg
  split
  · rename_i huge
    have limit : exponentLimit.toInt = 2 ^ 32 := by decide
    have large := Int64.le_iff_toInt_le.1 huge
    rw [limit] at large
    split
    · rename_i own
      rw [eq_comm, exactly_eq_ok_iff]
      obtain rfl | rfl := own
      · exact (zero_pow (by omega) : (0 : Int) ^ exponent.toInt.toNat = 0).symm
      · exact (one_pow (M := Int) _).symm
    split
    · rename_i minus
      subst minus
      have even : Even exponent.toInt.toNat := by
        rw [Nat.even_iff]
        have := mt (regular rfl) (Int64.not_lt.2 huge)
        omega
      rw [eq_comm, exactly_eq_ok_iff]
      exact (even.neg_one_pow (α := Int)).symm
    · rename_i others minus
      have wide : 2 ≤ base.toInt.natAbs := by
        simp only [not_or, ← Int64.toInt_inj] at others minus
        have : (-1 : Int64).toInt = -1 := by decide
        have : (1 : Int64).toInt = 1 := by decide
        have : (0 : Int64).toInt = 0 := by decide
        omega
      have far : 2 ^ 64 ≤ (base.toInt ^ exponent.toInt.toNat).natAbs := by
        rw [Int.natAbs_pow]
        exact (Nat.pow_le_pow_left wide 64).trans (Nat.pow_le_pow_right (by omega) (by omega))
      exact (exactly_of_outside (by omega)).symm
  · have one : (1 : Int64).toInt = 1 := by decide
    rw [powFrom_eq _ fun _ => by decide, one, one_mul]
    rfl

theorem pow_exact_minusOne : exponentLimit ≤ 4294967298 ∧ pow (-1) 4294967298 = .ok 1 := by
  refine ⟨by decide, ?_⟩
  rw [pow_exact (by decide), if_neg (by decide), exactly_eq_ok_iff]
  exact (Even.neg_one_pow (α := Int) (by decide)).symm

/-- Past the limit every power of minus one is one, also those with an odd exponent. -/
theorem pow_minusOne_odd : pow (-1) 4294967297 = .ok 1 ∧
    exactly ((-1 : Int64).toInt ^ (4294967297 : Int64).toInt.toNat) = .ok (-1) := by
  refine ⟨by decide, exactly_eq_ok_iff.2 ?_⟩
  exact (Odd.neg_one_pow (α := Int) (by decide)).symm

/-! ### Quotients and remainders -/

/-- Rounding toward zero against rounding down: they differ by one where a remainder is left and
lies across zero from the divisor. -/
theorem floor_of_trunc {a b : Int} (nonzero : b ≠ 0) :
    a.fmod b = (if a.tmod b ≠ 0 ∧ ¬ (a.tmod b < 0 ↔ b < 0) then a.tmod b + b else a.tmod b) ∧
      a.fdiv b = if a.tmod b ≠ 0 ∧ ¬ (a < 0 ↔ b < 0) then a.tdiv b - 1 else a.tdiv b := by
  have sign : a.tmod b ≠ 0 → (a.tmod b < 0 ↔ a < 0) := by
    have upward := Int.tmod_nonneg (a := a) b
    have downward := Int.tmod_nonneg (a := -a) b
    rw [Int.neg_tmod] at downward
    omega
  have rem := Int.fmod_eq_tmod (a := a) (b := b)
  have quot := Int.fdiv_eq_tdiv (a := a) (b := b)
  simp only [Int.dvd_iff_tmod_eq_zero] at rem quot
  obtain below | above := Int.lt_or_gt_of_ne nonzero
  · rw [Int.sign_eq_neg_one_of_neg below] at quot
    omega
  · rw [Int.sign_eq_one_of_pos above] at quot
    omega

section Floor

variable {a b : Int64} (nonzero : b ≠ 0)

include nonzero

theorem floorMod_exact : ∃ r, floorMod a b = .ok r ∧ r.toInt = a.toInt.fmod b.toInt := by
  have apart : b.toInt ≠ 0 := fun zero => nonzero (Int64.toInt_inj.1 zero)
  have low := b.le_toInt
  have high := b.toInt_lt
  have small : (a.toInt.tmod b.toInt).natAbs < b.toInt.natAbs := by
    rw [Int.natAbs_tmod]
    exact Nat.mod_lt _ (by omega)
  have unwrapped := bmod_word (a.toInt.tmod b.toInt + b.toInt)
  rw [floorMod, if_neg nonzero, (floor_of_trunc apart).1]
  simp only [bne_iff_ne, ne_eq, decide_eq_decide, ← Int64.toInt_inj, Int64.lt_iff_toInt_lt,
    Int64.toInt_mod, Int64.toInt_zero]
  split
  · refine ⟨_, rfl, ?_⟩
    rw [Int64.toInt_add, Int64.toInt_mod]
    omega
  · exact ⟨_, rfl, Int64.toInt_mod a b⟩

theorem floorDiv_exact : floorDiv a b = exactly (a.toInt.fdiv b.toInt) := by
  have apart : b.toInt ≠ 0 := fun zero => nonzero (Int64.toInt_inj.1 zero)
  rw [floorDiv, if_neg nonzero]
  split
  · rename_i extreme
    obtain ⟨rfl, rfl⟩ := extreme
    decide
  rename_i regular
  have quot : (a / b).toInt = a.toInt.tdiv b.toInt := by
    by_cases least : a = Int64.minValue
    · exact Int64.toInt_div_of_ne_right a b fun minus => regular ⟨least, minus⟩
    · exact Int64.toInt_div_of_ne_left a b least
  rw [eq_comm, (floor_of_trunc apart).2]
  simp only [bne_iff_ne, ne_eq, decide_eq_decide, ← Int64.toInt_inj, Int64.lt_iff_toInt_lt,
    Int64.toInt_mod, Int64.toInt_zero]
  split
  · rw [exactly_eq_ok_iff, Int64.toInt_sub, quot]
    -- a divisor that leaves a remainder is not one, so the quotient is not the least integer
    have halved : (a.toInt.tdiv b.toInt).natAbs ≤ a.toInt.natAbs / 2 := by
      have small := Int.natAbs_tmod a.toInt b.toInt
      have := Nat.mod_lt a.toInt.natAbs (Int.natAbs_pos.2 apart)
      rw [Int.natAbs_tdiv]
      exact Nat.div_le_div_left (by omega) (by omega)
    have low := a.le_toInt
    have high := a.toInt_lt
    have unwrapped := bmod_word (a.toInt.tdiv b.toInt - 1)
    have one : (1 : Int64).toInt = 1 := by decide
    rw [one]
    omega
  · rw [exactly_eq_ok_iff, quot]

end Floor

/-! ### Shifts -/

theorem toInt_shiftLeft {x count : Int64} (low : 0 ≤ count.toInt) (high : count.toInt < 64) :
    (x <<< count).toInt = (x.toInt * 2 ^ count.toInt.toNat).bmod (2 ^ 64) := by
  rw [← Int64.toInt_toBitVec, Int64.toBitVec_shiftLeft, BitVec.shiftLeft_eq', toNat_smod low high,
    BitVec.toInt_shiftLeft, Nat.shiftLeft_eq, ← x.toInt_toBitVec,
    BitVec.toInt_eq_toNat_bmod x.toBitVec, Int.bmod_mul_bmod]
  norm_cast

theorem shiftRight_exact {a b : Int64} (nonneg : ¬ b < 0) :
    ∃ z, shiftRight a b = .ok z ∧ z.toInt = a.toInt / 2 ^ b.toInt.toNat := by
  rw [Int64.lt_iff_toInt_lt, Int64.toInt_zero] at nonneg
  have edge : (63 : Int64).toInt = 63 := by decide
  refine ⟨_, if_neg (by rwa [Int64.lt_iff_toInt_lt]), ?_⟩
  split
  · rename_i small
    rw [Int64.lt_iff_toInt_lt] at small
    exact toInt_shiftRight (by omega) (by omega)
  · rename_i large
    rw [Int64.lt_iff_toInt_lt] at large
    have least : (2 : Int) ^ 63 ≤ 2 ^ b.toInt.toNat := pow_le_pow_right₀ (by decide) (by omega)
    have low := a.le_toInt
    have high := a.toInt_lt
    rw [toInt_shiftRight (by decide) (by decide)]
    have sign (p : Int) (wide : 2 ^ 63 ≤ p) : a.toInt / p = if a.toInt < 0 then -1 else 0 := by
      split
      · exact ((Int.ediv_emod_unique (r := a.toInt + p) (by omega)).2 (by omega)).1
      · exact Int.ediv_eq_zero_of_lt (by omega) (by omega)
    exact (sign _ le_rfl).trans (sign _ least).symm

theorem shiftLeft_exact {a b : Int64} (nonneg : ¬ b < 0) :
    shiftLeft a b = exactly (a.toInt * 2 ^ b.toInt.toNat) := by
  have edge : (64 : Int64).toInt = 64 := by decide
  rw [shiftLeft, if_neg nonneg]
  rw [Int64.lt_iff_toInt_lt, Int64.toInt_zero] at nonneg
  split
  · rename_i zero
    rw [zero, eq_comm, exactly_eq_ok_iff, Int64.toInt_zero, zero_mul]
  rename_i nonzero
  split
  · rename_i large
    rw [ge_iff_le, Int64.le_iff_toInt_le] at large
    have far : 1 * 2 ^ 64 ≤ (a.toInt * 2 ^ b.toInt.toNat).natAbs := by
      rw [Int.natAbs_mul]
      exact Nat.mul_le_mul (Int.natAbs_pos.2 fun zero => nonzero (Int64.toInt_inj.1 zero))
        (Nat.pow_le_pow_right (by decide) (by omega))
    exact (exactly_of_outside (by omega)).symm
  · rename_i small
    rw [ge_iff_le, Int64.le_iff_toInt_le] at small
    have shifted : (a <<< b).toInt = _ := toInt_shiftLeft (by omega) (by omega)
    have back : ((a <<< b) >>> b).toInt = _ := toInt_shiftRight (by omega) (by omega)
    -- what was shifted in is a multiple of the power, so shifting back loses nothing
    have whole : (2 : Int) ^ b.toInt.toNat ∣ (a <<< b).toInt := by
      have power : (2 : Int) ^ b.toInt.toNat ∣ (2 ^ 64 : Nat) := by
        exact_mod_cast Nat.pow_dvd_pow 2 (show b.toInt.toNat ≤ 64 by omega)
      rw [shifted]
      exact (Int.dvd_iff_dvd_of_dvd_sub (power.trans Int.dvd_bmod_sub_self)).2 (Int.dvd_mul_left ..)
    have kept : (a <<< b) >>> b = a ↔ (a <<< b).toInt = a.toInt * 2 ^ b.toInt.toNat := by
      rw [← Int64.toInt_inj, back, Int.ediv_eq_iff_eq_mul_left (by positivity) whole]
    rw [if_congr kept rfl rfl]
    split
    · rename_i fits
      exact (exactly_eq_ok_iff.2 fits).symm
    · have unwrapped := bmod_word (a.toInt * 2 ^ b.toInt.toNat)
      exact (exactly_of_outside (by omega)).symm

/-- Quotients and remainders round down, shifts multiply and divide by powers of two. A fault means
that there is no result: the divisor is zero, the shift is negative, or no word has the value. -/
theorem floor_exact (a b : Int64) :
    floorDiv a b = (if b = 0 then .error .zeroDivision else exactly (a.toInt.fdiv b.toInt)) ∧
    (if b = 0 then floorMod a b = .error .zeroDivision
      else ∃ r, floorMod a b = .ok r ∧ r.toInt = a.toInt - b.toInt * a.toInt.fdiv b.toInt) ∧
    shiftLeft a b =
      (if b < 0 then .error .negativeShift else exactly (a.toInt * 2 ^ b.toInt.toNat)) ∧
    (if b < 0 then shiftRight a b = .error .negativeShift
      else ∃ z, shiftRight a b = .ok z ∧ z.toInt = a.toInt.fdiv (2 ^ b.toInt.toNat)) := by
  refine ⟨?_, ?_, ?_, ?_⟩
  · split
    · exact if_pos ‹_›
    · exact floorDiv_exact ‹_›
  · split
    · exact if_pos ‹_›
    · rw [← Int.fmod_def]
      exact floorMod_exact ‹_›
  · split
    · exact if_pos ‹_›
    · exact shiftLeft_exact ‹_›
  · split
    · exact if_pos ‹_›
    · rw [Int.fdiv_eq_ediv_of_nonneg _ (by positivity)]
      exact shiftRight_exact ‹_›

end TwoTier.Word
