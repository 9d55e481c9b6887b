import Mathlib
import TwoTier.Typed.Kind

namespace TwoTier

open Float.Model (Format UnpackedFloat)

open Float.Model.UnpackedFloat

theorem toBitVec_ofBitVec (bit : BitVec 1) : (Sign.ofBitVec bit).toBitVec = bit := by
  revert bit
  decide

theorem packComponents_unpack {format : Format} (pattern : BitVec format.numBits) :
    packComponents format (Sign.ofBitVec (unpackSign pattern)) (unpackExponent pattern)
      (unpackMantissa pattern) = pattern := by
  rw [packComponents, toBitVec_ofBitVec]
  apply BitVec.eq_of_getLsbD_eq
  intro i inside
  have mantissa := format.hm
  have exponent := format.he
  simp only [BitVec.getLsbD_append, unpackSign, unpackExponent, unpackMantissa,
    BitVec.getLsbD_cast, BitVec.getLsbD_extract]
  split
  · simp
    omega
  · split
    all_goals
      rw [decide_eq_true (by omega), Bool.true_and]
      congr 1
      omega

/-- A pattern that is not a second one for a number is packed as it was. -/
theorem pack_unpack {pattern : BitVec Format.binary64.numBits}
    (valid : Format.binary64.Valid pattern) :
    UnpackedFloat.pack Format.binary64 (UnpackedFloat.unpack Format.binary64 pattern) =
      pattern := by
  have whole := packComponents_unpack pattern
  have below : (unpackMantissa pattern).toNat < 2 ^ 52 := (unpackMantissa pattern).isLt
  have under : (unpackExponent pattern).toNat < 2 ^ 11 := (unpackExponent pattern).isLt
  unfold UnpackedFloat.unpack
  dsimp only
  split
  · rename_i top
    split
    · rename_i infinite
      rw [top, infinite] at whole
      exact whole
    · rename_i undefined
      exact (valid.eq_packedNaN top undefined).symm
  · rename_i notTop
    split
    · rename_i bottom
      split
      · rename_i zero
        rw [bottom, zero] at whole
        exact whole
      · rename_i subnormal
        have small : (unpackMantissa pattern).toNat.log2 < 52 := by
          rw [Nat.log2_lt (by simpa [BitVec.toNat_eq] using subnormal)]
          exact below
        unfold UnpackedFloat.pack
        dsimp only
        rw [bottom, if_neg, if_neg]
        · simpa [bottom] using whole
        · unfold Format.mantissaBits
          dsimp only
          omega
        · unfold Format.exponentBias
          simp
    · rename_i normal
      -- the leading one that the pattern leaves out is put back and taken off again
      have large : (1#1 ++ unpackMantissa pattern).toNat =
          2 ^ 52 + (unpackMantissa pattern).toNat := by
        rw [BitVec.toNat_append, ← Nat.shiftLeft_add_eq_or_of_lt below]
        rfl
      have first : (2 ^ 52 + (unpackMantissa pattern).toNat).log2 = 52 := by
        rw [Nat.log2_eq_iff (by omega)]
        omega
      have inner : (unpackExponent pattern).toNat ≠ 2047 := by
        intro full
        exact notTop (BitVec.eq_of_toNat_eq full)
      have exponent (bias : Nat) : (((unpackExponent pattern).toNat : Int) -
          ((bias : Int) + (52 : Nat)) + bias + (52 : Nat)).toNat =
            (unpackExponent pattern).toNat := by omega
      unfold UnpackedFloat.pack
      dsimp only
      rw [large, first, exponent, if_neg (by omega),
        if_pos (show 52 + 1 = Format.binary64.mantissaBits from rfl), BitVec.ofNat_toNat]
      convert whole using 2
      · simp
      · apply BitVec.eq_of_toNat_eq
        simp
        omega

theorem ofBits_toBits (value : Float) : Float.ofBits value.toBits = value := by
  obtain ⟨⟨⟨pattern⟩, valid⟩⟩ := value
  unfold Float.ofBits Float.toBits Float.Model.ofBits Float.Model.pack
  simp only [pack_unpack valid]

theorem Scalar.ofBits_bits (scalar : Scalar) : Scalar.ofBits scalar.type scalar.bits = scalar := by
  cases scalar with
  | int value => exact congrArg Scalar.int (Int64.toInt64_toUInt64 value)
  | float value => exact congrArg Scalar.float (ofBits_toBits value)
  | bool value => cases value <;> rfl

end TwoTier
