import TwoTier.Number.Word

namespace TwoTier.Chunk

/-- Where a piece of some size from `lo` on ends: at the stop at the latest. The sum saturates. -/
def pieceEnd (size : UInt64) (lo stop : Int64) : Int64 :=
  min (Int64.ofIntClamp (lo.toInt + size.toNat)) stop

/-- No word is past the one at which the sum saturates, so this is the end in the integers. -/
theorem toInt_pieceEnd (size : UInt64) (lo stop : Int64) :
    (pieceEnd size lo stop).toInt = min (lo.toInt + size.toNat) stop.toInt := by
  have low := lo.minValue_le_toInt
  have high := stop.toInt_le
  have clamped : (Int64.ofIntClamp (lo.toInt + size.toNat)).toInt =
      min (lo.toInt + size.toNat) Int64.maxValue.toInt := by
    rw [Int64.ofIntClamp, dif_pos (by omega)]
    split
    · rw [Int64.toInt_ofIntLE]
      omega
    · omega
  change Int64.toInt (if _ ≤ _ then _ else _) = _
  rw [apply_ite Int64.toInt]
  simp only [Int64.le_iff_toInt_le, clamped]
  omega

/-- Cuts `[lo, stop)` into consecutive pieces of one size; only the last may be shorter. -/
def cut (size : UInt64) (positive : 0 < size) (lo stop : Int64) : List (Int64 × Int64) :=
  if lo < stop then
    let hi := pieceEnd size lo stop
    (lo, hi) :: cut size positive hi stop
  else []
termination_by (stop.toInt - lo.toInt).toNat
decreasing_by
  rename_i below
  rw [Int64.lt_iff_toInt_lt] at below
  rw [UInt64.lt_iff_toNat_lt, UInt64.toNat_zero] at positive
  rw [toInt_pieceEnd]
  omega

/-- One of so many equal parts of a trip, rounded up. -/
def share (trip count : UInt64) : UInt64 :=
  if trip % count > 0 then trip / count + 1 else trip / count

/-- The size of the chunks of a nonempty range for a target count and a least size. -/
def size (start stop least target : Int64) : UInt64 :=
  max (share (stop - start).toUInt64 (max target 1).toUInt64) (max least 1).toUInt64

theorem toNat_max_one (x : Int64) : (max x 1).toUInt64.toNat = max x.toInt.toNat 1 := by
  have larger : (max x 1).toInt = max x.toInt 1 := by
    change Int64.toInt (if _ ≤ _ then _ else _) = _
    rw [apply_ite Int64.toInt]
    simp only [Int64.le_iff_toInt_le, show (1 : Int64).toInt = 1 from by decide]
    omega
  rw [Int64.toNat_toUInt64_of_le (by rw [Int64.le_iff_toInt_le, larger, Int64.toInt_zero]; omega),
    Int64.toNatClampNeg, larger]
  omega

theorem size_pos (start stop least target : Int64) : 0 < size start stop least target := by
  have least_pos : 0 < (max least 1).toUInt64 := by
    rw [UInt64.lt_iff_toNat_lt, toNat_max_one, UInt64.toNat_zero]
    omega
  change 0 < if _ ≤ _ then _ else _
  split
  · exact least_pos
  · exact UInt64.lt_trans least_pos (UInt64.not_le.1 ‹_›)

/-- Splits `[start, stop)`. The split depends on the bounds and the two settings alone. -/
def split (start stop least target : Int64) : List (Int64 × Int64) :=
  cut (size start stop least target) (size_pos ..) start stop

/-- How much storage each piece of a table of pieces takes. -/
def pieceBytes : Nat := 16

/-- The number of pieces for which a table is made before any is cut. -/
def capacity (start stop least target : Int64) : UInt64 :=
  share (stop - start).toUInt64 (size start stop least target)

/-- The table of the pieces of `[start, stop)`, unless it would be larger than any allocation may
be. Smaller tables are taken to fit into memory. -/
def bounds? (start stop least target : Int64) : Option (List (Int64 × Int64)) :=
  if stop ≤ start then some []
  else if (capacity start stop least target).toNat * pieceBytes ≤ Int64.maxValue.toInt.toNat then
    some (split start stop least target)
  else none

/-- Whether a sum from `acc` stays in range under updates of a total `magnitude` in any order. -/
def sumBounded (acc : Int64) (magnitude : UInt64) : Bool :=
  (Word.magnitude acc).toNat + magnitude.toNat ≤ Int64.maxValue.toInt.toNat

end TwoTier.Chunk
