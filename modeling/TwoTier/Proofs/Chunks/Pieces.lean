import Mathlib.Tactic.Linarith
import TwoTier.Native.Chunk
import TwoTier.Proofs.Instruction

namespace TwoTier.Chunk

/-- Consecutive nonempty pieces from a start to the stop. -/
inductive Pieces (stop : Int64) : Int64 → List (Int64 × Int64) → Prop where
  | done {start : Int64} (reached : stop.toInt ≤ start.toInt) : Pieces stop start []
  | more {lo hi : Int64} {rest : List (Int64 × Int64)} (low : lo.toInt < hi.toInt)
      (high : hi.toInt ≤ stop.toInt) (others : Pieces stop hi rest) :
      Pieces stop lo ((lo, hi) :: rest)

section Cut

variable {size : UInt64} (positive : 0 < size) {lo stop : Int64}

theorem pieces_cut : Pieces stop lo (cut size positive lo stop) := by
  have least : 0 < size.toNat := UInt64.lt_iff_toNat_lt.1 positive
  fun_induction cut size positive lo stop with
  | case1 lo below hi ih =>
    rw [Int64.lt_iff_toInt_lt] at below
    have reached : hi.toInt = _ := toInt_pieceEnd size lo stop
    exact .more (by omega) (by omega) ih
  | case2 lo past =>
    rw [Int64.lt_iff_toInt_lt] at past
    exact .done (by omega)

/-- Every piece but the last is as long as the size says. -/
theorem length_of_mem_cut {piece : Int64 × Int64}
    (member : piece ∈ (cut size positive lo stop).dropLast) :
    piece.2.toInt - piece.1.toInt = size.toNat := by
  fun_induction cut size positive lo stop with
  | case1 lo below hi ih =>
    cases others : cut size positive hi stop with
    | nil => simp [others] at member
    | cons next rest =>
      rw [others, List.dropLast_cons_cons, ← others] at member
      obtain _ | ⟨_, member⟩ := member
      · have more : hi < stop := by
          by_contra past
          rw [cut, if_neg past] at others
          cases others
        have reached : hi.toInt = _ := toInt_pieceEnd size lo stop
        rw [Int64.lt_iff_toInt_lt] at more
        dsimp only
        omega
      · exact ih member
  | case2 => cases member

theorem length_cut_le {count : Nat} (enough : stop.toInt - lo.toInt ≤ count * size.toNat) :
    (cut size positive lo stop).length ≤ count := by
  induction count generalizing lo with
  | zero =>
    have past : ¬ lo < stop := by
      rw [Int64.lt_iff_toInt_lt]
      omega
    simp [cut, past]
  | succ count ih =>
    rw [cut]
    split
    · have reached := toInt_pieceEnd size lo stop
      have others : 0 ≤ (count : Int) * size.toNat := by positivity
      refine Nat.succ_le_succ (ih ?_)
      push_cast [add_mul] at enough
      omega
    · exact Nat.zero_le _

/-- No piece is longer than the size says, so as many of them as there are reach the stop. -/
theorem le_length_cut :
    stop.toInt - lo.toInt ≤ (cut size positive lo stop).length * size.toNat := by
  fun_induction cut size positive lo stop with
  | case1 lo below hi ih =>
    have reached : hi.toInt = _ := toInt_pieceEnd size lo stop
    rw [List.length_cons]
    push_cast [add_mul]
    omega
  | case2 lo past =>
    rw [Int64.lt_iff_toInt_lt] at past
    rw [List.length_nil, Nat.cast_zero, zero_mul]
    omega

end Cut

theorem share_bounds (trip : UInt64) {count : UInt64} (some : 0 < count.toNat) :
    trip.toNat ≤ count.toNat * (share trip count).toNat ∧
      count.toNat * (share trip count).toNat < trip.toNat + count.toNat := by
  have whole := Nat.div_add_mod trip.toNat count.toNat
  have rest := Nat.mod_lt trip.toNat some
  have small := trip.toNat_lt
  unfold share
  split
  · rename_i inexact
    rw [gt_iff_lt, UInt64.lt_iff_toNat_lt, UInt64.toNat_mod, UInt64.toNat_zero] at inexact
    have halved : trip.toNat / count.toNat ≤ trip.toNat / 2 := by
      refine Nat.div_le_div_left ?_ (by omega)
      by_contra single
      rw [show count.toNat = 1 by omega, Nat.mod_one] at inexact
      omega
    have next : (trip / count + 1).toNat = trip.toNat / count.toNat + 1 := by
      rw [UInt64.toNat_add, UInt64.toNat_div, UInt64.toNat_one]
      exact Nat.mod_eq_of_lt (by omega)
    rw [next, Nat.mul_add]
    omega
  · rename_i exact
    rw [gt_iff_lt, UInt64.lt_iff_toNat_lt, UInt64.toNat_mod, UInt64.toNat_zero] at exact
    rw [UInt64.toNat_div]
    omega

theorem pieces_split (start stop least target : Int64) :
    Pieces stop start (split start stop least target) := pieces_cut _

theorem toNat_trip {start stop : Int64} (below : start.toInt ≤ stop.toInt) :
    (stop - start).toUInt64.toNat = stop.toInt - start.toInt := by
  have low := start.le_toInt
  have high := stop.toInt_lt
  have unwrapped := bmod_word (stop.toInt - start.toInt)
  rw [Native.toNat_toUInt64, Int64.toInt_sub]
  omega

theorem length_split_le (start stop least target : Int64) :
    (split start stop least target).length ≤ max 1 target.toInt.toNat := by
  refine length_cut_le _ ?_
  by_cases below : start.toInt ≤ stop.toInt
  · have some : 0 < (max target 1).toUInt64.toNat := by
      rw [toNat_max_one]
      omega
    have enough := (share_bounds (stop - start).toUInt64 some).1
    have larger := Nat.mul_le_mul_left (max target 1).toUInt64.toNat (Nat.le_max_left
      (share (stop - start).toUInt64 (max target 1).toUInt64).toNat (max least 1).toUInt64.toNat)
    rw [size, UInt64.toNat_max, ← toNat_trip below]
    rw [toNat_max_one target, Nat.max_comm _ 1] at *
    exact_mod_cast enough.trans larger
  · have some : 0 ≤ (max 1 target.toInt.toNat : Nat) *
        ((size start stop least target).toNat : Int) := by positivity
    omega

theorem toNat_capacity {start stop : Int64} (below : start.toInt ≤ stop.toInt)
    (least target : Int64) :
    (capacity start stop least target).toNat = (split start stop least target).length := by
  have positive : 0 < (size start stop least target).toNat :=
    UInt64.lt_iff_toNat_lt.1 (size_pos ..)
  obtain ⟨enough, tight⟩ := share_bounds (stop - start).toUInt64 positive
  have trip := toNat_trip below
  refine Nat.le_antisymm ?_ (length_cut_le _ ?_)
  · have reached : stop.toInt - start.toInt ≤ (split start stop least target).length * _ :=
      le_length_cut (size_pos ..)
    rw [← trip] at reached
    refine Nat.le_of_lt_succ (lt_of_mul_lt_mul_left ?_ positive.le)
    rw [Nat.mul_succ, Nat.mul_comm _ (List.length _)]
    exact tight.trans_le (Nat.add_le_add_right (by exact_mod_cast reached) _)
  · rw [← trip, mul_comm]
    exact_mod_cast enough

theorem bounds?_eq (start stop least target : Int64) :
    bounds? start stop least target =
      if pieceBytes * (split start stop least target).length < 2 ^ 63 then
        some (split start stop least target)
      else none := by
  unfold bounds?
  split
  · rename_i past
    have empty : split start stop least target = [] := by
      rw [split, cut, if_neg (Int64.not_lt.2 past)]
    simp [empty]
  · rename_i below
    rw [Int64.le_iff_toInt_le] at below
    rw [toNat_capacity (by omega), Nat.mul_comm]
    exact if_congr Nat.lt_succ_iff.symm rfl rfl

theorem bounds?_eq_some (tabled : bounds? start stop least target = some chunks) :
    chunks = split start stop least target := by
  rw [bounds?_eq, Option.ite_none_right_eq_some] at tabled
  exact (Option.some.inj tabled.2).symm

theorem pieces_bounds? (tabled : bounds? start stop least target = some chunks) :
    Pieces stop start chunks := bounds?_eq_some tabled ▸ pieces_split ..

/-- A table of pieces is given unless it takes more storage than an allocation can, which the target
can rule out. It covers the range from its start to its stop without gap or overlap, in nonempty
pieces. All but the last have one size, which is at least the least size, and there are no more than
the target count. -/
theorem bounds?_partition (start stop least target : Int64) :
    (bounds? start stop least target = none ↔
      2 ^ 63 ≤ pieceBytes * (split start stop least target).length) ∧
    (target.toInt < 2 ^ 59 → (bounds? start stop least target).isSome) ∧
    ∀ chunks, bounds? start stop least target = some chunks →
      Pieces stop start chunks ∧
      (∃ size : Nat, max 1 least.toInt ≤ size ∧
        ∀ piece ∈ chunks.dropLast, piece.2.toInt - piece.1.toInt = size) ∧
      chunks.length ≤ max 1 target.toInt.toNat := by
  have few := length_split_le start stop least target
  refine ⟨by simp [bounds?_eq], fun small => ?_, fun chunks tabled => ?_⟩
  · rw [bounds?_eq, if_pos (by unfold pieceBytes; omega)]
    rfl
  · obtain rfl := bounds?_eq_some tabled
    refine ⟨pieces_split .., ⟨_, ?_, fun _ => length_of_mem_cut (size_pos ..)⟩, few⟩
    rw [size, UInt64.toNat_max, toNat_max_one]
    omega

/-- Pieces of one element each, more than a table can hold. -/
theorem bounds?_quintillions : bounds? 0 (Int64.ofNat (2 ^ 62)) 1 (Int64.ofNat (2 ^ 62)) = none := by
  decide +kernel

end TwoTier.Chunk
