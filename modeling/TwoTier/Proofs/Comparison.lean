import Mathlib.Algebra.Order.Ring.Int
import TwoTier.Interp.Operator
import TwoTier.Native.Expr
import TwoTier.Typed.Folding

/-! Comparisons of numbers all come down to one order, which is absent next to a NaN. -/

namespace TwoTier.Binary64

open Float.Model (UnpackedFloat)

/-- The order of two floats in the model of floating-point numbers. -/
def order (x y : Float) : Option Ordering := x.toModel.compare y.toModel

private theorem unpacked_swap (x y : UnpackedFloat) :
    y.compare x = (x.compare y).map Ordering.swap := by
  have finite (m n : Nat) (d e : Int) :
      ((compare d e).then (compare m n)).swap = (compare e d).then (compare n m) := by
    rw [Ordering.swap_then, Int.compare_swap, Nat.compare_swap]
  cases x with
  | notANumber => cases y <;> rfl
  | infinity s => cases s <;> cases y <;> (try cases ‹UnpackedFloat.Sign›) <;> rfl
  | zero s => cases y <;> (try cases ‹UnpackedFloat.Sign›) <;> rfl
  | finite s m e pos =>
    cases y with
    | notANumber => cases s <;> rfl
    | infinity t => cases t <;> cases s <;> rfl
    | zero t => cases s <;> rfl
    | finite t n d pos =>
      cases s <;> cases t
      · exact congrArg (fun order : Ordering => some order.swap) (finite m n e d).symm
      · rfl
      · rfl
      · exact congrArg some (finite m n e d).symm

theorem order_swap (x y : Float) : order y x = (order x y).map Ordering.swap :=
  unpacked_swap x.toModel.unpack y.toModel.unpack

theorem lt_iff_order (x y : Float) : x < y ↔ order x y = some .lt := by
  change decide (_ < _) = true ↔ _
  rw [decide_eq_true_iff]
  exact beq_iff_eq

theorem le_iff_order (x y : Float) : x ≤ y ↔ (order x y).any (·.isLE) = true := by
  change decide (_ ≤ _) = true ↔ _
  rw [decide_eq_true_iff]
  rfl

theorem beq_eq_order (x y : Float) : (x == y) = (order x y == some .eq) := rfl

theorem gt_iff_order (x y : Float) : x > y ↔ order x y = some .gt := by
  rw [gt_iff_lt, lt_iff_order, order_swap]
  cases order x y with
  | none => simp
  | some found => cases found <;> simp

theorem ge_iff_order (x y : Float) : x ≥ y ↔ (order x y).any (·.isGE) = true := by
  rw [ge_iff_le, le_iff_order, order_swap]
  cases order x y with
  | none => simp
  | some found => cases found <;> simp

theorem compare?_eq_order (x y : Float) : compare? x y = order x y := by
  have greater := gt_iff_order x y
  have less := lt_iff_order x y
  unfold compare?
  rw [beq_eq_order]
  generalize order x y = found at greater less ⊢
  match found with
  | none => simp [greater, less]
  | some .lt => simp [less]
  | some .eq => simp [less]
  | some .gt => simp [greater, less]

end TwoTier.Binary64

namespace TwoTier.Native

open Typed (Comparison)

theorem floatHolds_eq (op : Comparison) (x y : Float) :
    floatHolds op x y = op.holds (Binary64.compare? x y) := by
  have less := Binary64.lt_iff_order x y
  have least := Binary64.le_iff_order x y
  have greater := Binary64.gt_iff_order x y
  have greatest := Binary64.ge_iff_order x y
  rw [Binary64.compare?_eq_order]
  unfold floatHolds
  rw [bne, Binary64.beq_eq_order]
  generalize Binary64.order x y = found at less least greater greatest ⊢
  cases op <;> match found with
  | none => simp_all [Comparison.holds]
  | some .lt => simp_all [Comparison.holds]
  | some .eq => simp_all [Comparison.holds]
  | some .gt => simp_all [Comparison.holds]

theorem intHolds_eq (op : Comparison) (x y : Int64) :
    intHolds op x y = op.holds (some (Ord.compare x y)) := by
  have less : Ord.compare x y = .lt ↔ x < y := Std.compare_eq_lt
  have equal : Ord.compare x y = .eq ↔ x = y := Std.compare_eq_iff_eq
  have greater : Ord.compare x y = .gt ↔ y < x := Std.compare_eq_gt
  unfold intHolds
  generalize Ord.compare x y = found at less equal greater ⊢
  cases op <;> cases found <;> simp_all [Comparison.holds]

theorem boolHolds_eq (op : Comparison) (x y : Bool) :
    intHolds op (if x then 1 else 0) (if y then 1 else 0) = op.holds (some (Ord.compare x y)) := by
  cases op <;> cases x <;> cases y <;> decide

end TwoTier.Native
