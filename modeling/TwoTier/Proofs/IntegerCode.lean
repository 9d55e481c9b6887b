import TwoTier.Interp.Builtin
import TwoTier.Eligibility.ExprTyping
import TwoTier.Native.Expr
import TwoTier.Proofs.Instruction

/-! Compiled integer code agrees with dynamic evaluation. -/

namespace TwoTier.Native

open Eligibility.Subject (arithOp?)

open Interp (Heap Run Value)

variable {σ : Type}

/-- Code that is left where a dynamic run raises, and gives its value elsewhere; neither has effects. -/
def Realizes (code : Step σ Scalar) (run : Run Heap Value) : Prop :=
  ∀ state heap,
    (code state = .deopt [] ∧ ∃ exception, run heap = .raised exception heap) ∨
      ∃ value, code state = .ok value state ∧ run heap = .ok (.ofScalar value) heap

theorem realizes_pure (value : Scalar) :
    Realizes (pure value : Step σ Scalar) (pure (.ofScalar value)) :=
  fun _ _ => .inr ⟨value, rfl, rfl⟩

theorem realizes_checked {code result : Option Int64} (same : code = result) :
    Realizes (do return .int (← Step.ofOption code) : Step σ Scalar) (Interp.checked result) := by
  intro state heap
  subst same
  cases code with
  | none => exact .inl ⟨rfl, _, rfl⟩
  | some value => exact .inr ⟨.int value, rfl, rfl⟩

theorem realizes_ofArith {code : Option Int64} {result : Except ArithFault Int64}
    (same : code = result.toOption) :
    Realizes (do return .int (← Step.ofOption code) : Step σ Scalar)
      (Value.int <$> Run.ofArith result) := by
  intro state heap
  subst same
  cases result with
  | error fault => exact .inl ⟨rfl, _, rfl⟩
  | ok value => exact .inr ⟨.int value, rfl, rfl⟩

theorem realizes_arith {op : Surface.BinOp} {typed : ArithOp} (named : arithOp? op = some typed)
    (whole : typed ≠ .div) {x y : Int64} (positive : typed = .pow → 0 ≤ y) :
    Realizes (arith typed (.int x) (.int y) : Step σ Scalar) (Interp.binary op (.int x) (.int y)) := by
  have dynamic : Interp.binary op (.int x) (.int y) = Interp.wordBinary op x y := by
    cases op <;> rfl
  rw [dynamic]
  cases op <;> cases named
  case add => exact realizes_checked (checkedAdd_eq x y)
  case sub => exact realizes_checked (checkedSub_eq x y)
  case mul => exact realizes_checked (checkedMul_eq x y)
  case div => exact absurd rfl whole
  case floorDiv => exact realizes_ofArith (floorQuotient_eq x y)
  case mod => exact realizes_ofArith (floorRemainder_eq x y)
  case pow =>
    rw [Interp.wordBinary, if_neg (Int64.not_lt.2 (positive rfl))]
    exact realizes_ofArith rfl
  case shl => exact realizes_ofArith (checkedShl_eq x y)
  case shr => exact realizes_ofArith (checkedShr_eq x y)
  all_goals exact realizes_pure _

theorem elementPosition_eq {index length : Int64} (nonneg : 0 ≤ length) :
    elementPosition index length = Interp.position length index := by
  have nonneg := Int64.le_iff_toInt_le.1 nonneg
  rw [Int64.toInt_zero] at nonneg
  have bound := length.toInt_lt
  have far := toNat_toUInt64 length
  unfold elementPosition Interp.position
  dsimp only
  generalize (if index < 0 then index + length else index) = place
  have near := toNat_toUInt64 place
  have low := place.le_toInt
  have high := place.toInt_lt
  have outside : place.toUInt64 ≥ length.toUInt64 ↔ place < 0 ∨ length ≤ place := by
    rw [ge_iff_le, UInt64.le_iff_toNat_le, Int64.lt_iff_toInt_lt, Int64.le_iff_toInt_le,
      Int64.toInt_zero]
    omega
  rw [if_congr outside rfl rfl]
  split
  · rfl
  · rename_i inside
    rw [Int64.lt_iff_toInt_lt, Int64.toInt_zero] at inside
    exact congrArg some (by omega)

theorem fitsExactly_iff (x : Int64) : fitsExactly x = true ↔ x.toInt.natAbs ≤ 2 ^ 53 := by
  have limit : Binary64.exactLimit.toUInt64.toNat = 2 ^ 53 := by decide
  rw [fitsExactly_eq, Binary64.isExact, decide_eq_true_iff, UInt64.le_iff_toNat_le, toNat_magnitude,
    limit]

/-- Integer code agrees with dynamic evaluation of the operations, with the exactness of conversion
to floats and with the meaning of an index. -/
theorem integerCode_realizes (x y : Int64) :
    (∀ {op typed}, arithOp? op = some typed → typed ≠ .div → (typed = .pow → 0 ≤ y) →
      Realizes (arith typed (.int x) (.int y) : Step σ Scalar) (Interp.binary op (.int x) (.int y))) ∧
    Realizes (unary .neg (.int x) : Step σ Scalar) (Interp.unary .neg (.int x)) ∧
    Realizes (absolute (.int x) : Step σ Scalar) (Interp.absolute (.int x)) ∧
    (∀ state : σ, cast .intToFloatExact (.int x) state =
      if 2 ^ 53 < x.toInt.natAbs then .deopt [] else .ok (.float x.toFloat) state) ∧
    ∀ {length}, 0 ≤ length → ∀ what,
      (elementPosition x length = none ∧
        ∃ exception, Interp.sequenceIndex (.int x) length what = .error exception) ∨
      ∃ place, elementPosition x length = some place ∧
        Interp.sequenceIndex (.int x) length what = .ok place := by
  refine ⟨fun named whole positive => realizes_arith named whole positive, ?_, ?_, fun state => ?_,
    fun {length} nonneg what => ?_⟩
  · exact realizes_checked (checkedNeg_eq x)
  · exact realizes_checked (checkedAbs_eq x)
  · have guard := fitsExactly_iff x
    rw [cast]
    by_cases small : x.toInt.natAbs ≤ 2 ^ 53
    · rw [if_pos (guard.2 small), if_neg (Nat.not_lt.2 small)]
      rfl
    · rw [if_neg (mt guard.1 small), if_pos (Nat.not_le.1 small)]
      rfl
  · rw [elementPosition_eq nonneg, Interp.sequenceIndex]
    dsimp only [Value.int?]
    cases Interp.position length x with
    | none => exact .inl ⟨rfl, _, rfl⟩
    | some place => exact .inr ⟨place, rfl, rfl⟩

/-- The one quotient of words that is not a word. -/
theorem integerCode_realizes_leastQuotient :
    Realizes (arith .floorDiv (.int Int64.minValue) (.int (-1)) : Step Unit Scalar)
      (Interp.binary .floorDiv (.int Int64.minValue) (.int (-1))) ∧
    arith .floorDiv (.int Int64.minValue) (.int (-1)) () = .deopt [] :=
  ⟨(integerCode_realizes _ _).1 rfl (by decide) (by decide), rfl⟩

end TwoTier.Native
