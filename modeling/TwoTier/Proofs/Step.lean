import TwoTier.Native.Expr

namespace TwoTier.Native

open Typed (LocalId)

namespace Step

variable {σ α β : Type} {state after : σ}

theorem bind_apply (step : Step σ α) (next : α → Step σ β) (state : σ) :
    (step >>= next) state = Step.bind step next state := rfl

instance : LawfulMonad (Step σ) := LawfulMonad.mk' (Step σ)
  (fun step => by
    funext state
    change Step.bind step (fun value => Step.pure value) state = step state
    rw [Step.bind]
    cases step state <;> rfl)
  (fun _ _ => rfl)
  (fun step _ _ => by
    funext state
    simp only [bind_apply, Step.bind]
    cases step state <;> rfl)

variable {next : α → Step σ β} {step : Step σ α}

theorem bind_eq_ok {value : β} :
    (step >>= next) state = .ok value after ↔
      ∃ first between, step state = .ok first between ∧ next first between = .ok value after := by
  change Step.bind step next state = _ ↔ _
  unfold Step.bind
  cases step state with
  | ok first between =>
    constructor
    · exact fun rest => ⟨first, between, rfl, rest⟩
    · rintro ⟨_, _, same, rest⟩
      cases same
      exact rest
  | deopt | stuck | exhausted => simp

theorem bind_of_ok {first : α} {between : σ}
    (ran : step state = .ok first between) : (step >>= next) state = next first between := by
  change Step.bind step next state = _
  rw [Step.bind, ran]

theorem mapM_of_ok {items : List α} {step : α → Step σ β} {value : α → β}
    (each : ∀ item ∈ items, step item state = .ok (value item) state) :
    items.mapM step state = .ok (items.map value) state := by
  induction items with
  | nil => rfl
  | cons first rest ih =>
    rw [List.mapM_cons, bind_of_ok (each first (.head _)),
      bind_of_ok (ih fun item member => each item (.tail _ member))]
    rfl

@[simp]
theorem pure_eq_ok {value result : α} :
    (pure value : Step σ α) state = .ok result after ↔ value = result ∧ state = after := by
  change Outcome.ok value state = _ ↔ _
  simp

@[simp]
theorem ofOption_eq_ok {result : α} :
    ofOption option state = .ok result after ↔ option = some result ∧ state = after := by
  cases option <;> simp [ofOption, deopt, Step.pure]

/-- A step whose outcome depends on no state. -/
inductive Constant : Step σ α → Prop where
  | pure (value : α) : Constant (pure value)
  | deopt : Constant deopt
  | stuck : Constant stuck

theorem Constant.bind (first : Constant step)
    (rest : ∀ value, Constant (next value)) : Constant (step >>= next) := by
  cases first with
  | pure value => exact rest value
  | deopt => exact .deopt
  | stuck => exact .stuck

theorem grant_eq_ok {result : α} :
    grant option state = .ok result after ↔ option = some result ∧ state = after := by
  cases option <;> simp [grant, exhausted, Step.pure]

theorem Constant.ofOption (option : Option α) : Constant (ofOption option : Step σ α) := by
  cases option with
  | none => exact .deopt
  | some value => exact .pure value

@[simp]
theorem stuck_eq_ok {result : α} : (stuck : Step σ α) state = .ok result after ↔ False := by
  simp [stuck]

@[simp]
theorem deopt_eq_ok {result : α} : (deopt : Step σ α) state = .ok result after ↔ False := by
  simp [deopt]

end Step

namespace Machine

variable {machine after : Machine} {id : LocalId}

theorem read_eq_ok {value : Scalar} :
    read id machine = .ok value after ↔
      machine.slots[id]? = some (.scalar value) ∧ after = machine := by
  unfold read
  cases machine.slots[id]? with
  | none => simp
  | some slot => cases slot <;> simp [eq_comm]

theorem write_eq_ok {value : Scalar} {result : Unit} :
    write id value machine = .ok result after ↔
      id < machine.slots.size ∧
        after = { machine with slots := machine.slots.setIfInBounds id (.scalar value) } := by
  unfold write
  by_cases inside : id < machine.slots.size
  · simp [inside, eq_comm]
  · simp [inside]

theorem readInt_eq_ok {value : Int64} :
    readInt id machine = .ok value after ↔
      machine.slots[id]? = some (.scalar (.int value)) ∧ after = machine := by
  unfold readInt
  rw [Step.bind_eq_ok]
  constructor
  · rintro ⟨scalar, between, found, rest⟩
    obtain ⟨held, rfl⟩ := read_eq_ok.1 found
    cases scalar <;> simp_all
  · rintro ⟨held, rfl⟩
    exact ⟨.int value, after, read_eq_ok.2 ⟨held, rfl⟩, by simp⟩

theorem onShared_eq_ok {step : Step Shared α} {value : α} :
    onShared step machine = .ok value after ↔
      ∃ shared, step machine.shared = .ok value shared ∧ after = { machine with shared } := by
  unfold onShared
  dsimp only
  cases step machine.shared with
  | ok ended shared => grind
  | deopt | stuck | exhausted => simp

end Machine

section Operators

variable {σ : Type}

theorem constant_intArith (op : ArithOp) (x y : Int64) : (intArith op x y : Step σ _).Constant := by
  cases op with
  | add | sub | mul | floorDiv | mod | pow | shl | shr => exact .ofOption _
  | bitAnd | bitOr | bitXor => exact .pure _
  | div => exact .stuck

theorem constant_floatArith (op : ArithOp) (x y : Float) :
    (floatArith op x y : Step σ _).Constant := by
  cases op with
  | add | sub | mul => exact .pure _
  | div | floorDiv | mod | pow => exact .ofOption _
  | bitAnd | bitOr | bitXor | shl | shr => exact .stuck

theorem constant_arith (op : ArithOp) (left right : Scalar) :
    (arith op left right : Step σ _).Constant := by
  unfold arith
  split
  · exact (constant_intArith op _ _).bind fun _ => .pure _
  · exact (constant_floatArith op _ _).bind fun _ => .pure _
  · exact .stuck

theorem constant_unary (op : Typed.UnaryOp) (operand : Scalar) :
    (unary op operand : Step σ _).Constant := by
  unfold unary
  split
  · exact (Step.Constant.ofOption _).bind fun _ => .pure _
  · exact .pure _
  · exact .pure _
  · exact .pure _
  · exact .stuck

theorem constant_compare (op : Typed.Comparison) (left right : Scalar) :
    (compare op left right : Step σ _).Constant := by
  unfold compare
  split
  · exact .pure _
  · exact .pure _
  · exact .pure _
  · exact .stuck

theorem constant_cast (op : Typed.CastOp) (operand : Scalar) :
    (cast op operand : Step σ _).Constant := by
  unfold cast
  split
  · exact .pure _
  · split
    · exact .pure _
    · exact .deopt
  · exact (Step.Constant.ofOption _).bind fun _ => .pure _
  · exact .pure _
  · exact .pure _
  · exact .pure _
  · exact .stuck

theorem constant_absolute (operand : Scalar) : (absolute operand : Step σ _).Constant := by
  cases operand with
  | int => exact (Step.Constant.ofOption _).bind fun _ => .pure _
  | float => exact .pure _
  | bool => exact .stuck

theorem constant_extremum (op : Typed.Extremum) (left right : Scalar) :
    (extremum op left right : Step σ _).Constant := by
  unfold extremum
  split
  · exact .pure _
  · exact .pure _
  · exact .pure _
  · exact .pure _
  · exact .stuck

theorem constant_requireInt (value : Scalar) : (requireInt value : Step σ _).Constant := by
  cases value with
  | int => exact .pure _
  | float | bool => exact .stuck

theorem constant_requireBool (value : Scalar) : (requireBool value : Step σ _).Constant := by
  cases value with
  | bool => exact .pure _
  | int | float => exact .stuck

end Operators

theorem requireInt_eq_ok {value : Int64} {after : σ} :
    requireInt scalar state = .ok value after ↔ scalar = .int value ∧ after = state := by
  cases scalar with
  | int x => simp [requireInt, eq_comm (a := state)]
  | float | bool => simp [requireInt]

theorem evalInt_eq_ok {value : Int64} {state after : Machine} :
    evalInt call expr state = .ok value after ↔ eval call expr state = .ok (.int value) after := by
  unfold evalInt
  rw [Step.bind_eq_ok]
  constructor
  · rintro ⟨scalar, between, ran, needed⟩
    obtain ⟨rfl, rfl⟩ := requireInt_eq_ok.1 needed
    exact ran
  · intro ran
    exact ⟨.int value, after, ran, requireInt_eq_ok.2 ⟨rfl, rfl⟩⟩

end TwoTier.Native
