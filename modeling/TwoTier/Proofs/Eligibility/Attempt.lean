import Mathlib.Order.Defs.Unbundled
import TwoTier.Eligibility.Draft

namespace TwoTier.Eligibility

variable {σ τ α β : Type} {state after : σ}

/-- What holds of a value and the state with it, and of the state that a refusal leaves; if `loose`,
an outcome may be cut short. -/
def Trial.Meets (loose : Prop) (good : α → σ → Prop) (holds : σ → Prop) : Trial σ α → Prop
  | .ok value after => good value after
  | .refused _ after => holds after
  | .exhausted => loose

abbrev Trial.Leaves (loose : Prop) (holds : σ → Prop) : Trial σ α → Prop :=
  Meets loose (fun _ => holds) holds

/-- Whether an outcome is one with a state, of which something holds. -/
abbrev Trial.Ends (holds : σ → Prop) : Trial σ α → Prop := Leaves False holds

theorem Trial.Meets.imp {loose : Prop} {good fine : α → σ → Prop} {holds weaker : σ → Prop}
    {trial : Trial σ α} (meets : trial.Meets loose good holds)
    (better : ∀ {value after}, good value after → fine value after)
    (implies : ∀ {after}, holds after → weaker after) : trial.Meets loose fine weaker := by
  cases trial with
  | ok => exact better meets
  | refused => exact implies meets
  | exhausted => exact meets

theorem Trial.Leaves.mono {loose : Prop} {holds weaker : σ → Prop} {trial : Trial σ α}
    (leaves : trial.Leaves loose holds) (implies : ∀ {after}, holds after → weaker after) :
    trial.Leaves loose weaker :=
  leaves.imp implies implies

section Outcomes

variable {loose : Prop} {good : α → σ → Prop} {holds : σ → Prop} {attempt : Attempt σ α}
  (meets : (attempt state).Meets loose good holds)

include meets

theorem Trial.Meets.ok (given : attempt state = .ok value after) : good value after := by
  rw [given] at meets
  exact meets

theorem Trial.Meets.refused (given : attempt state = .refused refusal after) : holds after := by
  rw [given] at meets
  exact meets

end Outcomes

namespace Attempt

theorem bind_apply (attempt : Attempt σ α) (next : α → Attempt σ β) (state : σ) :
    (attempt >>= next) state = Attempt.bind attempt next state := rfl

instance : LawfulMonad (Attempt σ) := LawfulMonad.mk' (Attempt σ)
  (fun attempt => by
    funext state
    change Attempt.bind attempt (fun value => Attempt.pure value) state = attempt state
    rw [Attempt.bind]
    cases attempt state <;> rfl)
  (fun _ _ => rfl)
  (fun attempt _ _ => by
    funext state
    simp only [bind_apply, Attempt.bind]
    cases attempt state <;> rfl)

@[simp]
theorem pure_eq_ok {value result : α} :
    (pure value : Attempt σ α) state = .ok result after ↔ value = result ∧ state = after := by
  change Trial.ok value state = _ ↔ _
  simp

theorem bind_eq_ok {next : α → Attempt σ β} {value : β} :
    (attempt >>= next) state = .ok value after ↔
      ∃ first between, attempt state = .ok first between ∧ next first between = .ok value after := by
  change Attempt.bind attempt next state = _ ↔ _
  unfold Attempt.bind
  cases attempt state with
  | ok first between =>
    constructor
    · exact fun rest => ⟨first, between, rfl, rest⟩
    · rintro ⟨_, _, same, rest⟩
      cases same
      exact rest
  | refused | exhausted => simp

theorem mapRefusal_eq_ok {change : Refusal → Refusal} {value : α} :
    mapRefusal change attempt state = .ok value after ↔ attempt state = .ok value after := by
  unfold mapRefusal
  cases attempt state <;> simp

theorem onPart_eq_ok {part : σ → τ} {put : τ → σ → σ} {attempt : Attempt τ α} {value : α} :
    onPart part put attempt state = .ok value after ↔
      ∃ inner, attempt (part state) = .ok value inner ∧ put inner state = after := by
  unfold onPart
  cases attempt (part state) with
  | ok first inner =>
    constructor
    · intro same
      cases same
      exact ⟨inner, rfl, rfl⟩
    · rintro ⟨_, same, rfl⟩
      cases same
      rfl
  | refused | exhausted => simp

section Leaves

variable {loose : Prop} {holds : σ → Prop}

theorem leaves_mapRefusal {change : Refusal → Refusal} (leaves : (attempt state).Leaves loose holds) :
    (mapRefusal change attempt state : Trial σ α).Leaves loose holds := by
  unfold mapRefusal
  cases ran : attempt state with
  | ok | refused | exhausted =>
    rw [ran] at leaves
    exact leaves

theorem leaves_onPart {part : σ → τ} {put : τ → σ → σ} {attempt : Attempt τ α}
    (leaves : (attempt (part state)).Leaves loose fun inner => holds (put inner state)) :
    (onPart part put attempt state).Leaves loose holds := by
  unfold onPart
  cases ran : attempt (part state) with
  | ok | refused | exhausted =>
    rw [ran] at leaves
    exact leaves

end Leaves

/-- Whatever state an attempt leaves, also with a refusal, the relation leads there. -/
structure Moves (rel : σ → σ → Prop) (attempt : Attempt σ α) : Prop where
  leaves : ∀ state, (attempt state).Leaves True (rel state)

namespace Moves

variable {rel : σ → σ → Prop}

theorem ok (moves : Moves rel attempt) {value : α} (given : attempt state = .ok value after) :
    rel state after :=
  (moves.leaves state).ok given

theorem refused {attempt : Attempt σ α} (moves : Moves rel attempt)
    (given : attempt state = .refused refusal after) : rel state after :=
  (moves.leaves state).refused given

theorem of_modify {value : σ → α} {change : σ → σ}
    (same : ∀ state, attempt state = .ok (value state) (change state))
    (related : ∀ state, rel state (change state)) : Moves rel attempt where
  leaves state := by
    rw [same]
    exact related state

variable [IsPreorder σ rel]

theorem pure (value : α) : Moves rel (Pure.pure value : Attempt σ α) := ⟨fun _ => refl_of rel _⟩

theorem bind {attempt : Attempt σ α} {next : α → Attempt σ β} (first : Moves rel attempt)
    (rest : ∀ value, Moves rel (next value)) :
    Moves rel (attempt >>= next) where
  leaves state := by
    rw [bind_apply, Attempt.bind]
    cases ran : attempt state with
    | ok value between =>
      exact ((rest value).leaves between).mono fun led => trans_of rel (first.ok ran) led
    | refused => exact first.refused ran
    | exhausted => trivial

end Moves
end Attempt
end TwoTier.Eligibility
