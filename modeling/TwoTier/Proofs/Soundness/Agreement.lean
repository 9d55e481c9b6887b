import TwoTier.Native.Stmt
import TwoTier.Proofs.Loop

namespace TwoTier.Native

/-- Two outcomes with one value and related states, or with the same calls under way, or with no
grant left. Both are stuck only where code is loose. -/
inductive Outcome.Agree {σ τ α : Type} (loose : Prop) (related : α → σ → τ → Prop) :
    Outcome σ α → Outcome τ α → Prop where
  | ok {value : α} {state : σ} {twin : τ} (held : related value state twin) :
      Agree loose related (.ok value state) (.ok value twin)
  | deopt (calls : List OpenCall) : Agree loose related (.deopt calls) (.deopt calls)
  | stuck (may : loose) : Agree loose related .stuck .stuck
  | exhausted : Agree loose related .exhausted .exhausted

variable {loose : Prop}

theorem Outcome.Agree.eq {related : α → σ → σ → Prop} {first second : Outcome σ α}
    (agree : Agree loose related first second)
    (same : ∀ {value state twin}, related value state twin → state = twin) : first = second := by
  cases agree with
  | ok held => rw [same held]
  | deopt | stuck | exhausted => rfl

variable {related : α → σ → τ → Prop} {second : Outcome τ α}

theorem Outcome.Agree.ne_stuck {first : Outcome σ α}
    (agree : Agree False related first second) : second ≠ .stuck := by
  cases agree with
  | ok | deopt | exhausted => nofun
  | stuck may => exact may.elim

theorem Outcome.Agree.of_ok {first : Outcome σ α} {value : α}
    {twin : τ} (agree : Agree loose related first (.ok value twin)) :
    ∃ state, related value state twin := by
  cases agree with
  | ok held => exact ⟨_, held⟩

theorem Outcome.Agree.weaken {later : α → σ → τ → Prop} {first : Outcome σ α}
    (agree : Agree loose related first second)
    (ends : ∀ {value state twin}, related value state twin → later value state twin) :
    Agree loose later first second := by
  cases agree with
  | ok held => exact .ok (ends held)
  | deopt => exact .deopt _
  | stuck may => exact .stuck may
  | exhausted => exact .exhausted

theorem Outcome.Agree.symm {first : Outcome σ α} (agree : Agree loose related first second) :
    Agree loose (fun value state twin => related value twin state) second first := by
  cases agree with
  | ok held => exact .ok held
  | deopt => exact .deopt _
  | stuck may => exact .stuck may
  | exhausted => exact .exhausted

theorem Outcome.Agree.trans {related : α → ρ → σ → Prop} {later : α → σ → τ → Prop}
    {first : Outcome ρ α} {second : Outcome σ α} {third : Outcome τ α}
    (one : Agree loose related first second) (other : Agree loose later second third) :
    Agree loose (fun value state twin => ∃ middle, related value state middle ∧
      later value middle twin) first third := by
  cases one with
  | ok held =>
    cases other with
    | ok next => exact .ok ⟨_, held, next⟩
  | deopt =>
    cases other
    exact .deopt _
  | stuck may =>
    cases other
    exact .stuck may
  | exhausted =>
    cases other
    exact .exhausted

/-- From related states two steps have outcomes that agree. -/
structure StepsAgree {σ τ α : Type} (loose : Prop) (before : σ → τ → Prop)
    (after : α → σ → τ → Prop) (step : Step σ α) (other : Step τ α) : Prop where
  run : ∀ {state twin}, before state twin → Outcome.Agree loose after (step state) (other twin)

/-- The states stay related and the value is a good one. -/
abbrev StepsAgreeIn {σ τ α : Type} (loose : Prop) (related : σ → τ → Prop) (good : α → Prop)
    (step : Step σ α) (other : Step τ α) : Prop :=
  StepsAgree loose related (fun value state twin => good value ∧ related state twin) step other

namespace StepsAgree

variable {σ τ α β : Type} {before related : σ → τ → Prop} {after : α → σ → τ → Prop}
  {last : β → σ → τ → Prop}

theorem pure {value : α} (kept : ∀ {state twin}, before state twin → after value state twin) :
    StepsAgree loose before after (Pure.pure value) (Pure.pure value) where
  run start := .ok (kept start)

theorem deopt : StepsAgree loose before after Step.deopt Step.deopt where
  run _ := .deopt []

theorem exhausted : StepsAgree loose before after Step.exhausted Step.exhausted where
  run _ := .exhausted

theorem bind {step : Step σ α} {other : Step τ α} {next : α → Step σ β} {otherNext : α → Step τ β}
    (first : StepsAgree loose before after step other)
    (rest : ∀ value, StepsAgree loose (after value) last (next value) (otherNext value)) :
    StepsAgree loose before last (step >>= next) (other >>= otherNext) where
  run {state twin} start := by
    have began := first.run start
    simp only [Step.bind_apply, Step.bind]
    generalize step state = outcome at began ⊢
    generalize other twin = otherOutcome at began ⊢
    cases began with
    | ok held => exact (rest _).run held
    | deopt calls => exact .deopt calls
    | stuck may => exact .stuck may
    | exhausted => exact .exhausted

theorem weaken {step : Step σ α} {other : Step τ α} {former : σ → τ → Prop}
    {later : α → σ → τ → Prop} (agrees : StepsAgree loose before after step other)
    (starts : ∀ {state twin}, former state twin → before state twin)
    (ends : ∀ {value state twin}, after value state twin → later value state twin) :
    StepsAgree loose former later step other where
  run start := (agrees.run (starts start)).weaken ends

theorem given {fact : Prop} {step : Step σ α} {other : Step τ α}
    (agrees : fact → StepsAgree loose before after step other) :
    StepsAgree loose (fun state twin => fact ∧ before state twin) after step other where
  run start := (agrees start.1).run start.2

theorem andThen {step : Step σ α} {other : Step τ α} {next : α → Step σ β}
    {otherNext : α → Step τ β} (first : StepsAgreeIn loose related good step other)
    (rest : ∀ value, good value → StepsAgree loose related last (next value) (otherNext value)) :
    StepsAgree loose related last (step >>= next) (other >>= otherNext) :=
  first.bind fun value => given (rest value)

end StepsAgree

namespace Step

variable {σ α β : Type} {good : α → Prop} {fine : β → Prop}

/-- A step that gives a good value or leaves the code, whatever the state. -/
inductive Settles (good : α → Prop) : Step σ α → Prop where
  | pure {value : α} (held : good value) : Settles good (Pure.pure value)
  | deopt : Settles good deopt

theorem Settles.ofOption (held : ∀ value, option = some value → good value) :
    Settles good (ofOption option : Step σ α) := by
  cases option with
  | none => exact .deopt
  | some value => exact .pure (held value rfl)

theorem Settles.bind {step : Step σ α} {next : α → Step σ β} (first : Settles good step)
    (rest : ∀ value, good value → Settles fine (next value)) : Settles fine (step >>= next) := by
  cases first with
  | pure held => exact rest _ held
  | deopt => exact .deopt

theorem Settles.map {step : Step σ α} {use : α → β} (first : Settles good step)
    (held : ∀ value, good value → fine (use value)) :
    Settles fine (step >>= fun value => Pure.pure (use value)) :=
  first.bind fun value known => .pure (held value known)

theorem Settles.agrees {step : Step σ α} {related : σ → σ → Prop} (settles : Settles good step) :
    StepsAgreeIn loose related good step step := by
  cases settles with
  | pure held => exact .pure fun start => ⟨held, start⟩
  | deopt => exact .deopt

end Step

section Loops

variable {outer inner : Machine → Machine → Prop} {inside last : Flow → Machine → Machine → Prop}
  {run other : Step Machine Flow}

/-- Where the end of a body leads: on to the next iteration, or out of the loop. -/
structure Flow.Leads (inside : Flow → Machine → Machine → Prop) (again : Machine → Machine → Prop)
    (last : Flow → Machine → Machine → Prop) : Prop where
  next : ∀ {machine twin}, inside .next machine twin → again machine twin
  skip : ∀ {machine twin}, inside .skip machine twin → again machine twin
  leave : ∀ {machine twin}, inside .leave machine twin → last .next machine twin
  giveBack : ∀ {result machine twin}, inside (.giveBack result) machine twin →
    last (.giveBack result) machine twin
  exit : ∀ {label machine twin}, inside (.exit label) machine twin →
    last (.exit label) machine twin

theorem StepsAgree.afterBody {again : Step Machine Flow} (leads : Flow.Leads inside outer last)
    (rest : StepsAgree loose outer last again otherAgain) (flow : Flow) :
    StepsAgree loose (inside flow) last (afterBody again flow) (afterBody otherAgain flow) := by
  cases flow with
  | next => exact rest.weaken leads.next id
  | skip => exact rest.weaken leads.skip id
  | leave => exact .pure leads.leave
  | giveBack => exact .pure leads.giveBack
  | exit => exact .pure leads.exit

theorem StepsAgree.whileLoop {tested : Bool → Machine → Machine → Prop} {cond : Step Machine Bool}
    (test : StepsAgree loose outer tested cond otherCond)
    (stops : ∀ {machine twin}, tested false machine twin → last .next machine twin)
    (body : StepsAgree loose (tested true) inside run other) (leads : Flow.Leads inside outer last)
    (fuel : Nat) :
    StepsAgree loose outer last (whileLoop cond run fuel) (whileLoop otherCond other fuel) := by
  induction fuel with
  | zero => exact .exhausted
  | succ fuel ih =>
    rw [whileLoop_succ, whileLoop_succ]
    refine test.bind fun holds => ?_
    cases holds with
    | false => exact .pure stops
    | true => exact body.bind (.afterBody leads ih)

theorem StepsAgree.countFrom {step : Int64}
    (enters : ∀ i, StepsAgree loose outer (fun _ => inner) (setCount head i) (setCount head i))
    (stops : ∀ {machine twin}, outer machine twin → last .next machine twin)
    (body : StepsAgree loose inner inside run other) (leads : Flow.Leads inside inner last)
    (moves : ∀ i, StepsAgree loose inner (fun _ => outer) (nextCount head step i) (nextCount head
      step i)) (fuel : Nat) (i : Int64) :
    StepsAgree loose outer last (countFrom head stop step run fuel i)
      (countFrom head stop step other fuel i) := by
  induction fuel generalizing i with
  | zero => exact .exhausted
  | succ fuel ih =>
    rw [countFrom_succ, countFrom_succ]
    split
    · refine (enters i).bind fun _ => body.bind (.afterBody leads ((moves i).bind fun next => ?_))
      cases next with
      | none => exact .pure stops
      | some next => exact ih next
    · exact .pure stops

theorem StepsAgree.countedLoop {step : Int64}
    (writes : ∀ i, StepsAgree loose outer (fun _ => inner) (Machine.write head.var (.int i))
      (Machine.write head.var (.int i)))
    (reads : StepsAgree loose inner (fun _ => inner) (Machine.readInt head.var) (Machine.readInt
      head.var)) (exits : ∀ {machine twin}, inner machine twin → outer machine twin)
    (stops : ∀ {machine twin}, outer machine twin → last .next machine twin)
    (body : StepsAgree loose inner inside run other) (leads : Flow.Leads inside inner last)
    (start : Int64) (fuel : Nat) :
    StepsAgree loose outer last (countedLoop head start stop step run fuel)
      (countedLoop head start stop step other fuel) := by
  unfold Native.countedLoop
  split
  · exact .deopt
  · split
    · rename_i kept
      refine (writes _).bind fun _ => .countFrom (fun i => ?_) (fun held => stops (exits held)) body
        leads (fun i => ?_) fuel start
      · rw [setCount, if_pos kept]
        exact .pure id
      · rw [nextCount, if_pos kept]
        refine reads.bind fun i => ?_
        dsimp only
        split
        · exact .deopt
        · exact ((writes _).weaken exits id).bind fun _ => .pure id
    · rename_i visited
      refine .countFrom (fun i => ?_) stops body leads (fun i => ?_) fuel start
      · rw [setCount, if_neg visited]
        exact writes _
      · rw [nextCount, if_neg visited]
        exact .pure exits

end Loops
end TwoTier.Native
