import TwoTier.Proofs.Forms.Folding
import TwoTier.Proofs.Forms.Loops

/-! All passes keep a body well formed, however often they run. -/

namespace TwoTier

/-- The rule once loops may be lowered. -/
def Passes.Rule.lowering (rule : Passes.Rule) : Passes.Rule := { rule with unlowered := False }

theorem Passes.Rule.implies_lowering (rule : Passes.Rule) : rule.Implies rule.lowering :=
  ⟨id, id, id, False.elim, id, id⟩

theorem Passes.routine_setRoutine (body : Typed.Body) (index other : Typed.RoutineIndex)
    (routine : Typed.Routine) :
    (body.setRoutine index routine).routine other = routine ∧ other = index ∨
      (body.setRoutine index routine).routine other = body.routine other := by
  unfold Typed.Body.setRoutine Typed.Body.routine
  simp only [List.getD_eq_getElem?_getD]
  by_cases same : index = other
  · subst same
    by_cases inside : index < body.routines.length
    · exact .inl ⟨by simp [inside], rfl⟩
    · exact .inr (by rw [List.set_eq_of_length_le (Nat.le_of_not_lt inside)])
  · exact .inr (by rw [List.getElem?_set_ne same])

namespace Typed

open Passes (Budget Progress Pass Notes Place Rule Site Work routine_setRoutine)

variable {index : RoutineIndex} {progress : Progress}

section Routines

variable {profile? : RoutineIndex → Option Profile} {rule : Rule} {routine : Routine}

theorem Routine.formed_default : (default : Routine).Formed profile? rule := ⟨.nil, blockFormed_nil⟩

theorem Routine.Formed.folded (formed : routine.Formed profile? rule) :
    routine.folded.2.Formed profile? rule :=
  ⟨formed.params, formed.body.folded⟩

theorem Routine.Formed.weaken {other : Rule} (formed : routine.Formed profile? rule)
    (implies : rule.Implies other) : routine.Formed profile? other :=
  ⟨formed.params, formed.body.ease .refl implies⟩

theorem Hosts.domain_eq (hosts : Hosts routine large work)
    (within : (routine.domain profile?).Within large) : work.routine.domain profile? = large := by
  obtain ⟨locals, result, calls⟩ := large
  obtain rfl := hosts.locals
  cases within.result
  cases within.profile?
  rw [Routine.domain, hosts.gains.result]

theorem Routine.Formed.rebuilt (formed : routine.Formed profile? rule)
    {action : StateM Work (List Stmt)}
    (yields : Yields (Hosts routine) (routine.domain profile?)
      (fun large after => BlockFormed large { rule } after) action) :
    ({ (action.run { routine }).2.routine with body := (action.run { routine }).1 } :
      Routine).Formed profile? rule ∧
    routine.Stays
      { (action.run { routine }).2.routine with body := (action.run { routine }).1 } := by
  obtain ⟨large, within, hosts, built⟩ := yields { routine } ⟨rfl, .refl⟩
  have same := hosts.domain_eq within
  refine ⟨⟨?_, same ▸ built⟩, ?_⟩
  · have grown := formed.params.imp fun _ _ declared => declared.grow within
    rw [← hosts.gains.params, ← hosts.gains.argKinds, ← same] at grown
    exact grown
  · exact ⟨congrArg₂ Profile.mk hosts.gains.argKinds hosts.gains.result, hosts.gains.effects⟩

end Routines

/-- Every routine of a body is well formed by its rule, and those that may be called are known by
their profiles. A body that is known to store says so. -/
structure BodyFormed (profile? : RoutineIndex → Option Profile) (rules : RoutineIndex → Rule)
    (storing : Prop) (body : Body) : Prop where
  routine : ∀ index, (body.routine index).Formed profile? (rules index)
  known : ∀ {callee profile}, profile? callee = some profile →
    callee < body.routines.length ∧ (body.routine callee).profile = profile
  effects : storing → body.purity = .mutatesContainer

/-- Rules by which routines that may be called are fit to be copied into all code. -/
structure Copying (profile? : RoutineIndex → Option Profile) (rules : RoutineIndex → Rule) :
    Prop where
  copies : ∀ {callee profile}, profile? callee = some profile → ∀ caller,
    (rules callee).Copies (rules caller)
  calm : ∀ {index}, (rules index).unbroken → (rules index).unlowered

namespace BodyFormed

variable {profile? : RoutineIndex → Option Profile} {rules : RoutineIndex → Rule} {storing : Prop}
  {body : Body}

theorem weaken {others : RoutineIndex → Rule} (formed : BodyFormed profile? rules storing body)
    (implies : ∀ index, (rules index).Implies (others index)) :
    BodyFormed profile? others storing body :=
  { formed with routine := fun index => (formed.routine index).weaken (implies index) }

theorem setRoutine (formed : BodyFormed profile? rules storing body)
    (kept : changed.Formed profile? (rules index)) (stays : (body.routine index).Stays changed) :
    BodyFormed profile? rules storing (body.setRoutine index changed) where
  routine other := by
    obtain ⟨here, rfl⟩ | elsewhere := routine_setRoutine body index other changed
    · rw [here]
      exact kept
    · rw [elsewhere]
      exact formed.routine other
  known := by
    intro callee profile found
    obtain ⟨inside, own⟩ := formed.known found
    refine ⟨by simpa [Body.setRoutine] using inside, ?_⟩
    obtain ⟨here, rfl⟩ | elsewhere := routine_setRoutine body index callee changed
    · rw [here, stays.profile, own]
    · rw [elsewhere, own]
  effects asked := by
    obtain ⟨_, member, stores⟩ := Body.purity_eq_mutatesContainer.1 (formed.effects asked)
    obtain ⟨other, inside, rfl⟩ := List.getElem_of_mem member
    have before : body.routine other = body.routines[other] := by simp [Body.routine, inside]
    have within : (body.setRoutine index changed).routine other ∈
        (body.setRoutine index changed).routines := by
      simp [Body.routine, Body.setRoutine, inside]
    refine Body.purity_eq_mutatesContainer.2 ⟨_, within, ?_⟩
    obtain ⟨here, rfl⟩ | elsewhere := routine_setRoutine body index other changed
    · rw [here]
      exact stays.effects (before ▸ stores)
    · rw [elsewhere, before, stores]

theorem apply (formed : BodyFormed profile? rules storing progress.body) (pass : Pass)
    {run : Routine → Notes × Routine}
    (keeps : ∀ {routine : Routine}, routine.Formed profile? (rules index) → (run routine).2.Formed
      profile? (rules index) ∧ routine.Stays (run routine).2) :
    BodyFormed profile? rules storing (progress.apply pass index run).body :=
  formed.setRoutine (keeps (formed.routine index)).1 (keeps (formed.routine index)).2

theorem foldl {step : Progress → RoutineIndex → Progress}
    (keeps : ∀ {progress : Progress} (index : RoutineIndex),
      BodyFormed profile? rules storing progress.body →
        BodyFormed profile? rules storing (step progress index).body)
    (indices : List RoutineIndex) : ∀ {progress : Progress},
      BodyFormed profile? rules storing progress.body →
        BodyFormed profile? rules storing (indices.foldl step progress).body := by
  induction indices with
  | nil => exact id
  | cons index rest ih => exact fun formed => ih (keeps index formed)

theorem fold (index : RoutineIndex) (formed : BodyFormed profile? rules storing progress.body) :
    BodyFormed profile? rules storing (progress.fold index).body :=
  formed.apply .fold fun routine => ⟨routine.folded, rfl, id⟩

theorem inlineRounds (copying : Copying profile? rules) (caller : RoutineIndex) (budget : Budget)
    (rounds : Nat) : ∀ {body : Body}, BodyFormed profile? rules storing body →
      BodyFormed profile? rules storing (Passes.inlineRounds caller budget rounds body).2 := by
  induction rounds with
  | zero => exact id
  | succ rounds ih =>
    intro body formed
    have supplies : Supplies ⟨body, caller, budget⟩ (rules caller)
        ((body.routine caller).domain profile?) := fun {callee _} found =>
      ⟨(formed.known found).2, _, copying.copies found caller, formed.routine callee⟩
    have takes : Place.Takes (rules caller) { rule := rules caller } :=
      ⟨rfl, fun asked => ⟨copying.calm asked, rfl⟩⟩
    have rebuilt := (formed.routine caller).rebuilt
      (yields_inlinedBlock supplies takes (formed.routine caller).body)
    have once : BodyFormed profile? rules storing
        (body.setRoutine caller (Site.round ⟨body, caller, budget⟩).2) :=
      formed.setRoutine rebuilt.1 rebuilt.2
    unfold Passes.inlineRounds
    dsimp only
    split
    · exact once
    · exact ih once

theorem inlineAll (copying : Copying profile? rules) {budget : Budget} {size : Nat}
    (formed : BodyFormed profile? rules storing progress.body) :
    BodyFormed profile? rules storing (progress.inlineAll budget size).body := by
  unfold Progress.inlineAll
  split
  · exact formed
  · exact foldl (fun index formed => inlineRounds copying index budget _ formed) _ formed

theorem lower (formed : BodyFormed profile? rules storing progress.body) (wanted : Bool)
    (pass : Pass) {run : Routine → Notes × Routine}
    (keeps : ∀ {routine : Routine}, routine.Formed profile? (rules index) → (run routine).2.Formed
      profile? (rules index) ∧ routine.Stays (run routine).2) :
    BodyFormed profile? rules storing (progress.lower wanted pass index run).body := by
  unfold Progress.lower
  split
  · exact formed
  · split
    · exact formed
    · exact formed.apply pass keeps

theorem ready (index : RoutineIndex) (formed : BodyFormed profile? rules storing progress.body) :
    BodyFormed profile? rules storing ((progress.apply .normalize index Passes.countLoops).apply .licm
      index Passes.hoistInvariants).body := by
  refine apply (apply formed .normalize ?_) .licm ?_
  · exact fun routine => ⟨⟨routine.params, routine.body.counted⟩, rfl, id⟩
  · exact fun routine => routine.rebuilt (yields_hoistedBlock routine.body)

theorem lowerLoops (budget : Budget) (mayLower : ¬ (rules index).unlowered)
    (formed : BodyFormed profile? rules storing progress.body) :
    BodyFormed profile? rules storing (progress.lowerLoops budget index).body := by
  refine lower (lower (formed.ready index) _ .parallel ?_) _ .simd ?_
  · exact fun routine => routine.rebuilt (yields_chunkedBlock routine.body mayLower)
  · intro routine formed
    unfold Passes.splitLanes
    split
    · exact ⟨formed, rfl, id⟩
    · exact ⟨⟨formed.params, formed.body.laned rfl mayLower⟩, rfl, id⟩

theorem optimize (copying : Copying profile? rules) (settings : Settings)
    (formed : BodyFormed profile? rules storing body) :
    BodyFormed profile? (fun index => (rules index).lowering) storing
      (Passes.optimize settings body).2 := by
  have flat {budget : Budget} {size : Nat} {progress : Progress}
      (formed : BodyFormed profile? rules storing progress.body) :
      BodyFormed profile? (fun index => (rules index).lowering) storing
        (progress.inlineAll budget size).body :=
    (inlineAll copying formed).weaken fun index => (rules index).implies_lowering
  unfold Passes.optimize Progress.announceHot
  dsimp only
  split
  all_goals
    exact foldl (fun _ formed => lowerLoops _ id formed) _ (flat (foldl fold _ formed))

end BodyFormed

end Typed
end TwoTier
