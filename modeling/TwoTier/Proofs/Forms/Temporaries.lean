import Mathlib.Data.List.Forall2
import TwoTier.Passes.Pipeline
import TwoTier.Proofs.Forms.Formed
import TwoTier.Proofs.Purity

namespace TwoTier

/-- Every result of a stateful computation has the property. -/
def Passes.Always {σ α : Type} (holds : α → Prop) (action : StateM σ α) : Prop :=
  ∀ state, holds (action.run state).1

namespace Passes.Always

variable {σ α β : Type} {holds : β → Prop}

theorem pure {value : β} (held : holds value) : Always holds (Pure.pure value : StateM σ β) :=
  fun _ => held

theorem bind {first : α → Prop} {action : StateM σ α} {next : α → StateM σ β}
    (start : Always first action) (rest : ∀ value, first value → Always holds (next value)) :
    Always holds (action >>= next) :=
  fun state => rest _ (start state) _

theorem after {action : StateM σ α} {next : α → StateM σ β}
    (rest : ∀ value, Always holds (next value)) : Always holds (action >>= next) :=
  fun _ => rest _ _

end Passes.Always

namespace Typed

open Passes (Always Rule Work)

/-- A routine with more temporaries, and perhaps with more effects. -/
structure Routine.Gains (before after : Routine) : Prop where
  locals : before.locals <+: after.locals
  params : after.params = before.params
  argKinds : after.argKinds = before.argKinds
  result : after.result = before.result
  effects : before.purity = .mutatesContainer → after.purity = .mutatesContainer

namespace Routine.Gains

variable {first second third : Routine}

theorem refl : first.Gains first := ⟨List.prefix_rfl, rfl, rfl, rfl, id⟩

theorem trans (one : first.Gains second) (other : second.Gains third) : first.Gains third :=
  ⟨one.locals.trans other.locals, other.params.trans one.params, other.argKinds.trans one.argKinds,
    other.result.trans one.result, fun stores => other.effects (one.effects stores)⟩

end Routine.Gains

namespace Domain.Within

variable {small middle large : Domain}

theorem refl : small.Within small := ⟨List.prefix_rfl, rfl, rfl⟩

theorem trans (one : small.Within middle) (other : middle.Within large) : small.Within large :=
  ⟨one.locals.trans other.locals, other.result.trans one.result, other.profile?.trans one.profile?⟩

end Domain.Within

def Domain.addTemp (domain : Domain) (name : String) (kind : Kind) : Domain :=
  { domain with locals := domain.locals ++ [⟨name, kind, .temp⟩] }

theorem Domain.within_addTemp {domain : Domain} (name : String) (kind : Kind) :
    domain.Within (domain.addTemp name kind) :=
  ⟨List.prefix_append _ _, rfl, rfl⟩

theorem Domain.declares_addTemp {domain : Domain} (name : String) (kind : Kind) :
    (domain.addTemp name kind).Declares domain.locals.length kind :=
  ⟨⟨name, kind, .temp⟩, List.getElem?_concat_length, rfl⟩

/-- A computation that only adds locals, and whose result has a property of those. -/
def Yields {σ α : Type} (fits : Domain → σ → Prop) (domain : Domain) (holds : Domain → α → Prop)
    (action : StateM σ α) : Prop :=
  ∀ state, fits domain state → ∃ large, domain.Within large ∧ fits large (action.run state).2 ∧
    holds large (action.run state).1

namespace Yields

variable {σ α β : Type} {fits : Domain → σ → Prop} {domain : Domain} {holds : Domain → β → Prop}

theorem pure {value : β} (held : holds domain value) :
    Yields fits domain holds (Pure.pure value : StateM σ β) :=
  fun _ here => ⟨domain, .refl, here, held⟩

theorem bind {first : Domain → α → Prop} {action : StateM σ α} {next : α → StateM σ β}
    (start : Yields fits domain first action)
    (rest : ∀ {large : Domain} (value : α), domain.Within large → first large value →
      Yields fits large holds (next value)) :
    Yields fits domain holds (action >>= next) := by
  intro state here
  obtain ⟨middle, within, between, held⟩ := start state here
  obtain ⟨large, further, last, done⟩ := rest _ within held _ between
  exact ⟨large, within.trans further, last, done⟩

variable {action : StateM σ β}

theorem always {also : β → Prop} (held : Yields fits domain holds action)
    (every : Always also action) :
    Yields fits domain (fun large value => holds large value ∧ also value) action := by
  intro state here
  obtain ⟨large, within, last, done⟩ := held state here
  exact ⟨large, within, last, done, every state⟩

theorem still
    (kept : ∀ state, fits domain state → fits domain (action.run state).2) :
    Yields fits domain (fun _ _ => True) action :=
  fun state here => ⟨domain, .refl, kept state here, trivial⟩

theorem foldlM {step : β → α → StateM σ β} {items : List α} {domain : Domain} {start : β}
    (held : holds domain start) (keeps : ∀ {large : Domain} (value : β) (item : α), domain.Within
      large → item ∈ items → holds large value → Yields fits large holds (step value item)) :
    Yields fits domain holds (items.foldlM step start) := by
  match items with
  | [] => exact pure held
  | item :: _ =>
    exact bind (keeps start item .refl (.head _) held) fun _ within held =>
      foldlM held fun value other further member =>
        keeps value other (within.trans further) (.tail _ member)

end Yields

def Routine.domain (routine : Routine) (profile? : RoutineIndex → Option Profile) : Domain :=
  ⟨routine.locals, routine.result, profile?⟩

/-- A routine whose parameters have its kinds, and whose code is well formed. -/
structure Routine.Formed (profile? : RoutineIndex → Option Profile) (rule : Rule)
    (routine : Routine) : Prop where
  params : List.Forall₂ (routine.domain profile?).Declares routine.params routine.argKinds
  body : BlockFormed (routine.domain profile?) { rule } routine.body

def Routine.profile (routine : Routine) : Profile := ⟨routine.argKinds, routine.result⟩

/-- A routine that is to its callers what it was, and has the effects that it had. -/
structure Routine.Stays (before after : Routine) : Prop where
  profile : after.profile = before.profile
  effects : before.purity = .mutatesContainer → after.purity = .mutatesContainer

/-- A pass works on a routine that has gained temporaries since the start. -/
structure Hosts (start : Routine) (domain : Domain) (work : Work) : Prop where
  locals : work.routine.locals = domain.locals
  gains : start.Gains work.routine

variable {start : Routine}

theorem Yields.and {first second : Domain → β → Prop} {action : StateM Work β}
    (one : Yields (Hosts start) domain first action)
    (other : Yields (Hosts start) domain second action) :
    Yields (Hosts start) domain (fun large value => first large value ∧ second large value)
      action := by
  intro work hosts
  obtain ⟨large, within, ended, held⟩ := one work hosts
  obtain ⟨again, beyond, also, too⟩ := other work hosts
  have same : again = large := by
    cases large
    cases within.result.trans beyond.result.symm
    cases within.profile?.trans beyond.profile?.symm
    cases ended.locals.symm.trans also.locals
    rfl
  exact ⟨large, within, ended, held, same ▸ too⟩

theorem Hosts.kept {before after : Work} (hosts : Hosts start domain before)
    (locals : after.routine.locals = before.routine.locals)
    (gains : before.routine.Gains after.routine) : Hosts start domain after :=
  ⟨locals.trans hosts.locals, hosts.gains.trans gains⟩

theorem yields_addTemp {domain : Domain} (name : String) (kind : Kind) :
    Yields (Hosts start) domain (fun large id => large.Declares id kind)
      (Work.addTemp name kind) := by
  intro work hosts
  refine ⟨domain.addTemp name kind, domain.within_addTemp name kind, ⟨?_, ?_⟩, ?_⟩
  · exact congrArg (· ++ [⟨name, kind, .temp⟩]) hosts.locals
  · exact hosts.gains.trans ⟨List.prefix_append _ _, rfl, rfl, rfl, id⟩
  · have fresh : (domain.addTemp name kind).Declares work.routine.locals.length kind := by
      rw [hosts.locals]
      exact domain.declares_addTemp name kind
    exact fresh

theorem yields_note (notes : Passes.Notes) :
    Yields (Hosts start) domain (fun _ _ => True) (Work.note notes) :=
  .still fun _ hosts => hosts.kept rfl .refl

end Typed
end TwoTier
