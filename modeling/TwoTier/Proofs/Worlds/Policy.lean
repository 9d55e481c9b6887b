import TwoTier.Interp.Call
import TwoTier.Proofs.Run

namespace TwoTier.Interp

section Rules

variable {σ α β : Type} {holds : σ → Prop} {good : α → Prop} {fine : β → Prop}

/-- The state of a result has the property, and its value is good; nothing is left if exhausted. -/
def Result.Meets (holds : σ → Prop) (good : α → Prop) : Result σ α → Prop
  | .ok value state => good value ∧ holds state
  | .raised _ state => holds state
  | .exhausted => True

/-- A run that keeps a property of states and gives good values. -/
structure Run.Yields (holds : σ → Prop) (good : α → Prop) (run : Run σ α) : Prop where
  meets : ∀ {state}, holds state → (run state).Meets holds good

variable {run : Run σ α} {value : α} {result : Except Exception α} {next : α → Run σ β}
  {change : α → β}

namespace Run.Yields

theorem pure (held : good value) : Run.Yields holds good (Pure.pure value) :=
  ⟨fun start => ⟨held, start⟩⟩

theorem raise (exception : Exception) : Run.Yields holds good (Run.raise exception) := ⟨id⟩

theorem ofExcept (held : ∀ value, result = .ok value → good value) :
    Run.Yields holds good (Run.ofExcept result) := by
  cases result with
  | ok value => exact .pure (held value rfl)
  | error exception => exact .raise exception

theorem bind (first : Run.Yields holds good run)
    (rest : ∀ value, good value → Run.Yields holds fine (next value)) :
    Run.Yields holds fine (run >>= next) := by
  constructor
  intro state start
  have met := first.meets start
  rw [Run.bind_apply]
  generalize run state = result at met ⊢
  cases result with
  | ok value after => exact (rest value met.1).meets met.2
  | raised exception after => exact met
  | exhausted => trivial

theorem map (first : Run.Yields holds good run)
    (held : ∀ value, good value → fine (change value)) : Run.Yields holds fine (change <$> run) :=
  first.bind fun value isGood => .pure (held value isGood)

theorem weaken {other : α → Prop} (yields : Run.Yields holds good run)
    (held : ∀ value, good value → other value) : Run.Yields holds other run := by
  constructor
  intro state start
  have met := yields.meets start
  generalize run state = result at met ⊢
  cases result with
  | ok value after => exact ⟨held value met.1, met.2⟩
  | raised | exhausted => exact met

theorem inspect {next : σ → Run σ β}
    (rest : ∀ state, holds state → Run.Yields holds fine (next state)) :
    Run.Yields holds fine (Run.get >>= next) :=
  ⟨fun {state} start => (rest state start).meets start⟩

theorem modify {change : σ → σ} (kept : ∀ state, holds state → holds (change state)) :
    Run.Yields holds (fun _ => True) (Run.modify change) :=
  ⟨fun {state} start => ⟨trivial, kept state start⟩⟩

end Run.Yields

variable {ρ : Type} {related : σ → ρ → Prop}

/-- Two results with the same good value or the same exception, and related states. -/
inductive Result.Agrees (related : σ → ρ → Prop) (good : α → Prop) :
    Result σ α → Result ρ α → Prop where
  | ok {value : α} {state : σ} {other : ρ} (held : good value) (linked : related state other) :
    Agrees related good (.ok value state) (.ok value other)
  | raised {exception : Exception} {state : σ} {other : ρ} (linked : related state other) :
    Agrees related good (.raised exception state) (.raised exception other)
  | exhausted {result : Result ρ α} : Agrees related good .exhausted result
  | unfinished {result : Result σ α} : Agrees related good result .exhausted

/-- From related states the runs agree. -/
structure Run.Matches (related : σ → ρ → Prop) (good : α → Prop) (run : Run σ α) (plain : Run ρ α) :
    Prop where
  agrees : ∀ {state other}, related state other → (run state).Agrees related good (plain other)

namespace Run.Matches

theorem pure (held : good value) :
    Run.Matches related good (Pure.pure value) (Pure.pure value) :=
  ⟨fun linked => .ok held linked⟩

theorem raise (exception : Exception) :
    Run.Matches related good (Run.raise exception) (Run.raise exception) :=
  ⟨fun linked => .raised linked⟩

theorem raiseThen (exception : Exception) (next : α → Run σ β) (plainNext : α → Run ρ β) :
    Run.Matches related fine (Run.raise exception >>= next) (Run.raise exception >>= plainNext) :=
  ⟨fun linked => .raised linked⟩

theorem ofExcept (held : ∀ value, result = .ok value → good value) :
    Run.Matches related good (Run.ofExcept result) (Run.ofExcept result) := by
  cases result with
  | ok value => exact .pure (held value rfl)
  | error exception => exact .raise exception

variable {plain : Run ρ α}

theorem bind {plainNext : α → Run ρ β}
    (first : Run.Matches related good run plain)
    (rest : ∀ value, good value → Run.Matches related fine (next value) (plainNext value)) :
    Run.Matches related fine (run >>= next) (plain >>= plainNext) := by
  constructor
  intro state other linked
  have agreed := first.agrees linked
  rw [Run.bind_apply, Run.bind_apply]
  generalize run state = result at agreed ⊢
  generalize plain other = plainResult at agreed ⊢
  cases agreed with
  | ok held between => exact (rest _ held).agrees between
  | raised between => exact .raised between
  | exhausted => exact .exhausted
  | unfinished => exact .unfinished

theorem map
    (first : Run.Matches related good run plain) (held : ∀ value, good value → fine (change value)) :
    Run.Matches related fine (change <$> run) (change <$> plain) :=
  first.bind fun value isGood => .pure (held value isGood)

theorem inspect {next : σ → Run σ β} {plainNext : ρ → Run ρ β}
    (rest : ∀ {state other}, related state other →
      Run.Matches related fine (next state) (plainNext other)) :
    Run.Matches related fine (Run.get >>= next) (Run.get >>= plainNext) :=
  ⟨fun linked => (rest linked).agrees linked⟩

end Run.Matches
end Rules

/-- The place of the object that a value refers to. -/
def Value.address? : Value → Option Address
  | .list address | .tuple address | .dict address | .closure address => some address
  | _ => Option.none

/-- All values inside an object are of a kind. -/
def Object.All (admits : Value → Prop) : Object → Prop
  | .list items | .tuple items => ∀ item ∈ items, admits item
  | .dict entries => ∀ entry ∈ entries, admits entry.1 ∧ admits entry.2
  | .closure made => ∀ entry ∈ made.captured, admits entry.2

/-- What is said of the parts of two worlds, and of the values and names that runs use. -/
structure Policy (τ υ : Type) where
  /-- the values that can turn up -/
  admits : Value → Prop
  /-- the module names that may be bound -/
  binds : String → Prop
  heap : Heap → Prop
  globals : Table Value → Prop
  output : String → Prop
  tier : τ → υ → Prop

variable {τ υ : Type}

/-- What a world has for the program is as a policy says. -/
structure World.Obeys (policy : Policy τ υ) (world : World τ) : Prop where
  heap : policy.heap world.heap
  globals : policy.globals world.globals
  output : policy.output world.output

/-- Two worlds of a policy. -/
inductive World.Pairs (policy : Policy τ υ) : World τ → World υ → Prop where
  | intro {world : World τ} {tier : υ} (obeys : world.Obeys policy)
      (linked : policy.tier world.tier tier) :
    Pairs policy world ⟨world.heap, world.globals, world.output, tier⟩

/-- A policy that objects and names, used one at a time, respect. -/
structure Policy.Sound (policy : Policy τ υ) : Prop where
  /-- a value that refers to no object -/
  plain : ∀ {value : Value}, value.address? = none → policy.admits value
  made : ∀ {heap : Heap} {object : Object}, policy.heap heap → object.All policy.admits →
    policy.heap (heap.alloc object).2
  fresh : ∀ {heap : Heap} {value : Value}, policy.heap heap →
    value.address? = some heap.objects.size → policy.admits value
  inside : ∀ {heap : Heap} {value : Value} {address : Address} {object : Object},
    policy.heap heap → policy.admits value → value.address? = some address →
    heap.objects[address]? = some object → object.All policy.admits
  changed : ∀ {heap : Heap} {value : Value} {address : Address} {change : Object → Object},
    policy.heap heap → policy.admits value → value.address? = some address →
    (∀ object, object.All policy.admits → (change object).All policy.admits) →
    policy.heap ⟨heap.objects.modify address change⟩
  named : ∀ {globals : Table Value} {name : String} {value : Value}, policy.globals globals →
    globals.get? name = some value → policy.admits value
  bound : ∀ {globals : Table Value} {name : String} {value : Value}, policy.globals globals →
    policy.binds name → policy.admits value → policy.globals (globals.set name value)
  printed : ∀ {output : String} (text : String), policy.output output →
    policy.output (output ++ text)

end TwoTier.Interp
