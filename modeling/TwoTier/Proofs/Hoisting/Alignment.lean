import TwoTier.Proofs.Soundness.Execution

namespace TwoTier.Native

open Typed (ArgOf ArgsFormed Domain Expr LocalId Stmt)

variable {count : Nat} {machine twin : Machine} {kind : Kind}

def agreeing (related : Machine → Machine → Prop) : Likeness where
  Alike := StepsAgree True related (fun _ => related)
  constant constant := by
    cases constant with
    | pure => exact .pure id
    | deopt => exact .deopt
    | stuck => exact ⟨fun _ => .stuck trivial⟩
  sequence := .bind
  exhausted := .exhausted

abbrev Machine.Fits (domain : Domain) (contents : Contents) (machine : Machine) : Prop :=
  Paired domain contents (everyLocal domain) machine machine

section Fitting

variable {α : Type} {domain : Domain} {contents : Contents} {call : Callee} {ctx : Context}

def fitting (domain : Domain) (contents : Contents) : Footprint Machine where
  rel machine later := machine.Fits domain contents → later.Fits domain contents
  refl _ := id
  trans first second := second ∘ first

theorem keeps_of_agrees {after : α → Machine → Machine → Prop} {step : Step Machine α}
    (agrees : StepsAgree True (Paired domain contents (everyLocal domain)) after step step)
    (ends : ∀ {value machine}, after value machine machine → machine.Fits domain contents) :
    (fitting domain contents).Keeps step where
  after {machine value later} ran fits := by
    have agreed := agrees.run fits
    rw [ran] at agreed
    cases agreed with
    | ok held => exact ends held

theorem fitting_eval (calls : CallsAgree True domain contents call call)
    (formed : expr.Formed domain) : (fitting domain contents).Keeps (eval call expr) := by
  let sides : Sides := ⟨True, domain, contents, call, call, calls⟩
  have evaluates : sides.Evaluates _ expr := evaluates_of_formed reads_everyLocal formed
  exact keeps_of_agrees evaluates And.right

theorem Ends.paired {full : Machine}
    (ended : Ends loose domain contents looped breaks known (some []) flow bare full) :
    Paired domain contents known bare full := by
  cases flow with
  | next =>
    obtain ⟨_, ⟨⟩, paired⟩ := ended
    exact paired
  | leave | skip | giveBack | exit => exact ended.2

variable {place : Passes.Place} (same : SameCode True domain contents ctx ctx)
  (flat : place.rule.unlowered)

include same flat

theorem fitting_exec (formed : stmt.Formed domain place) :
    (fitting domain contents).Keeps (exec ctx stmt) := by
  let twins : Twins := ⟨True, domain, contents, ctx, ctx, same⟩
  have runs : twins.Runs True True _ _ stmt := runs_of_formed trivial flat reads_everyLocal formed
  exact keeps_of_agrees runs Ends.paired

theorem fitting_execBlock (formed : Typed.BlockFormed domain place body) :
    (fitting domain contents).Keeps (execBlock ctx body) := by
  let twins : Twins := ⟨True, domain, contents, ctx, ctx, same⟩
  have runs : twins.RunsAll True True _ _ body :=
    runsAll_of_formed trivial flat reads_everyLocal formed
  exact keeps_of_agrees runs Ends.paired

end Fitting

/-- Two machines that hold the same in their first locals and share the same. -/
structure AgreeBelow (count : Nat) (machine twin : Machine) : Prop where
  shared : twin.shared = machine.shared
  untracked : machine.distances = [] ∧ twin.distances = []
  room : count ≤ machine.slots.size ∧ count ≤ twin.slots.size
  slots : ∀ id < count, twin.slots[id]? = machine.slots[id]?

theorem AgreeBelow.mono {few : Nat} (agree : AgreeBelow count machine twin) (le : few ≤ count) :
    AgreeBelow few machine twin where
  shared := agree.shared
  untracked := agree.untracked
  room := ⟨le.trans agree.room.1, le.trans agree.room.2⟩
  slots id inside := agree.slots id (Nat.lt_of_lt_of_le inside le)

theorem AgreeBelow.symm (agree : AgreeBelow count machine twin) :
    AgreeBelow count twin machine where
  shared := agree.shared.symm
  untracked := ⟨agree.untracked.2, agree.untracked.1⟩
  room := ⟨agree.room.2, agree.room.1⟩
  slots id inside := (agree.slots id inside).symm

theorem AgreeBelow.trans {middle : Machine} (first : AgreeBelow count machine middle)
    (second : AgreeBelow count middle twin) :
    AgreeBelow count machine twin where
  shared := second.shared.trans first.shared
  untracked := ⟨first.untracked.1, second.untracked.2⟩
  room := ⟨first.room.1, second.room.2⟩
  slots id inside := (second.slots id inside).trans (first.slots id inside)

theorem AgreeBelow.share (agree : AgreeBelow count machine twin) (shared : Shared) :
    AgreeBelow count { machine with shared } { twin with shared } :=
  { agree with shared := rfl }

theorem AgreeBelow.write (agree : AgreeBelow count machine twin) (id : LocalId) (slot : Slot) :
    AgreeBelow count { machine with slots := machine.slots.setIfInBounds id slot }
      { twin with slots := twin.slots.setIfInBounds id slot } where
  shared := agree.shared
  untracked := agree.untracked
  room := by simpa using agree.room
  slots other inside := by
    have first := Nat.lt_of_lt_of_le inside agree.room.1
    have second := Nat.lt_of_lt_of_le inside agree.room.2
    by_cases same : id = other
    · subst same
      simp [first, second]
    · simpa [same] using agree.slots other inside

/-- A relation between machines that agree on a domain, stable under writes that are allowed. -/
structure Aligned (domain : Domain) (writable : LocalId → Prop)
    (related : Machine → Machine → Prop) : Prop where
  below : ∀ {machine twin}, related machine twin → AgreeBelow domain.locals.length machine twin
  share : ∀ {machine twin} (shared : Shared), related machine twin →
    related { machine with shared } { twin with shared }
  write : ∀ {machine twin id} (value : Scalar), writable id → related machine twin →
    related { machine with slots := machine.slots.setIfInBounds id (.scalar value) }
      { twin with slots := twin.slots.setIfInBounds id (.scalar value) }

/-- Related machines of which the second one fits. -/
abbrev Suited (related : Machine → Machine → Prop) (full : Domain) (contents : Contents)
    (machine twin : Machine) : Prop :=
  related machine twin ∧ twin.Fits full contents

/-- Two steps are alike if they agree from such machines and leave such machines. -/
abbrev suiting (related : Machine → Machine → Prop) (full : Domain) (contents : Contents) :
    Likeness :=
  agreeing (Suited related full contents)

section Steps

variable {α : Type} {domain full : Domain} {writable : LocalId → Prop}
  {related : Machine → Machine → Prop} {contents : Contents}

theorem alike_of_fitting {step other : Step Machine α}
    (agrees : StepsAgree True (Suited related full contents) (fun _ => related) step other)
    (fits : (fitting full contents).Keeps other) :
    (suiting related full contents).Alike step other where
  run {machine twin} suited := by
    have agreed := agrees.run suited
    generalize step machine = outcome at agreed ⊢
    generalize ran : other twin = otherOutcome at agreed ⊢
    cases agreed with
    | ok held => exact .ok ⟨held, fits.after ran suited.2⟩
    | deopt calls => exact .deopt calls
    | stuck may => exact .stuck may
    | exhausted => exact .exhausted

variable (aligned : Aligned domain writable related)

include aligned

section

variable {id : LocalId} (declared : domain.Declares id kind)

include declared

theorem Aligned.peek {step : Step Machine α}
    (peeks : ∀ {machine twin : Machine}, twin.slots[id]? = machine.slots[id]? → twin.shared =
      machine.shared → Outcome.Agree True (fun _ later other => later = machine ∧ other = twin)
      (step machine) (step twin)) :
    (suiting related full contents).Alike step step where
  run {machine twin} suited := by
    have below := aligned.below suited.1
    refine (peeks (below.slots id declared.lt) below.shared).weaken ?_
    rintro _ _ _ ⟨rfl, rfl⟩
    exact suited

theorem Aligned.read :
    (suiting related full contents).Alike (Machine.read id) (Machine.read id) := by
  refine aligned.peek declared fun slot _ => ?_
  rw [Machine.read, Machine.read, slot]
  split
  · exact .ok ⟨rfl, rfl⟩
  · exact .stuck trivial

theorem Aligned.handle :
    (suiting related full contents).Alike (Machine.handle id) (Machine.handle id) := by
  refine aligned.peek declared fun slot _ => ?_
  rw [Machine.handle, Machine.handle, slot]
  split
  · exact .ok ⟨rfl, rfl⟩
  · exact .stuck trivial

theorem Aligned.length :
    (suiting related full contents).Alike (Machine.length id) (Machine.length id) := by
  refine aligned.peek declared fun slot shared => ?_
  rw [Machine.length, Machine.length, slot, shared]
  split
  · exact .ok ⟨rfl, rfl⟩
  · exact .ok ⟨rfl, rfl⟩
  · exact .stuck trivial

theorem Aligned.load (position : Nat) :
    (suiting related full contents).Alike (Machine.load id position)
      (Machine.load id position) := by
  refine .bind (aligned.peek declared fun slot shared => ?_) fun elements => ?_
  · rw [Machine.buffer, Machine.buffer, slot, shared]
    split
    · exact .ok ⟨rfl, rfl⟩
    · exact .ok ⟨rfl, rfl⟩
    · exact .stuck trivial
  · split
    · exact .pure _
    · exact .of_constant .stuck

theorem Aligned.store (position : Nat) (value : Scalar) :
    StepsAgree True (Suited related full contents) (fun _ => related)
      (Machine.store id position value) (Machine.store id position value) where
  run {machine twin} suited := by
    have below := aligned.below suited.1
    rw [Machine.store, Machine.store, below.slots id declared.lt, below.shared]
    rcases machine.slots[id]? with _ | _ | _ | buffer
    · exact .stuck trivial
    · exact .stuck trivial
    · exact .stuck trivial
    · exact .ok (aligned.share _ suited.1)

end

theorem Aligned.onShared (step : Step Shared α) :
    StepsAgree True (Suited related full contents) (fun _ => related) (Machine.onShared step)
      (Machine.onShared step) where
  run {machine twin} suited := by
    have below := aligned.below suited.1
    unfold Machine.onShared
    dsimp only
    rw [below.shared]
    cases step machine.shared with
    | ok value shared => exact .ok (aligned.share shared suited.1)
    | deopt calls => exact .deopt calls
    | stuck => exact .stuck trivial
    | exhausted => exact .exhausted

theorem Aligned.assignment {id : LocalId} (declared : domain.Declares id kind) (may : writable id)
    (value : Scalar) :
    StepsAgree True (Suited related full contents) (fun _ => related) (Machine.write id value)
      (Machine.write id value) where
  run {machine twin} suited := by
    have below := aligned.below suited.1
    rw [Machine.write, Machine.write, if_pos (Nat.lt_of_lt_of_le declared.lt below.room.1),
      if_pos (Nat.lt_of_lt_of_le declared.lt below.room.2)]
    exact .ok (aligned.write value may suited.1)

end Steps

theorem declares_of_argsFormed {domain : Domain} {id : LocalId} :
    ∀ {args : List (ArgOf Expr)} {kinds : List Kind}, ArgsFormed domain args kinds →
      .array id ∈ args → ∃ element, domain.Declares id (.array element)
  | .scalar _ :: _, _, ⟨_, _, _, later⟩, member =>
    declares_of_argsFormed later ((List.mem_cons.1 member).resolve_left nofun)
  | .array _ :: _, _, ⟨element, _, _, declared, later⟩, member => by
    obtain same | member := List.mem_cons.1 member
    · cases same
      exact ⟨element, declared⟩
    · exact declares_of_argsFormed later member

section Code

variable {domain full : Domain} {writable : LocalId → Prop} {related : Machine → Machine → Prop}
  {contents : Contents} (aligned : Aligned domain writable related) (within : domain.Within full)

include aligned within

section Expressions

variable {call : Callee} (calls : CallsAgree True full contents call call)

include calls

theorem Aligned.invocation {result : NumType} {args args' : List (ArgOf Expr)}
    (inner : (suiting related full contents).Alike (evalArgs call args) (evalArgs call args'))
    (formed : (Expr.call callee result args').Formed domain) :
    (suiting related full contents).Alike (eval call (.call callee result args))
      (eval call (.call callee result args')) := by
  refine alike_of_fitting ?_ (fitting_eval calls (formed.grow within))
  exact StepsAgree.bind inner fun values => aligned.onShared (call callee values)

theorem Aligned.eval {expr : Expr} (formed : expr.Formed domain) :
    (suiting related full contents).Alike (eval call expr) (eval call expr) := by
  refine Likeness.Alike.eval fun node member => ?_
  have formed := formed.parts _ member
  cases node with
  | var id type => exact aligned.read formed
  | len array =>
    obtain ⟨_, declared⟩ := formed
    exact aligned.length declared
  | index array element position =>
    exact fun inner => inner.index (aligned.length formed.1) (aligned.load formed.1)
  | call callee result args =>
    obtain ⟨_, _, _, passed⟩ := id formed
    refine ⟨fun id member => ?_, fun inner => ?_⟩
    · obtain ⟨_, declared⟩ := declares_of_argsFormed passed member
      exact aligned.handle declared
    · have called := aligned.invocation within calls inner formed
      rwa [Native.eval] at called
  | const | unary | binary | compare | logic | select | cast | abs | extremum => trivial

end Expressions

section Statements

variable {ctx other : Context} {place : Passes.Place} {x x' : Expr}
  (twins : SameCode True full contents other other) (flat : place.rule.unlowered)
  (first : (suiting related full contents).Alike (Native.eval ctx.call x)
    (Native.eval other.call x'))

include twins flat first

theorem Aligned.assign {target : LocalId} (may : writable target)
    (formed : (Stmt.assign target x').Formed domain place) :
    (suiting related full contents).Alike (exec ctx (.assign target x))
      (exec other (.assign target x')) := by
  refine alike_of_fitting ?_ (fitting_exec twins flat (formed.grow within))
  have assigns : StepsAgree True (Suited related full contents) (fun _ => related)
      (Native.assign ctx target x) (Native.assign other target x') := by
    constructor
    intro machine twin suited
    have untracked := (aligned.below suited.1).untracked
    unfold Native.assign
    rw [untracked.1, untracked.2]
    exact (StepsAgree.bind first fun value => aligned.assignment formed.1 may value).run suited
  exact assigns.bind fun _ => .pure id

theorem Aligned.storage {y y' : Expr}
    (second : (suiting related full contents).Alike (Native.eval ctx.call y) (Native.eval other.call
      y')) (formed : (Stmt.store array y' x').Formed domain place) :
    (suiting related full contents).Alike (exec ctx (.store array y x))
      (exec other (.store array y' x')) := by
  have found (index length : Int64) : (suiting related full contents).Alike
      (Step.ofOption (elementPosition index length)) (Step.ofOption (elementPosition index length)) :=
    .of_constant (.ofOption _)
  refine alike_of_fitting ?_ (fitting_exec twins flat (formed.grow within))
  exact StepsAgree.bind first fun value => StepsAgree.bind second.evalInt fun index =>
    StepsAgree.bind (aligned.length formed.1.1) fun length =>
    StepsAgree.bind (found index length) fun position =>
    (aligned.store formed.1.1 position value).bind fun _ => .pure id

end Statements

theorem Aligned.counts (declared : domain.Declares head.var (.scalar .int))
    (may : writable head.var) : (suiting related full contents).Counts head where
  write i := by
    refine alike_of_fitting (aligned.assignment declared may (.int i)) ?_
    exact keeps_of_agrees (agrees_write (declared.grow within)) fun paired =>
      paired.mono (List.subset_cons_self _ _)
  read _ := by
    refine .bind (aligned.read declared) fun value => ?_
    cases value with
    | int => exact .pure _
    | float | bool => exact .of_constant .stuck

end Code
end TwoTier.Native
