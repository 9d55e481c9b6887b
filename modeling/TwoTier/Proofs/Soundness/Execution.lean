import TwoTier.Proofs.Soundness.Evaluation

namespace TwoTier.Native

open Typed (BlockSound Domain Expr Gained LocalId Stmt)

variable {id : LocalId} {value : Expr} {inner : Prop} {body : List Stmt}

/-- How two runs of a statement end: the locals that it gains have values where it goes on. -/
def Ends (loose : Prop) (domain : Domain) (contents : Contents) (looped breaks : Prop)
    (known : List LocalId) (gained : Option (List LocalId)) (flow : Flow) (bare full : Machine) : Prop :=
  match flow with
  | .next => ∃ now, gained = some now ∧ Paired domain contents (now ++ known) bare full
  | .leave => (looped ∧ breaks) ∧ Paired domain contents known bare full
  | .skip => looped ∧ Paired domain contents known bare full
  | .giveBack result =>
    result.type = domain.result.register ∧ Paired domain contents known bare full
  | .exit _ => loose ∧ Paired domain contents known bare full

/-- Two contexts of one routine whose calls agree. -/
structure SameCode (loose : Prop) (domain : Domain) (contents : Contents) (ctx other : Context) :
    Prop where
  locals : ctx.routine.locals = domain.locals ∧ other.routine.locals = domain.locals
  result : ctx.routine.result = domain.result ∧ other.routine.result = domain.result
  fuel : other.fuel = ctx.fuel
  calls : CallsAgree loose domain contents ctx.call other.call

/-- Two contexts in which code of one routine is run. -/
structure Twins where
  loose : Prop
  domain : Domain
  contents : Contents
  ctx : Context
  other : Context
  same : SameCode loose domain contents ctx other

namespace Twins

variable (twins : Twins)

abbrev sides : Sides :=
  ⟨twins.loose, twins.domain, twins.contents, twins.ctx.call, twins.other.call, twins.same.calls⟩

abbrev Paired : List LocalId → Machine → Machine → Prop :=
  Native.Paired twins.domain twins.contents

variable (looped breaks : Prop) (known : List LocalId) (gained : Option (List LocalId))

abbrev Ends : Flow → Machine → Machine → Prop :=
  Native.Ends twins.loose twins.domain twins.contents looped breaks known gained

abbrev Runs (stmt : Stmt) : Prop :=
  StepsAgree twins.loose (twins.Paired known) (twins.Ends looped breaks known gained)
    (exec twins.ctx stmt) (exec twins.other stmt)

abbrev RunsAll (body : List Stmt) : Prop :=
  StepsAgree twins.loose (twins.Paired known) (twins.Ends looped breaks known gained)
    (execBlock twins.ctx body) (execBlock twins.other body)

end Twins

section Rules

variable {twins : Twins} {looped breaks : Prop} {known : List LocalId}
  {gained : Option (List LocalId)}

open Twins

theorem Paired.next (held : Gained gained known) {full : Machine}
    (paired : twins.Paired known bare full) :
    twins.Ends looped breaks known gained .next bare full := by
  obtain ⟨now, same, subset⟩ := held
  exact ⟨now, same, paired.mono (List.append_subset.2 ⟨subset, List.Subset.refl _⟩)⟩

theorem agrees_assign (inner : twins.sides.Evaluates known value)
    (declared : twins.domain.Declares id (.scalar value.type)) :
    StepsAgree twins.loose (twins.Paired known) (fun _ => twins.Paired (id :: known))
      (assign twins.ctx id value) (assign twins.other id value) where
  run {bare full} paired := by
    have both : StepsAgree twins.loose (twins.Paired known) (fun _ => twins.Paired (id :: known))
        (eval twins.ctx.call value >>= Machine.write id)
        (eval twins.other.call value >>= Machine.write id) :=
      StepsAgree.andThen inner fun result typed => agrees_write (typed ▸ declared)
    unfold assign
    rw [paired.untracked.1, paired.untracked.2]
    exact both.run paired

theorem Twins.Runs.assign {id : LocalId} {value : Expr} (inner : twins.sides.Evaluates known value)
    (declared : twins.domain.Declares id (.scalar value.type)) (held : Gained gained (id :: known)) :
    twins.Runs looped breaks known gained (.assign id value) := by
  refine (agrees_assign inner declared).bind fun _ => .pure fun paired => ?_
  obtain ⟨now, same, subset⟩ := held
  exact ⟨now, same, paired.mono (List.append_subset.2 ⟨subset, List.subset_cons_self _ _⟩)⟩

theorem Twins.Runs.store {index : Expr} (member : array ∈ known)
    (declared : twins.domain.Declares array (.array value.type))
    (place : twins.sides.Evaluates known index) (int : index.type = .int)
    (inner : twins.sides.Evaluates known value) (held : Gained gained known) :
    twins.Runs looped breaks known gained (.store array index value) := by
  refine StepsAgree.andThen inner fun result typed => (place.evalInt int).andThen fun index _ => ?_
  refine (agrees_length member declared).bind fun length => ?_
  refine (agrees_position member declared index length).bind fun position => ?_
  rw [← typed]
  exact (agrees_store position).bind fun _ => .pure (Paired.next held)

theorem Twins.Runs.eval (inner : twins.sides.Evaluates known value) (held : Gained gained known) :
    twins.Runs looped breaks known gained (.eval value) := by
  exact StepsAgree.andThen inner fun _ _ => .pure (Paired.next held)

theorem Twins.Runs.branch {cond : Expr} (test : twins.sides.Evaluates known cond)
    (bool : cond.type = .bool) (first : twins.RunsAll looped breaks known gained yes)
    (second : twins.RunsAll looped breaks known gained no) :
    twins.Runs looped breaks known gained (.branch cond yes no) := by
  unfold Runs
  rw [exec, exec, ← bind_assoc, ← bind_assoc]
  refine (test.requireBool bool).andThen fun holds _ => ?_
  split
  · exact first
  · exact second

/-- What the end of the body of a loop makes of the loop. -/
theorem leads_body {inside : List LocalId} (subset : known ⊆ inside)
    (held : breaks → Gained gained known) :
    Flow.Leads (twins.Ends inner breaks inside (some [])) (twins.Paired inside)
      (twins.Ends looped False known gained) where
  next ended := by
    obtain ⟨_, ⟨⟩, paired⟩ := ended
    exact paired
  skip ended := ended.2
  leave ended := Paired.next (held ended.1.2) (ended.2.mono subset)
  giveBack ended := ⟨ended.1, ended.2.mono subset⟩
  exit ended := ⟨ended.1, ended.2.mono subset⟩

theorem Ends.outside {flow : Flow} {bare full : Machine}
    (ended : twins.Ends looped False known gained flow bare full) :
    twins.Ends looped breaks known gained flow bare full := by
  cases flow with
  | leave => exact ended.1.2.elim
  | next | skip | giveBack | exit => exact ended

theorem Twins.Runs.whileLoop {cond : Expr} (test : twins.sides.Evaluates known cond)
    (bool : cond.type = .bool) (repeats : twins.RunsAll inner True known (some []) body)
    (held : Gained gained known) :
    twins.Runs looped breaks known gained (.whileLoop cond body span) := by
  unfold Runs
  rw [exec, exec, twins.same.fuel]
  refine (StepsAgree.whileLoop (test.requireBool bool) (fun ended => ?_)
    (repeats.weaken (fun ended => ended.2) id) (leads_body (List.Subset.refl _) fun _ => held)
    twins.ctx.fuel).weaken id Ends.outside
  exact Paired.next held ended.2

/-- A loop that is only left by a return does not go on. -/
theorem Twins.Runs.endless {inner : Prop} {body : List Stmt} {span : Span}
    (repeats : twins.RunsAll inner False known (some []) body) :
    twins.Runs looped breaks known gained (.whileLoop (.const (.bool true)) body span) := by
  unfold Runs
  rw [exec, exec, twins.same.fuel]
  have test : StepsAgree twins.loose (twins.Paired known)
      (fun holds bare full => holds = true ∧ twins.Paired known bare full)
      (Native.eval twins.ctx.call (.const (.bool true)) >>= requireBool)
      (Native.eval twins.other.call (.const (.bool true)) >>= requireBool) := by
    exact .pure fun paired => ⟨rfl, paired⟩
  refine (StepsAgree.whileLoop test (fun ended => ?_) (repeats.weaken (fun ended => ended.2) id)
    (leads_body (List.Subset.refl _) False.elim) twins.ctx.fuel).weaken id Ends.outside
  cases ended.1

theorem Twins.Runs.forLoop (counter : twins.domain.Declares head.var (.scalar .int))
    (start : twins.sides.Evaluates known head.start ∧ head.start.type = .int)
    (stop : twins.sides.Evaluates known head.stop ∧ head.stop.type = .int)
    (step : twins.sides.Evaluates known head.step ∧ head.step.type = .int)
    (repeats : twins.RunsAll inner True (head.var :: known) (some []) body)
    (held : Gained gained known) : twins.Runs looped breaks known gained (.forLoop head body) := by
  unfold Runs
  rw [exec, exec, twins.same.fuel]
  refine (start.1.evalInt start.2).andThen fun first _ => (stop.1.evalInt stop.2).andThen
    fun last _ => (step.1.evalInt step.2).andThen fun stride _ => ?_
  have writes (i : Int64) : StepsAgree twins.loose (twins.Paired known)
      (fun _ => twins.Paired (head.var :: known))
      (Machine.write head.var (.int i)) (Machine.write head.var (.int i)) :=
    agrees_write counter
  have reads : StepsAgree twins.loose (twins.Paired (head.var :: known))
      (fun _ => twins.Paired (head.var :: known)) (Machine.readInt head.var)
      (Machine.readInt head.var) :=
    (agrees_read (.head _) counter).andThen fun _ typed =>
      (settles_requireInt typed).agrees.weaken id fun ended => ended.2
  have subset := List.subset_cons_self head.var known
  exact (StepsAgree.countedLoop writes reads (·.mono subset) (Paired.next held) repeats
    (leads_body subset fun _ => held) first twins.ctx.fuel).weaken id Ends.outside

theorem Twins.Runs.giveBack {value : Option Typed.Result}
    (formed : Typed.Result.Formed twins.domain value)
    (inner : ∀ expr, value = some (.scalar expr) → twins.sides.Evaluates known expr) :
    twins.Runs looped breaks known gained (.giveBack value) := by
  have ended {result : Scalar} {bare full : Machine}
      (typed : result.type = twins.domain.result.register) (paired : twins.Paired known bare full) :
      twins.Ends looped breaks known gained (.giveBack result) bare full :=
    ⟨typed, paired⟩
  match value with
  | none =>
    have nothing : twins.domain.result = .nothing := formed
    have agrees : StepsAgree twins.loose (twins.Paired known)
        (fun result bare full => result = .int 0 ∧ twins.Paired known bare full)
        (resultOf twins.ctx none) (resultOf twins.other none) := by
      rw [resultOf, resultOf, twins.same.result.1, twins.same.result.2, nothing]
      exact .pure fun paired => ⟨rfl, paired⟩
    exact agrees.bind fun result => .given fun same =>
      .pure (ended (by rw [same, nothing]; rfl))
  | some (.scalar expr) =>
    have register : twins.domain.result = .scalar expr.type := formed.2
    exact StepsAgree.andThen (inner expr rfl) fun result typed =>
      .pure (ended (by rw [typed, register]; rfl))
  | some (.array id) =>
    obtain ⟨⟨element, register⟩, decl, position, declared, origin⟩ := formed
    have first : twins.ctx.routine.decl id = decl := by
      simp [Typed.Routine.decl, twins.same.locals.1, declared]
    have second : twins.other.routine.decl id = decl := by
      simp [Typed.Routine.decl, twins.same.locals.2, declared]
    have agrees : StepsAgree twins.loose (twins.Paired known)
        (fun result bare full => result.type = .int ∧ twins.Paired known bare full)
        (resultOf twins.ctx (some (.array id))) (resultOf twins.other (some (.array id))) := by
      rw [resultOf, resultOf, first, second, origin]
      exact .pure fun paired => ⟨rfl, paired⟩
    exact agrees.bind fun result => .given fun typed =>
      .pure (ended (by rw [typed, register]; rfl))

theorem Twins.RunsAll.nil (held : Gained gained known) :
    twins.RunsAll looped breaks known gained [] := by
  exact .pure (Paired.next held)

theorem Twins.RunsAll.last {rest : List Stmt} (here : twins.Runs looped breaks known none stmt) :
    twins.RunsAll looped breaks known gained (stmt :: rest) := by
  refine here.bind fun flow => ?_
  cases flow with
  | next => exact ⟨fun ended => by obtain ⟨_, ⟨⟩, _⟩ := ended⟩
  | leave | skip | giveBack | exit => exact .pure id

theorem Twins.RunsAll.cons {rest : List Stmt} {first : List LocalId}
    (here : twins.Runs looped breaks known (some first) stmt)
    (later : twins.RunsAll looped breaks (first ++ known) gained rest) :
    twins.RunsAll looped breaks known gained (stmt :: rest) := by
  refine here.bind fun flow => ?_
  have subset : known ⊆ first ++ known := List.subset_append_right first known
  cases flow with
  | next =>
    refine later.weaken (fun ended => ?_) fun {flow _ _} ended => ?_
    · obtain ⟨_, ⟨⟩, paired⟩ := ended
      exact paired
    · cases flow with
      | next =>
        obtain ⟨now, same, paired⟩ := ended
        exact ⟨now, same, paired.mono (Typed.append_subset_append subset)⟩
      | leave | skip | giveBack | exit => exact ⟨ended.1, ended.2.mono subset⟩
  | leave | skip | giveBack | exit => exact .pure id

end Rules

section Code

variable {twins : Twins} {domain : Domain}

open Twins

section Sound

variable {inputs : List (LocalId × Kind)} {storing : Prop}

theorem reads_reading (entered : ∀ input ∈ inputs, input.1 ∈ known) :
    Reads (domain.reading inputs known) domain known where
  scalar allowed := ⟨allowed.2, allowed.1⟩
  array allowed := ⟨entered _ allowed.2, allowed.1⟩
  profile? := rfl
  gives := .inl

mutual

theorem runs_of_sound : ∀ {stmt : Stmt} {looped breaks : Prop} {known : List LocalId}
    {gained : Option (List LocalId)},
      (∀ input ∈ inputs, input.1 ∈ known) →
        stmt.Sound twins.domain inputs storing looped breaks known gained →
          twins.Runs looped breaks known gained stmt
  | .assign _ _ => fun entered sound =>
    .assign (evaluates_of_formed (reads_reading entered) sound.1.2) sound.1.1 sound.2
  | .store _ _ _ => by
    intro entered sound
    obtain ⟨⟨⟨⟨declared, input⟩, _⟩, ⟨index, int⟩, value⟩, held⟩ := sound
    exact .store (entered _ input) declared (evaluates_of_formed (reads_reading entered) index) int
      (evaluates_of_formed (reads_reading entered) value) held
  | .eval _ => fun entered sound =>
    .eval (evaluates_of_effect (reads_reading entered) sound.1) sound.2
  | .branch _ _ _ => by
    intro entered sound
    exact .branch (evaluates_of_formed (reads_reading entered) sound.1.1) sound.1.2
      (runsAll_of_sound entered sound.2.1) (runsAll_of_sound entered sound.2.2)
  | .whileLoop _ _ _ => by
    intro entered sound
    obtain ⟨cond, ⟨held, inside⟩ | ⟨rfl, inside⟩⟩ := sound
    · exact .whileLoop (evaluates_of_formed (reads_reading entered) cond.1) cond.2
        (runsAll_of_sound entered inside) held
    · exact .endless (runsAll_of_sound entered inside)
  | .forLoop head _ => by
    intro entered sound
    obtain ⟨⟨⟨counter, _⟩, start, stop, step⟩, held, body⟩ := sound
    have inside := runsAll_of_sound
      (fun input member => List.mem_cons_of_mem head.var (entered input member)) body
    exact .forLoop counter
      ⟨evaluates_of_formed (reads_reading entered) start.1, start.2⟩
      ⟨evaluates_of_formed (reads_reading entered) stop.1, stop.2⟩
      ⟨evaluates_of_formed (reads_reading entered) step.1, step.2⟩ inside held
  | .giveBack _ => by
    intro entered sound
    refine .giveBack sound.1 fun expr same => ?_
    subst same
    exact evaluates_of_formed (reads_reading entered) sound.2
  | .leave | .skip => by
    intro _ sound
    exact .pure fun paired => ⟨sound, paired⟩
  | .block _ _ | .exit _ | .vector _ _ | .parallel _ _ => fun _ => False.elim

theorem runsAll_of_sound : ∀ {body : List Stmt} {looped breaks : Prop} {known : List LocalId}
    {gained : Option (List LocalId)},
      (∀ input ∈ inputs, input.1 ∈ known) →
        BlockSound twins.domain inputs storing looped breaks known body gained →
          twins.RunsAll looped breaks known gained body
  | [] => fun _ held => .nil held
  | _ :: _ => by
    intro entered sound
    obtain ⟨ends, _⟩ | ⟨first, here, later⟩ := sound
    · exact .last (runs_of_sound entered ends)
    · have rests := runsAll_of_sound
        (fun input member => List.mem_append_right first (entered input member)) later
      exact .cons (runs_of_sound entered here) rests

end

end Sound

section Formed

def everyLocal (domain : Domain) : List LocalId := List.range domain.locals.length

theorem Declares.mem_everyLocal (declared : domain.Declares id kind) : id ∈ everyLocal domain :=
  List.mem_range.2 declared.lt

theorem reads_everyLocal : Reads domain domain (everyLocal domain) where
  scalar declared := ⟨Declares.mem_everyLocal declared, declared⟩
  array declared := ⟨Declares.mem_everyLocal declared, declared⟩
  profile? := rfl
  gives := id

theorem Reads.cons (reads : Reads env domain known) (id : LocalId) :
    Reads env domain (id :: known) where
  scalar allowed := ⟨.tail _ (reads.scalar allowed).1, (reads.scalar allowed).2⟩
  array allowed := ⟨.tail _ (reads.array allowed).1, (reads.array allowed).2⟩
  profile? := reads.profile?
  gives := reads.gives

theorem gained_nil : Gained (some []) known := ⟨[], rfl, List.nil_subset _⟩

theorem Twins.Runs.block (inside : twins.RunsAll True True known (some []) body) :
    twins.Runs True True known (some []) (.block label body) := by
  refine inside.bind fun flow => ?_
  cases flow with
  | exit left =>
    refine .pure fun ended => ?_
    split
    · exact ⟨[], rfl, ended.2⟩
    · exact ended
  | next | leave | skip | giveBack => exact .pure id

mutual

theorem runs_of_formed (may : twins.loose) {place : Passes.Place} {known : List LocalId}
    {stmt : Stmt} (flat : place.rule.unlowered) (reads : Reads twins.domain twins.domain known)
    (formed : stmt.Formed twins.domain place) : twins.Runs True True known (some []) stmt := by
  match stmt with
  | .assign _ _ => exact .assign (evaluates_of_formed reads formed.2) formed.1 gained_nil
  | .store _ _ _ =>
    exact .store (reads.array formed.1.1).1 formed.1.1 (evaluates_of_formed reads formed.2.1.1)
      formed.2.1.2 (evaluates_of_formed reads formed.2.2) gained_nil
  | .eval value =>
    have held : value.Formed twins.domain := formed
    exact .eval (evaluates_of_formed reads held) gained_nil
  | .branch _ _ _ =>
    exact .branch (evaluates_of_formed reads formed.1.1) formed.1.2
      (runsAll_of_formed may flat reads formed.2.1) (runsAll_of_formed may flat reads formed.2.2)
  | .whileLoop _ _ _ =>
    have inside : place.inLoop.rule.unlowered := flat
    exact .whileLoop (evaluates_of_formed reads formed.1.1) formed.1.2
      (runsAll_of_formed may inside reads formed.2) gained_nil
  | .forLoop head _ =>
    have inside : place.inLoop.rule.unlowered := flat
    have has {bound : Expr} (formed : bound.Has twins.domain .int) :
        twins.sides.Evaluates known bound ∧ bound.type = .int :=
      ⟨evaluates_of_formed reads formed.1, formed.2⟩
    exact .forLoop formed.1.counter (has formed.1.start) (has formed.1.stop)
      (has formed.1.step) (runsAll_of_formed may inside (reads.cons head.var) formed.2)
      gained_nil
  | .giveBack _ =>
    refine .giveBack formed.1 fun expr same => ?_
    subst same
    exact evaluates_of_formed reads formed.1.1
  | .leave =>
    exact .pure fun paired => ⟨⟨trivial, trivial⟩, paired⟩
  | .skip =>
    exact .pure fun paired => ⟨trivial, paired⟩
  | .exit _ =>
    exact .pure fun paired => ⟨may, paired⟩
  | .block label body =>
    have inside : (place.inBlock label).rule.unlowered := flat
    have held : Typed.BlockFormed twins.domain (place.inBlock label) body := formed
    exact .block (runsAll_of_formed may inside reads held)
  | .vector _ _ | .parallel _ _ => exact (formed.1.2 flat).elim

theorem runsAll_of_formed (may : twins.loose) :
    ∀ {place : Passes.Place} {known : List LocalId} {body : List Stmt}, place.rule.unlowered →
      Reads twins.domain twins.domain known → Typed.BlockFormed twins.domain place body →
        twins.RunsAll True True known (some []) body
  | _, _, [], _, _, _ => .nil gained_nil
  | _, _, _ :: _, flat, reads, formed =>
    .cons (runs_of_formed may flat reads formed.1) (runsAll_of_formed may flat reads formed.2)

end

end Formed

end Code
end TwoTier.Native
