import TwoTier.Interp.Session
import TwoTier.Proofs.Worlds.Evaluation

namespace TwoTier.Interp

open Surface (Stmt)

variable {τ υ : Type} {policy : Policy τ υ}

/-- The functions of a program declare global only names that may be bound. -/
def Program.Permits (program : Program) (policy : Policy τ υ) : Prop :=
  ∀ callee info, program.function? callee = some info → ∀ name ∈ info.globalNames, policy.binds name

/-- Calls by name that agree and obey a policy when they are given admitted values. -/
abbrev Policy.Serves (policy : Policy τ υ) (function : String → List Value → Run (World τ) Value)
    (plain : String → List Value → Run (World υ) Value) : Prop :=
  ∀ callee {args}, policy.AdmitsAll args →
    policy.Runs policy.admits (function callee args) (plain callee args)

/-- Two routes that obey a policy if interpretation does. -/
def Route.Obeys (policy : Policy τ υ) (program : Program) (fuel maxDepth : Nat) (route : Route τ)
    (other : Route υ) : Prop :=
  ∀ remaining ≤ maxDepth,
    policy.Serves (interpretAt program fuel route remaining)
      (interpretAt program fuel other remaining) →
    policy.Serves (route remaining (interpretAt program fuel route remaining))
      (other remaining (interpretAt program fuel other remaining))

variable {program : Program} {fuel maxDepth : Nat}

theorem Route.obeys_direct : Route.Obeys policy program fuel maxDepth .direct .direct :=
  fun _ _ interprets => interprets

namespace Policy.Sound

variable (sound : policy.Sound) {calls : Calls τ} {plain : Calls υ}

include sound

theorem runs_bodyValue {run : Run (Frame τ) Flow} {plainRun : Run (Frame υ) Flow}
    (runs : policy.RunsFrame (policy.Ends False enclosure) run plainRun)
    (all : policy.Lists locals) :
    policy.Runs policy.admits (fun world => bodyValue (run ⟨locals, world⟩))
      (fun world => bodyValue (plainRun ⟨locals, world⟩)) := by
  constructor
  intro world other pairs
  have agreed := runs.agrees (.intro all pairs)
  generalize run ⟨locals, world⟩ = result at agreed ⊢
  generalize plainRun ⟨locals, other⟩ = plainResult at agreed ⊢
  cases agreed with
  | @ok flow _ _ held between =>
    obtain ⟨_, between⟩ := between
    cases flow with
    | giveBack value => exact .ok held.1 between
    | next | leave | skip => exact .ok (sound.plain rfl) between
  | raised between =>
    obtain ⟨_, between⟩ := between
    exact .raised between
  | exhausted => exact .exhausted
  | unfinished => exact .unfinished

theorem runs_runFunction (obey : calls.Obey policy plain)
    (permitted : ∀ name ∈ info.globalNames, policy.binds name) {args : List Value}
    (all : policy.AdmitsAll args) :
    policy.Runs policy.admits (runFunction program fuel calls info args)
      (runFunction program fuel plain info args) := by
  refine (runs_completeArguments obey.default _ all ?_).bind fun values given => ?_
  · exact fun _ member => absurd member List.not_mem_nil
  let ctx : Context τ :=
    { program, calls, fuel, scope := .function info.localNames info.globalNames }
  have body : policy.RunsFrame (policy.Ends False ⟨false, true⟩)
      (execBlock ctx info.definition.body)
      (execBlock (ctx.withCalls plain) info.definition.body) :=
    sound.runs_execBlock obey _ (fun _ _ name _ isGlobal =>
      permitted name (List.contains_iff_mem.1 isGlobal)) False.elim
  refine sound.runs_bodyValue body fun entry member => ?_
  exact given _ (List.of_mem_zip member).2

theorem serves_interpretIn (permits : program.Permits policy) (fuel : Nat) {inner : Option (Calls τ)}
    {plainInner : Option (Calls υ)} (obey : Option.Rel (Calls.Obey policy) inner plainInner) :
    policy.Serves (interpretIn program fuel inner) (interpretIn program fuel plainInner) := by
  intro callee args all
  unfold interpretIn
  split
  · exact .raise _
  · rename_i info found
    cases obey with
    | none => exact .raise _
    | some obey => exact sound.runs_runFunction obey (permits _ _ found) all

section Made

variable {function : String → List Value → Run (World τ) Value}
  {plainFunction : String → List Value → Run (World υ) Value}
  {closure : Closure → List Value → Run (World τ) Value}
  {plainClosure : Closure → List Value → Run (World υ) Value}
  (functions : policy.Serves function plainFunction)
  (closures : ∀ {made args}, policy.Lists made.captured → policy.AdmitsAll args →
    policy.Runs policy.admits (closure made args) (plainClosure made args))

include functions closures

theorem runs_defaultValue (depth : Nat) (expr : Surface.Expr) :
    policy.Runs policy.admits (defaultValue program fuel function closure depth expr)
      (defaultValue program fuel plainFunction plainClosure depth expr) := by
  induction depth generalizing expr with
  | zero => exact ⟨fun _ => .exhausted⟩
  | succ depth ih =>
    let ctx : Context τ :=
      { program, fuel, scope := .module
        calls := ⟨function, closure, defaultValue program fuel function closure depth⟩ }
    have obeyed : ctx.calls.Obey policy
        ⟨plainFunction, plainClosure, defaultValue program fuel plainFunction plainClosure depth⟩ :=
      ⟨functions, closures, ih⟩
    exact sound.runs_eval obeyed (fun _ member => absurd member List.not_mem_nil) expr

theorem obey_of :
    Calls.Obey policy (Calls.of program fuel function closure)
      (Calls.of program fuel plainFunction plainClosure) :=
  ⟨functions, closures, sound.runs_defaultValue functions closures fuel⟩

end Made

omit sound in
theorem lists_foldl_set {captured : Table Value} (all : policy.Lists captured)
    {bound : List (String × Value)} (given : ∀ pair ∈ bound, policy.admits pair.2) :
    policy.Lists (bound.foldl (fun locals (name, value) => locals.set name value) captured) := by
  induction bound generalizing captured with
  | nil => exact all
  | cons pair rest ih =>
    refine ih (lists_set all pair.1 (given pair (.head _))) ?_
    exact fun other member => given other (.tail _ member)

theorem runs_runClosure (obey : calls.Obey policy plain) {made : Closure} {args : List Value}
    (captured : policy.Lists made.captured) (all : policy.AdmitsAll args) :
    policy.Runs policy.admits (runClosure program fuel calls made args)
      (runClosure program fuel plain made args) := by
  let ctx : Context τ := { program, calls, fuel, scope := .closure }
  have obeyed : ctx.calls.Obey policy plain := obey
  refine sound.runs_eval obeyed (lists_foldl_set captured fun pair member => ?_) made.body
  exact all _ (List.of_mem_zip member).2

section Routes

variable {route : Route τ} {other : Route υ}
  (routed : route.Obeys policy program fuel maxDepth other) (permits : program.Permits policy)

include routed permits

/-- Calls obey a policy whatever frames are left, as every call uses one up. -/
theorem obey_callsAt (remaining : Nat) (inside : remaining ≤ maxDepth) :
    Calls.Obey policy (callsAt program fuel route remaining)
      (callsAt program fuel other remaining) := by
  induction remaining with
  | zero =>
    apply sound.obey_of
    · exact routed 0 inside (sound.serves_interpretIn permits fuel .none)
    · exact fun _ _ => .raise _
  | succ remaining ih =>
    have inner := ih (Nat.le_of_succ_le inside)
    apply sound.obey_of
    · exact routed (remaining + 1) inside (sound.serves_interpretIn permits fuel (.some inner))
    · exact sound.runs_runClosure inner

theorem serves_interpretAt (remaining : Nat) (inside : remaining ≤ maxDepth) :
    policy.Serves (interpretAt program fuel route remaining)
      (interpretAt program fuel other remaining) := by
  cases remaining with
  | zero => exact sound.serves_interpretIn permits fuel .none
  | succ remaining =>
    exact sound.serves_interpretIn permits fuel
      (.some (sound.obey_callsAt routed permits remaining (Nat.le_of_succ_le inside)))

end Routes

theorem runs_runModule (obey : calls.Obey policy plain)
    (permitted : Stmt.AllBind policy.binds program.module.body) :
    policy.Runs (fun _ => True) (runModule program fuel calls) (runModule program fuel plain) := by
  constructor
  intro world other pairs
  have start : Frame.Pairs policy ⟨[], world⟩ ⟨[], other⟩ :=
    .intro (fun _ member => absurd member List.not_mem_nil) pairs
  let ctx : Context τ := { program, calls, fuel, scope := .module }
  have body : policy.RunsFrame (policy.Ends False ⟨false, false⟩)
      (execBlock ctx program.module.body) (execBlock (ctx.withCalls plain) program.module.body) :=
    sound.runs_execBlock obey _ (fun stmt inside name stored _ => permitted stmt inside name stored)
      False.elim
  have agreed := body.agrees start
  simp only [runModule]
  simp only [Context.withCalls] at agreed
  generalize execBlock _ program.module.body ⟨[], world⟩ = result at agreed ⊢
  generalize execBlock _ program.module.body ⟨[], other⟩ = plainResult at agreed ⊢
  cases agreed with
  | ok held between =>
    obtain ⟨_, between⟩ := between
    exact .ok trivial between
  | raised between =>
    obtain ⟨_, between⟩ := between
    exact .raised between
  | exhausted => exact .exhausted
  | unfinished => exact .unfinished

end Policy.Sound

/-- Nothing is asked of a world but that the other tiers are related. -/
def Policy.relating (related : τ → υ → Prop) : Policy τ υ where
  admits _ := True
  binds _ := True
  heap _ := True
  globals _ := True
  output _ := True
  tier := related

theorem Policy.sound_relating (related : τ → υ → Prop) : (Policy.relating related).Sound where
  plain _ := trivial
  made _ _ := trivial
  fresh _ _ := trivial
  inside {_ _ _ object} _ _ _ _ := by
    cases object with
    | list | tuple | closure => exact fun _ _ => trivial
    | dict => exact fun _ _ => ⟨trivial, trivial⟩
  changed _ _ _ _ := trivial
  named _ _ := trivial
  bound _ _ _ := trivial
  printed _ _ := trivial

end TwoTier.Interp
