import TwoTier.Proofs.Dispatch.Lifecycle

namespace TwoTier.Dispatch

open Interp (Heap Program Run Value World)

open Relation (ReflTransGen)

/-- Every call was answered in one way, and all that compiled code gave up were interpreted. -/
def Tally.AddsUp (tally : Tally) : Prop :=
  tally.calls = tally.compiledCalls + tally.interpretedCalls ∧ tally.deopts ≤ tally.interpretedCalls

namespace Tally.AddsUp

variable {tally : Tally} (adds : tally.AddsUp)

include adds

theorem interpreted : tally.countCall.countInterpreted.AddsUp :=
  ⟨congrArg (· + 1) adds.1, Nat.le_succ_of_le adds.2⟩

theorem compiled : tally.countCall.countCompiled.AddsUp :=
  ⟨(congrArg (· + 1) adds.1).trans (Nat.add_right_comm ..), adds.2⟩

theorem givenUp : tally.countCall.countDeopt.countInterpreted.AddsUp :=
  ⟨congrArg (· + 1) adds.1, Nat.succ_le_succ adds.2⟩

end Tally.AddsUp

namespace Registry

variable {registry : Registry} {id : FunctionId} {step rest : Tally → Tally}

def AddsUp (registry : Registry) : Prop := registry.Tallied fun _ => Tally.AddsUp

/-- In the middle of a call: all tallies add up once that of its function is completed. -/
def Owes (registry : Registry) (id : FunctionId) (rest : Tally → Tally) : Prop :=
  registry.Tallied fun other tally => (if id = other then rest tally else tally).AddsUp

theorem AddsUp.count (adds : registry.AddsUp)
    (completes : ∀ tally : Tally, tally.AddsUp → (rest (step tally)).AddsUp) :
    (registry.count id step).Owes id rest := by
  refine adds.modify (fun entry _ held => ?_) fun other tally different held => ?_
  · rw [if_pos rfl]
    exact completes entry.tally held
  · rwa [if_neg different]

theorem Owes.count (owes : registry.Owes id fun tally => rest (step tally)) :
    (registry.count id step).Owes id rest := by
  refine owes.modify (fun entry _ held => ?_) fun other tally different held => ?_
  · rwa [if_pos rfl] at held ⊢
  · rwa [if_neg different] at held ⊢

theorem Owes.completed (owes : registry.Owes id step) : (registry.count id step).AddsUp := by
  refine owes.modify (fun entry _ held => ?_) fun other tally different held => ?_
  · rwa [if_pos rfl] at held
  · rwa [if_neg different] at held

theorem Owes.maintained {later : Registry} (owes : registry.Owes id .countInterpreted)
    (maintains : Workshop.Maintains ⟨registry, []⟩ ⟨later, []⟩) :
    later.Owes id .countInterpreted := by
  refine maintains.tallied (fun other tally held => ?_) owes
  by_cases same : id = other
  · rw [if_pos same] at held ⊢
    exact held
  · rw [if_neg same] at held ⊢
    exact held

end Registry

namespace Workshop

variable {registry : Registry} {underway : List Job} {program : Program} {id : FunctionId}

theorem addsUp_callEntry {args : List Value} {ended : World Registry} (adds : world.tier.AddsUp)
    (ends : (callEntry program remaining deferred id args world).Ends ended) :
    ended.tier.AddsUp := by
  obtain ⟨heap, globals, output, registry⟩ := world
  have interpreted (middle : Registry) {name : String} (owes : middle.Owes id .countInterpreted)
      (ends : (deferred name args
        ⟨heap, globals, output, middle.count id .countInterpreted⟩).Ends ended) :
      ended.tier.AddsUp := by
    rw [eq_of_deferred_ends ends]
    exact owes.completed
  have called : (registry.count id .countCall).Owes id .countInterpreted :=
    adds.count fun _ => .interpreted
  unfold callEntry at ends
  dsimp only at ends
  split at ends
  · cases ends
    exact adds
  · split at ends
    · exact interpreted _ (called.maintained (maintains_scheduleAfter args heap)) ends
    · exact interpreted _ called ends
    · exact interpreted _ called ends
    · split at ends
      · cases ends
        exact (adds.count fun _ => .compiled).completed
      · have left : (registry.count id .countCall).Owes id fun tally =>
            tally.countDeopt.countInterpreted := adds.count fun _ => .givenUp
        exact interpreted _ (left.count.maintained (maintains_remember ..)) ends
      · exact interpreted _ called ends
      · cases ends

theorem Step.addsUp {next : Workshop} (step : Step shop next) (adds : shop.registry.AddsUp) :
    next.registry.AddsUp := by
  have closed (_ : FunctionId) (tally : Tally) (held : tally.AddsUp) : tally.countAttempt.AddsUp :=
    held
  cases step with
  | @registers registry underway program candidate =>
    obtain known | pushed := @maintains_register registry underway program candidate
    · exact known.tallied closed adds
    · refine pushed.tallied closed fun id entry found => ?_
      rw [Registry.entry?, Array.getElem?_push] at found
      split at found
      · cases found
        exact ⟨rfl, .refl⟩
      · exact adds id entry found
  | @invalidates registry underway program name =>
    exact (@maintains_invalidate registry underway program name).tallied closed adds
  | @removes registry underway program name =>
    exact (@maintains_remove registry underway program name).tallied closed adds
  | calls ends => exact addsUp_callEntry adds ends
  | takes waits => exact adds
  | finishes program job => exact (maintains_finishes program job).tallied closed adds

/-! ### Operations of an engine -/

theorem steps_update (old new : Program) :
    ReflTransGen Step ⟨registry, underway⟩ ⟨(registry.update old new).2, underway⟩ := by
  refine ((steps_foldl Update.registry ?_ (candidatesOf new) { registry }).trans
    (steps_foldl Update.registry ?_ registry.digests.keys _)).trans
      (steps_foldl Update.registry ?_ _ _)
  · intro update candidate
    unfold Update.enter
    dsimp only
    split
    · exact .single (.registers new candidate)
    · split
      · exact .refl
      · exact .single (.registers new candidate)
  · intro update name
    unfold Update.drop
    split
    · exact .refl
    · exact .single (.removes new name)
  · intro update constant
    unfold Update.recheck
    split
    · exact .refl
    · exact .single (.invalidates new constant.1)

theorem steps_drain (program : Program) :
    ReflTransGen Step ⟨registry, underway⟩ ⟨registry.drain program, underway⟩ := by
  refine steps_foldl (fun registry => registry) (fun registry _ => ?_) registry.queue registry
  unfold Registry.finishNext
  split
  · exact .refl
  · rename_i job queue waits
    exact .tail (.single (.takes waits)) (@Step.finishes _ [] underway program job)

section Calls

variable {engine : Engine}

theorem obey_calls (engine : Engine) (shop : Workshop) :
    engine.calls.Obey shop.reached engine.calls :=
  (Interp.Policy.sound_relating _).obey_callsAt
    (obeys_route engine.program Interp.loopAllowance engine.maxDepth) (fun _ _ _ _ _ => trivial)
    engine.maxDepth .refl

theorem steps_call {args : List Value} (ends : (engine.call callee args).Ends world) :
    ReflTransGen Step ⟨engine.registry, underway⟩ ⟨world.tier, underway⟩ := by
  have obey := obey_calls engine ⟨engine.registry, underway⟩
  have kept := Run.Keeps.of_matches pairs_reached_self
    (@obey.function callee args fun _ _ => trivial)
  exact (kept.leaves .refl).ends ends

theorem steps_main (ends : engine.main.Ends world) :
    ReflTransGen Step ⟨engine.registry, underway⟩ ⟨world.tier, underway⟩ := by
  have kept : Run.Keeps (fun world => ReflTransGen Step ⟨engine.registry, underway⟩
      ⟨world.tier, underway⟩) (Interp.runMain engine.program engine.calls) := by
    refine .runMain ?_ fun _ held => held
    exact .of_matches pairs_reached_self ((Interp.Policy.sound_relating _).runs_runModule
      (obey_calls engine ⟨engine.registry, underway⟩) fun _ _ _ _ => trivial)
  exact (kept.leaves .refl).ends ends

end Calls

/-- What is true of a workshop between calls. -/
def Kept (shop : Workshop) : Prop := shop.Sound ∧ shop.registry.AddsUp

theorem Kept.steps {last : Workshop} (kept : shop.Kept) (steps : ReflTransGen Step shop last) :
    last.Kept := by
  induction steps with
  | refl => exact kept
  | tail _ step ih => exact ⟨step.advances.sound ih.1, step.addsUp ih.2⟩

end Workshop

namespace Engine

/-- The engines that a start can lead to when no call is in progress, with the compilations that
workers have taken and not finished. -/
inductive Reached (source : String) (settings : Settings) : Engine → List Job → Prop where
  | started (begins : start source settings = .ok engine) : Reached source settings engine []
  | called (earlier : Reached source settings engine underway)
      (ends : (engine.call callee args).Ends after) :
      Reached source settings { engine with world := after } underway
  | invoked (earlier : Reached source settings engine underway)
      (ends : (engine.invoke number args).Ends after) :
      Reached source settings { engine with world := after } underway
  | ranMain (earlier : Reached source settings engine underway) (ends : engine.main.Ends after) :
      Reached source settings { engine with world := after } underway
  | reloaded (version : String) (earlier : Reached source settings engine underway) :
      Reached source settings (engine.reload version).2 underway
  | waited (earlier : Reached source settings engine underway) :
      Reached source settings engine.wait underway
  /-- a function is registered, invalidated or removed, or a worker takes or ends a compilation -/
  | tended (earlier : Reached source settings engine underway)
      (step : Workshop.Step ⟨engine.registry, underway⟩ ⟨changed, later⟩) :
      Reached source settings (engine.withRegistry changed) later
  /-- the host takes output and diagnostics and changes its objects -/
  | hosted (heap : Heap) (output : String) (diagnostics : List Diagnostic)
      (earlier : Reached source settings engine underway) :
      Reached source settings
        ⟨engine.program, heap, engine.world.globals, output, { engine.registry with diagnostics }⟩
        underway

/-- Whatever an engine is asked for, its registry stays sound and the tallies add up. -/
theorem Reached.kept {engine : Engine} {underway : List Job}
    (reached : Reached source settings engine underway) :
    Workshop.Kept ⟨engine.registry, underway⟩ := by
  induction reached with
  | started begins =>
    have fresh : Workshop.Kept ⟨{ settings }, []⟩ := by
      refine ⟨Workshop.sound_start settings, fun id entry found => ?_⟩
      cases Array.getElem?_empty.symm.trans found
    unfold start at begins
    split at begins
    · cases begins
    · split at begins
      · cases begins
      · cases begins
        exact fresh.steps (Workshop.steps_registerAll _)
  | called _ ends ih => exact ih.steps (Workshop.steps_call ends)
  | invoked _ ends ih => exact ih.steps (Workshop.steps_invoke rfl ends)
  | ranMain _ ends ih => exact ih.steps (Workshop.steps_main ends)
  | reloaded version _ ih =>
    unfold reload
    dsimp only
    split
    · exact ih.steps (Workshop.steps_update _ _)
    · exact ih
  | waited _ ih => exact ih.steps (Workshop.steps_drain _)
  | tended _ step ih => exact ih.steps (.single step)
  | @hosted engine underway heap output diagnostics _ ih =>
    have same : Workshop.Maintains ⟨engine.registry, underway⟩
        ⟨{ engine.registry with diagnostics }, underway⟩ := Workshop.maintains_of_eq rfl (.refl _)
    exact ⟨same.sound ih.1, ih.2⟩

/-- Whatever was done with an engine: between calls the statistics of every function add up. -/
theorem statistics_add_up {engine : Engine} {underway : List Job} {id : FunctionId} {entry : Entry}
    (reached : Reached source settings engine underway)
    (found : engine.registry.entry? id = some entry) :
    entry.tally.calls = entry.tally.compiledCalls + entry.tally.interpretedCalls ∧
      entry.tally.deopts ≤ entry.tally.interpretedCalls ∧
      entry.tally.compileAttempts ≤ entry.generation + 1 := by
  obtain ⟨sound, adds⟩ := reached.kept
  have bounded := sound.bounded id entry found
  unfold Workshop.asked at bounded
  rw [found] at bounded
  obtain ⟨calls, deopts⟩ := adds id entry found
  refine ⟨calls, deopts, ?_⟩
  simp only [Option.map_some, Option.getD_some] at bounded
  omega

/-- What a call that gives a value leaves. -/
def left? : Interp.Result (World Registry) Value → Option (World Registry)
  | .ok _ world => some world
  | .raised _ _ | .exhausted => none

theorem ends_of_left? (left : left? result = some after) : result.Ends after := by
  cases result with
  | ok =>
    cases left
    exact .ok
  | raised | exhausted => cases left

/-- A function is called, compiled and called again. -/
theorem statistics_add_up_tick :
    ∃ engine world again entry, start Workshop.tickSource Workshop.tickSettings = .ok engine ∧
      (engine.call "tick" [.int 1]).Ends world ∧
      ((wait { engine with world }).call "tick" [.int 2]).Ends again ∧
      Registry.entry? again.tier 0 = some entry ∧ entry.tally = ⟨2, 1, 1, 0, 1⟩ ∧
      entry.tally.calls = entry.tally.compiledCalls + entry.tally.interpretedCalls := by
  have evaluated : ((start Workshop.tickSource Workshop.tickSettings).toOption.any fun engine =>
      (left? (engine.call "tick" [.int 1])).any fun world =>
      (left? ((wait { engine with world }).call "tick" [.int 2])).any fun again =>
        again.tier.entries[0]?.any (·.tally == ⟨2, 1, 1, 0, 1⟩)) = true := by decide +kernel
  obtain ⟨engine, begins, evaluated⟩ := (Option.any_eq_true _ _).1 evaluated
  obtain ⟨world, first, evaluated⟩ := (Option.any_eq_true _ _).1 evaluated
  obtain ⟨again, second, evaluated⟩ := (Option.any_eq_true _ _).1 evaluated
  obtain ⟨entry, found, counted⟩ := (Option.any_eq_true _ _).1 evaluated
  replace begins := eq_ok_of_toOption begins
  have one := ends_of_left? first
  have two := ends_of_left? second
  have reached := ((Reached.started begins).called one).waited.called two
  refine ⟨engine, world, again, entry, begins, one, two, found, eq_of_beq counted, ?_⟩
  exact (statistics_add_up reached found).1

end Engine
end TwoTier.Dispatch
