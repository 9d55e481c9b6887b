import TwoTier.Proofs.Chunks.Lowering
import TwoTier.Proofs.Eligibility.Samples
import TwoTier.Proofs.Forms.Eligible
import TwoTier.Proofs.Refinement

namespace TwoTier.Native

open Passes (Budget Chunked Extends OutlinesBlock Progress Rule chunkLoops chunkedBlock countLoops
  hoistInvariants routine_setRoutine scalarReads)
open Typed (BlockFormed Body BodyFormed Domain LocalId ParallelHead Routine RoutineIndex Stmt)

section Routines

theorem unlowered_of_formed (formed : BlockFormed domain place body) (flat : place.rule.unlowered) :
    ∀ node ∈ Stmt.blockNodes body, node.lowered? = none := by
  intro node present
  obtain ⟨around, same, held⟩ := formed.nodes _ present
  rw [← same] at flat
  cases node with
  | vector | parallel => exact absurd flat held.1.2
  | _ => rfl

theorem declares_of_formed {routine : Routine} {domain : Domain}
    (same : routine.locals = domain.locals) {place : Passes.Place}
    (formed : BlockFormed domain place body) (flat : place.rule.unlowered) :
    ∀ node ∈ Stmt.blockNodes body, Declares routine.locals.length node := by
  intro node present
  have fits := nodeFits_of_formed same formed node present
  refine ⟨fun expr own id named => ?_, fun id written => (fits.writes id written).lt,
    fun stores => (fits.stores stores).lt, fun loops => ?_, unlowered_of_formed formed flat node present⟩
  · obtain ⟨part, inside, names⟩ := List.mem_flatMap.1 named
    have partFits := fits.parts expr own part inside
    cases reads : part.var? with
    | none => exact (partFits.arrays reads id names).lt
    | some other =>
      obtain rfl : id = other := by
        cases part with
        | var _ _ =>
          cases reads
          exact List.mem_singleton.1 names
        | _ => cases reads
      exact (partFits.scalar id reads).lt
  · subst loops
    obtain ⟨_, _, held⟩ := formed.nodes _ present
    exact held.1.resumes

variable {routine : Routine} {profile? : RoutineIndex → Option Typed.Profile} {rule : Rule}

theorem lowers_chunkLoops (formed : routine.Formed profile? rule) (flat : rule.unlowered) :
    Lowers routine (chunkLoops routine).2 := by
  have ran : OutlinesBlock (Chunked routine (scalarReads routine.body)) routine.body
      (chunkLoops routine).2.body ∧ Extends routine
        ((chunkedBlock (scalarReads routine.body) routine.body).run { routine }).2.routine :=
    Passes.chunkedBlock_run routine.body (.refl routine)
  have relaxed := formed.weaken rule.implies_lowering
  have rebuilt : (chunkLoops routine).2.Formed profile? rule.lowering :=
    (relaxed.rebuilt (Typed.yields_chunkedBlock relaxed.body id)).1
  obtain ⟨outlines, temps, isTemp, extended⟩ := ran
  exact {
    locals := ⟨temps, isTemp, congrArg Routine.locals extended⟩
    outlines
    declares := declares_of_formed rfl formed.body flat
    fits := nodeFits_of_formed rfl rebuilt.body }

/-- Outlining leaves all of a routine but its code and its temporaries as it is. -/
theorem signature_chunkLoops : (chunkLoops routine).2.params = routine.params ∧
    (chunkLoops routine).2.result = routine.result := by
  have ran : Extends routine
      ((chunkedBlock (scalarReads routine.body) routine.body).run { routine }).2.routine :=
    (Passes.chunkedBlock_run routine.body (.refl routine)).2
  obtain ⟨temps, _, extended⟩ := ran
  exact ⟨(congrArg Routine.params extended :), (congrArg Routine.result extended :)⟩

end Routines

section Entry

variable {plain lowered : Routine}

theorem size_entrySlots (routine : Routine) (args : List Slot) :
    (entrySlots routine args).size = routine.locals.length := by
  unfold entrySlots
  generalize routine.params.zip args = pairs
  have start : (emptySlots routine).size = routine.locals.length := size_emptySlots
  generalize emptySlots routine = slots at start
  induction pairs generalizing slots with
  | nil => exact start
  | cons pair rest ih => exact ih _ (by simpa using start)

theorem entrySlots_eq (lowers : Lowers plain lowered) (params : lowered.params = plain.params)
    (args : List Slot) {id : LocalId} (inside : id < plain.locals.length) :
    (entrySlots lowered args)[id]? = (entrySlots plain args)[id]? := by
  obtain ⟨temps, _, same⟩ := lowers.locals
  unfold entrySlots
  rw [params]
  generalize plain.params.zip args = pairs
  have start : (emptySlots lowered)[id]? = (emptySlots plain)[id]? := by
    simp [emptySlots, same, List.getElem?_append_left, inside]
  have sizes : plain.locals.length ≤ (emptySlots plain).size ∧
      plain.locals.length ≤ (emptySlots lowered).size := by
    simp [same]
  generalize emptySlots lowered = slots at start sizes
  generalize emptySlots plain = others at start sizes
  induction pairs generalizing slots others with
  | nil => exact start
  | cons pair rest ih =>
    obtain ⟨param, arg⟩ := pair
    refine ih _ _ ?_ (by simpa using sizes)
    by_cases here : param = id
    · subst here
      rw [Array.getElem?_setIfInBounds_self_of_lt (Nat.lt_of_lt_of_le inside sizes.2),
        Array.getElem?_setIfInBounds_self_of_lt (Nat.lt_of_lt_of_le inside sizes.1)]
    · rw [Array.getElem?_setIfInBounds_ne here, Array.getElem?_setIfInBounds_ne here, start]

theorem agrees_entry (lowers : Lowers plain lowered) (params : lowered.params = plain.params)
    (args : List Slot) (shared : Shared) :
    Agrees (Lowers.Fixed plain lowered) [] plain.locals.length []
      ⟨entrySlots lowered args, [], shared⟩ ⟨entrySlots plain args, [], shared⟩ where
  locals _ fixed := entrySlots_eq lowers params args (fixed.resolve_right List.not_mem_nil).1
  room := Nat.le_of_eq (size_entrySlots plain args).symm
  tracked _ held := by simp at held
  distances := rfl
  shared := rfl

end Entry

section Calls

variable {plain lowered : Routine}

/-- Whether a loop over chunks adds up nothing, or words. -/
def AddsWords (parallel : ParallelHead) : Prop :=
  ∀ reduction ∈ parallel.reduction, reduction.type = .int

section

variable (lowers : Lowers plain lowered)

include lowers

theorem lowered_follows
    (words : ∀ {parallel chunk}, .parallel parallel chunk ∈ Stmt.blockNodes lowered.body →
      AddsWords parallel) {ctx other : Context}
    (own : ctx.routine = lowered) (companions : Companions ctx other) :
    FollowsIn (Agrees (Lowers.Fixed plain lowered) [] plain.locals.length [])
      (execBlock ctx lowered.body) (execBlock other plain.body) := by
  subst own
  have outlines := lowers.outlines.imp fun loop chunks => fun chunked =>
    lowers.sound ⟨loop, chunks⟩ chunked (words (Passes.mem_blockNodes_of_frame chunks))
  exact outlinesBlock_exec companions (fun id fixed => fixed.1) outlines lowers.declares
    fun node => lowers.framed

theorem loop_follows {parallel : ParallelHead} {chunk : Stmt}
    (member : .parallel parallel chunk ∈ Stmt.blockNodes lowered.body)
    (words : AddsWords parallel) :
    ∃ head body, .forLoop head body ∈ Stmt.blockNodes plain.body ∧
      ∀ {ctx other : Context}, ctx.routine = lowered → Companions ctx other →
        FollowsIn (Agrees (Lowers.Fixed plain lowered) [] plain.locals.length [])
          (exec ctx (.parallel parallel chunk)) (exec other (.forLoop head body)) := by
  have framed := lowers.mem_frame member
  obtain ⟨head, body, loop, rfl, chunked⟩ := lowers.exists_loop framed
  refine ⟨head, body, loop, fun own companions => ?_⟩
  subst own
  have outlines : Passes.Outlines (Sound (Lowers.Fixed plain _) plain.locals.length _)
      (.forLoop head body) (.parallel parallel (.forLoop (chunkHead parallel) body)) :=
    .inl ⟨parallel, rfl, lowers.sound ⟨loop, framed⟩ chunked words⟩
  refine outlines_exec companions (fun id fixed => fixed.1) outlines
    (fun node inside => lowers.declares node
      (Stmt.blockNodes_within (List.Subset.refl _) _ loop inside)) fun node inside => ?_
  rw [List.mem_singleton.1 inside]
  exact lowers.framed framed

theorem origin_eq {id : LocalId} (param : (lowered.decl id).origin = .param position) :
    (plain.decl id).origin = .param position := by
  obtain ⟨temps, isTemp, same⟩ := lowers.locals
  unfold Routine.decl at param ⊢
  rw [List.getD_eq_getElem?_getD, same] at param
  rw [List.getD_eq_getElem?_getD]
  by_cases inside : id < plain.locals.length
  · rwa [List.getElem?_append_left inside] at param
  · rw [List.getElem?_append_right (Nat.le_of_not_lt inside)] at param
    cases found : temps[id - plain.locals.length]? with
    | none =>
      rw [found] at param
      rw [List.getElem?_eq_none (Nat.le_of_not_lt inside)]
      exact param
    | some decl =>
      rw [found, Option.getD_some, isTemp decl (List.mem_of_getElem? found)] at param
      cases param

theorem refines_lowered
    (words : ∀ {parallel chunk}, .parallel parallel chunk ∈ Stmt.blockNodes lowered.body → AddsWords
      parallel) (params : lowered.params = plain.params) (result : lowered.result = plain.result)
    (depth : larger.maxDepth = limits.maxDepth) (granted : limits.fuel + 2 ^ 63 ≤ larger.fuel)
    (calls : ∀ callee args, Refines (call callee args) (better callee args)) (args : List Slot) :
    Refines (enter limits lowered call args) (enter larger plain better args) := by
  refine .of_apply fun {shared value later} ran => ?_
  obtain ⟨shallow, left⟩ := enter_eq_ok.1 ran
  obtain ⟨flow, machine, ended, same, flows⟩ := leaveRoutine_eq_ok.1 left
  have companions : Companions
      ⟨lowered, call, limits.fuel, limits.leastChunk, limits.targetChunks⟩
      ⟨plain, better, larger.fuel, larger.leastChunk, larger.targetChunks⟩ :=
    { granted, calls, result := result.symm, params := fun _ _ => origin_eq lowers }
  obtain ⟨twin, twinEnded, agrees⟩ := (lowered_follows lowers words rfl companions).run
    (agrees_entry lowers params args _) ended
  refine enter_eq_ok.2 ⟨depth ▸ shallow, leaveRoutine_eq_ok.2 ⟨flow, twin, twinEnded, ?_, ?_⟩⟩
  · rw [same, agrees.shared]
  · rw [← result]
    exact flows

end

end Calls

section Stages

/-- A body after folding and inlining, when the passes come to its loops. -/
def inlined (settings : Settings) (body : Body) : Progress :=
  let budget : Budget := ⟨settings, body.root.directives.hot⟩
  let start : Progress := ⟨body, { overBudget := body.nodeCount > budget.nodeBudget }⟩
  (body.reachable.foldl Progress.fold start).inlineAll budget body.nodeCount

/-- A body when the passes come to outline the loops of a routine. -/
def atChunks (settings : Settings) (body : Body) (done : List RoutineIndex)
    (index : RoutineIndex) : Body :=
  let budget : Budget := ⟨settings, body.root.directives.hot⟩
  let progress := done.foldl (Progress.lowerLoops budget) (inlined settings body)
  ((progress.apply .normalize index countLoops).apply .licm index hoistInvariants).body

/-- While loops are lowered, only routines that are done have lowered ones. -/
def stageRules (done : List RoutineIndex) (index : RoutineIndex) : Rule :=
  ⟨True, False, False, index ∉ done, False, False⟩

theorem formed_foldl_lowerLoops {profile? : RoutineIndex → Option Typed.Profile} (budget : Budget)
    (indices : List RoutineIndex) :
    ∀ {progress : Progress} {done : List RoutineIndex},
      BodyFormed profile? (stageRules done) storing progress.body →
        BodyFormed profile? (stageRules (indices.reverse ++ done)) storing
          (indices.foldl (Progress.lowerLoops budget) progress).body := by
  induction indices with
  | nil => exact fun formed => formed
  | cons index rest ih =>
    intro progress done formed
    have next : BodyFormed profile? (stageRules (index :: done)) storing progress.body :=
      formed.weaken fun _ =>
        ⟨id, id, id, fun outside member => outside (.tail _ member), id, id⟩
    rw [List.reverse_cons, List.append_assoc]
    exact ih (next.lowerLoops budget fun outside => outside (.head _))

end Stages

section Eligible

open Eligibility (analyze)
open Interp (Program)

variable {source : String} {module : Surface.Module} {candidate : Candidate} {kinds : List Kind}
  {body : Body}

theorem formed_atChunks (read : Surface.readModule source = .ok module)
    (eligible : (analyze (Program.ofModule module) candidate kinds).verdict = .eligible body)
    (listed : ∃ info, (Program.ofModule module).function? candidate.name = some info ∧
      info.definition = candidate.definition) (settings : Settings) (done : List RoutineIndex)
    (index : RoutineIndex) :
    BodyFormed body.profile? (stageRules (done.reverse ++ [])) (body.purity = .mutatesContainer)
      (atChunks settings body done index) := by
  have flat : BodyFormed _ _ _ (inlined settings body).body :=
    .inlineAll Eligibility.copying_entryRules
      (.foldl BodyFormed.fold _ (Eligibility.bodyFormed_of_eligible eligible listed))
  refine .ready index (formed_foldl_lowerLoops _ done (flat.weaken fun _ => ?_))
  exact ⟨fun _ => Eligibility.jumpsPlaced_of_readModule read, nofun, nofun, fun _ => trivial, nofun,
    nofun⟩

/-- Outlining the loops of any routine of an eligible function, when the passes come to it. Calls
that end well with loops over chunks end in the same way with the plain loops, if what the loops add
up are words. Each such loop leaves the buffers, and all locals but those that are read in one loop
only, as the plain loop does. -/
theorem call_of_chunked (read : Surface.readModule source = .ok module)
    (eligible : (analyze (Program.ofModule module) candidate kinds).verdict = .eligible body)
    (listed : ∃ info, (Program.ofModule module).function? candidate.name = some info ∧
      info.definition = candidate.definition) (settings : Settings) {done : List RoutineIndex}
    {index : RoutineIndex} (pending : index ∉ done) {plain lowered : Routine}
    (reached : (atChunks settings body done index).routine index = plain)
    (outlined : (chunkLoops plain).2 = lowered) {limits : Limits} {fuel : Nat}
    (granted : limits.fuel + 2 ^ 63 ≤ fuel) :
    ((∀ {parallel chunk}, .parallel parallel chunk ∈ Stmt.blockNodes lowered.body →
        AddsWords parallel) →
      ∀ {frames args shared result later},
        callRoutine ((atChunks settings body done index).setRoutine index lowered) limits frames
            index args shared = .ok result later →
          callRoutine (atChunks settings body done index) { limits with fuel } frames index args
            shared = .ok result later) ∧
      ∀ {parallel chunk}, .parallel parallel chunk ∈ Stmt.blockNodes lowered.body →
        AddsWords parallel → ∃ head inner, .forLoop head inner ∈ Stmt.blockNodes plain.body ∧
          ∀ {call better : Callee}, (∀ callee args, Refines (call callee args) (better callee args)) →
            FollowsIn (Agrees (Lowers.Fixed plain lowered) [] plain.locals.length [])
              (exec ⟨lowered, call, limits.fuel, limits.leastChunk, limits.targetChunks⟩
                (.parallel parallel chunk))
              (exec ⟨plain, better, fuel, limits.leastChunk, limits.targetChunks⟩
                (.forLoop head inner)) := by
  have formed := (formed_atChunks read eligible listed settings done index).routine index
  rw [reached] at formed
  have flat : (stageRules (done.reverse ++ []) index).unlowered := by
    simpa [stageRules] using pending
  have lowers : Lowers plain lowered := outlined ▸ lowers_chunkLoops formed flat
  obtain ⟨params, result⟩ : lowered.params = plain.params ∧ lowered.result = plain.result :=
    outlined ▸ signature_chunkLoops
  constructor
  · intro words frames args shared value later ran
    have depth : Limits.maxDepth { limits with fuel } = limits.maxDepth := rfl
    have more : limits.fuel ≤ Limits.fuel { limits with fuel } := by
      show limits.fuel ≤ fuel
      omega
    refine (refines_callRoutine (fun {other call better} calls args => ?_) frames index args).apply ran
    obtain ⟨changed, rfl⟩ | same :=
      routine_setRoutine (atChunks settings body done index) index other lowered
    · rw [changed, reached]
      exact refines_lowered lowers words params result depth granted calls args
    · rw [same]
      exact refines_enter depth rfl rfl more calls _ args
  · intro parallel chunk member words
    obtain ⟨head, inner, loop, follows⟩ := loop_follows lowers member words
    refine ⟨head, inner, loop, fun calls => follows rfl ?_⟩
    exact { granted, calls, result := result.symm, params := fun _ _ => origin_eq lowers }

/-- Scales a list into another one, with a sum; the counter is used after the loop. -/
def scaleSource : String :=
  "def f(a: list[int], b: list[int], k: int):\n    # #adrenaline:parallel\n" ++
  "    s = 0\n    i = 0\n    for i in range(len(a)):\n        t = a[i] * k\n" ++
  "        b[i] = t\n        s = s + t\n    return s + i\n"

def scaleKinds : List Kind := [.array .int, .array .int, .scalar .int]

def scaleArgs : List Slot := [.array (some 0), .array (some 1), .scalar (.int 2)]

def scaleShared : Shared :=
  ⟨#[#[.int 1, .int 2, .int 3, .int 4, .int 5], #[.int 0, .int 0, .int 0, .int 0, .int 0]], 0⟩

def scaleLimits : Limits := ⟨10, 1, 2, 10⟩

def Outcome.word? : Outcome Shared Scalar → Option Int64
  | .ok (.int word) _ => some word
  | _ => none

theorem Outcome.eq_ok_of_word? {outcome : Outcome Shared Scalar} {word : Int64}
    (given : outcome.word? = some word) : ∃ later, outcome = .ok (.int word) later := by
  unfold Outcome.word? at given
  split at given
  · cases given
    exact ⟨_, rfl⟩
  · cases given

/-- Whether a statement is no loop over chunks that adds up anything but words. -/
def keepsWords : Stmt → Bool
  | .parallel head _ => head.reduction.all (·.type = .int)
  | _ => true

/-- Five elements in two chunks. -/
theorem call_of_chunked_scale :
    ∃ sample, Eligibility.sample? scaleSource "f" scaleKinds = some sample ∧
      (∃ node ∈ Stmt.blockNodes (chunkLoops ((atChunks {} sample.body [] 0).routine 0)).2.body,
        node.lowered?.isSome = true) ∧
      ∃ later, callRoutine ((atChunks {} sample.body [] 0).setRoutine 0
            (chunkLoops ((atChunks {} sample.body [] 0).routine 0)).2) scaleLimits 1 0 scaleArgs
          scaleShared = .ok (.int 34) later ∧
        callRoutine (atChunks {} sample.body [] 0) { scaleLimits with fuel := 10 + 2 ^ 63 } 1 0
          scaleArgs scaleShared = .ok (.int 34) later := by
  have evaluated : ((Eligibility.sample? scaleSource "f" scaleKinds).any fun sample =>
      (Stmt.blockNodes (chunkLoops ((atChunks {} sample.body [] 0).routine 0)).2.body).all
          keepsWords &&
        (Stmt.blockNodes (chunkLoops ((atChunks {} sample.body [] 0).routine 0)).2.body).any
          (·.lowered?.isSome) &&
        decide ((callRoutine ((atChunks {} sample.body [] 0).setRoutine 0
            (chunkLoops ((atChunks {} sample.body [] 0).routine 0)).2) scaleLimits 1 0 scaleArgs
          scaleShared).word? = some 34)) = true := by
    decide +kernel
  obtain ⟨sample, found, holds⟩ := (Option.any_eq_true _ _).1 evaluated
  obtain ⟨holds, given⟩ := Bool.and_eq_true_iff.1 holds
  obtain ⟨words, chunks⟩ := Bool.and_eq_true_iff.1 holds
  obtain ⟨later, ran⟩ := Outcome.eq_ok_of_word? (of_decide_eq_true given)
  obtain ⟨module, read, same⟩ := Eligibility.read_of_sample? found
  obtain ⟨eligible, listed⟩ := Eligibility.eligible_of_sample? found
  rw [same] at eligible listed
  refine ⟨sample, found, List.any_eq_true.1 chunks, later, ran, ?_⟩
  refine (call_of_chunked read eligible listed {} List.not_mem_nil rfl rfl (Nat.le_refl _)).1
    (fun member => ?_) ran
  have adds := List.all_eq_true.1 words _ member
  simpa [keepsWords, AddsWords, Option.all_eq_true] using adds

end Eligible

end TwoTier.Native
