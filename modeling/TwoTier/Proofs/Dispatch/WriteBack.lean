import TwoTier.Dispatch.Engine
import TwoTier.Proofs.Dispatch.Convention
import TwoTier.Proofs.Eligibility.Samples
import TwoTier.Proofs.Run
import TwoTier.Proofs.Stores.Declared
import TwoTier.Proofs.Stores.Reach

namespace TwoTier

namespace Native

open Dispatch (bufferIndex)

section Arguments

variable {kinds : List Kind} {position : Nat} {element : NumType}

theorem array_of_argSlots {scalars : List UInt64} {first index : Nat}
    (passed : (argSlots kinds scalars first)[position]? = some (.array (some index))) :
    (∃ element, kinds[position]? = some (.array element)) ∧
      index = first + bufferIndex kinds position := by
  induction kinds generalizing scalars first position with
  | nil => cases passed
  | cons kind kinds ih =>
    cases kind with
    | scalar type =>
      cases scalars with
      | nil => cases passed
      | cons bits scalars =>
        cases position with
        | zero => cases passed
        | succ position =>
          exact ih passed
    | array element =>
      cases position with
      | zero =>
        cases passed
        exact ⟨⟨element, rfl⟩, rfl⟩
      | succ position =>
        obtain ⟨kind, rfl⟩ := ih passed
        have further : (Kind.array element).isArray = true := rfl
        rw [Dispatch.bufferIndex_cons, if_pos further]
        exact ⟨kind, by omega⟩

theorem getElem?_argBuffers {buffer : Array UInt64}
    (kind : kinds[position]? = some (.array element))
    (passed : arrays[bufferIndex kinds position]? = some buffer) :
    (argBuffers kinds arrays)[bufferIndex kinds position]? =
      some (buffer.map (Scalar.ofBits element)) := by
  have filtered : (kinds.filter (·.isArray))[bufferIndex kinds position]? =
      some (.array element) := by
    clear passed
    induction kinds generalizing position with
    | nil => cases kind
    | cons other kinds ih =>
      cases position with
      | zero =>
        cases kind
        rfl
      | succ position =>
        have found := ih kind
        rw [Dispatch.bufferIndex_cons]
        cases other with
        | scalar type => exact found
        | array type => exact found
  have zipped : ((kinds.filter (·.isArray)).zip arrays)[bufferIndex kinds position]? =
      some (.array element, buffer) := List.getElem?_zip_eq_some.2 ⟨filtered, passed⟩
  simp [argBuffers, zipped, Kind.numType]

end Arguments

theorem Shared.SameIn.buffer {part : Nat → Nat → Prop} {first second : Shared} {index : Nat}
    {before : Array Scalar} (same : SameIn part first second)
    (held : first.buffers[index]? = some before) :
    ∃ after, second.buffers[index]? = some after ∧ after.size = before.size ∧
      ((∀ place, part index place) → after = before) := by
  have inside : index < second.buffers.size := by
    rw [same.count]
    exact (Array.getElem?_eq_some_iff.1 held).1
  have found : second.buffers[index]? = some second.buffers[index] :=
    Array.getElem?_eq_getElem inside
  refine ⟨_, found, ?_, fun within => Array.ext_getElem? fun place => ?_⟩
  · have extent := same.extents index
    simpa [Shared.extent, found, held] using extent
  · have element := same.elements index place (within place)
    simpa [Shared.element, found, held] using element

theorem Code.invoke_eq_returned {code : Code} {left : UInt32} {frame : Frame}
    (ran : code.invoke limits depth frame = .ok (.returned bits arrays left)) :
    ∃ result shared, callRoutine code.body limits (frameCount limits depth) 0
        (argSlots code.argKinds frame.scalars 0) ⟨argBuffers code.argKinds frame.arrays, depth⟩ =
          .ok result shared ∧
      arrays = shared.buffers.toList.map fun buffer => buffer.map Scalar.bits := by
  unfold Code.invoke Code.invokeBy at ran
  dsimp only at ran
  split at ran
  · cases ran
  · split at ran
    · rename_i result shared called
      cases ran
      exact ⟨result, shared, called, rfl⟩
    all_goals cases ran

/-- Compiled code keeps the sizes of all buffers, and those buffers that it does not store into. -/
theorem Code.buffer_of_returned {code : Code} {left : UInt32} {frame : Frame}
    (ran : code.invoke limits depth frame = .ok (.returned bits arrays left))
    (kind : code.argKinds[position]? = some (.array element)) {before : Array UInt64}
    (passed : frame.arrays[bufferIndex code.argKinds position]? = some before) :
    ∃ after, arrays[bufferIndex code.argKinds position]? = some after ∧
      after.size = before.size ∧ (position ∉ code.body.storedParams →
        after = (before.map (Scalar.ofBits element)).map Scalar.bits) := by
  obtain ⟨result, shared, called, rfl⟩ := invoke_eq_returned ran
  obtain ⟨stored, root, accounts⟩ := code.body.storedParams_accounts
  have same := contained_callRoutine accounts _ called
  obtain ⟨after, found, size, kept⟩ := same.buffer (getElem?_argBuffers kind passed)
  refine ⟨after.map Scalar.bits, by simp [found], by simpa using size, fun outside => ?_⟩
  rw [kept]
  rintro place ⟨other, member, slot⟩
  obtain ⟨⟨_, there⟩, index⟩ := array_of_argSlots slot
  rw [Nat.zero_add] at index
  cases Dispatch.bufferIndex_inj kind there index
  exact outside (root ▸ member)

theorem Code.body_of_generate {body : Typed.Body} (generated : generate body = .ok code) :
    code.body = body := by
  simp only [generate, bind, Except.bind] at generated
  split at generated
  · cases generated
  · split at generated
    · cases generated
    · cases generated
      rfl

end Native

namespace Dispatch

open Interp (Heap Program Run Session Value World)

variable {lowered : Lowered} {depth : UInt32} {value : Value}
  {stores : List (LoweredList × Array UInt64)}

theorem eligible_of_compiled
    (built : (build settings program candidate kinds).decision = .compiled artifact) :
    ∃ body, (Eligibility.analyze program candidate kinds).verdict = .eligible body ∧
      artifact.code.body = (Passes.optimize settings body).2 ∧
      artifact.purity = (Passes.optimize settings body).2.purity ∧
      artifact.storedParams = (Passes.optimize settings body).2.storedParams := by
  unfold build at built
  dsimp only at built
  split at built
  · cases built
  · rename_i body eligible
    unfold buildBody at built
    dsimp only at built
    split at built
    · rename_i code generated
      cases built
      exact ⟨body, eligible, Native.Code.body_of_generate generated, rfl, rfl⟩
    · cases built

/-- What a call of compiled code does to the objects of its caller: each list argument holds what
its buffer was left with, and no other object has changed. -/
structure Reflects (artifact : Artifact) (args : List Value) (passed left : List (Array UInt64))
    (heap after : Heap) : Prop where
  lists : ∀ {position address}, args[position]? = some (.list address) →
    ∃ element before buffer, artifact.code.argKinds[position]? = some (.array element) ∧
      passed[bufferIndex artifact.code.argKinds position]? = some before ∧
      left[bufferIndex artifact.code.argKinds position]? = some buffer ∧
      heap.objects[address]? = some (.list (decoded element before)) ∧
      after.objects[address]? = some (.list (decoded element buffer)) ∧
      (buffer ≠ before → position ∈ artifact.storedParams ∧ artifact.purity = .mutatesContainer)
  others : ∀ {address}, Value.list address ∉ args → after.objects[address]? = heap.objects[address]?

section Calls

variable {settings : Settings} {program : Program} {candidate : Candidate} {kinds : List Kind}
  {artifact : Artifact} {args : List Value} {heap : Heap}

theorem listed_of_lowered (given : Lowered.ofArgs? heap kinds args = some lowered)
    {address : Interp.Address} (passed : args[position]? = some (.list address)) :
    ∃ element before, kinds[position]? = some (.array element) ∧
      lowered.lists[bufferIndex kinds position]? = some ⟨address, element, position⟩ ∧
      lowered.frame.arrays[bufferIndex kinds position]? = some before ∧
      Encodes element (heap.items address) before := by
  obtain ⟨lengths, lowers⟩ := lowers_of_ofArgs? given
  have inside : position < kinds.length := by
    rw [lengths]
    exact (List.getElem?_eq_some_iff.1 passed).1
  have all : (kinds.zip args).map (·.1) = kinds := List.map_fst_zip (Nat.le_of_eq lengths)
  cases kind : kinds[position]? with
  | none => simp [inside] at kind
  | some found =>
    have zipped : (kinds.zip args)[position]? = some (found, .list address) :=
      List.getElem?_zip_eq_some.2 ⟨kind, passed⟩
    cases found with
    | scalar type => exact absurd zipped lowers.scalars
    | array element =>
      obtain ⟨_, before, same, list, own, encodes⟩ := lowers.listed zipped
      cases same
      rw [all] at list own
      exact ⟨element, before, rfl, list, own, encodes⟩

section

variable (built : (build settings program candidate kinds).decision = .compiled artifact)

include built

variable (listed : ∃ info, program.function? candidate.name = some info ∧
  info.definition = candidate.definition) (placed : Eligibility.JumpsPlaced program)

include listed placed

theorem purity_of_compiled (stored : position ∈ artifact.storedParams) :
    artifact.purity = .mutatesContainer := by
  obtain ⟨body, eligible, -, purity, params⟩ := eligible_of_compiled built
  rw [params] at stored
  rw [purity]
  exact Passes.purity_of_mem_storedParams settings eligible listed placed stored

theorem stores_of_compiled (lowered : Lowered) (arrays : List (Array UInt64)) :
    (if artifact.isStoring then lowered.stores artifact.storedParams arrays else []) =
      lowered.stores artifact.storedParams arrays := by
  split
  · rfl
  · rename_i silent
    refine (List.eq_nil_iff_forall_not_mem.2 ?_).symm
    rintro ⟨list, buffer⟩ member
    have stored := (mem_stores.1 member).2
    exact silent (decide_eq_true (purity_of_compiled built listed placed stored))

/-- Writing the buffers back gives the lists what compiled code left in them, and changes no other
object. -/
theorem reflects_writeBack (owned : ∀ address, Value.list address ∈ args →
      ∃ items, heap.objects[address]? = some (.list items))
    (given : Lowered.ofArgs? heap artifact.code.argKinds args = some lowered)
    {limits : Native.Limits} {left : UInt32}
    (ran : artifact.code.invoke limits depth lowered.frame = .ok (.returned bits arrays left)) :
    Reflects artifact args lowered.frame.arrays arrays heap
      (writeBack heap (lowered.stores artifact.storedParams arrays)) := by
  obtain ⟨-, lowers⟩ := lowers_of_ofArgs? given
  obtain ⟨body, -, code, -, params⟩ := eligible_of_compiled built
  have known : artifact.storedParams = artifact.code.body.storedParams := by rw [code, params]
  constructor
  · intro position address passed
    obtain ⟨element, before, kind, list, own, encodes⟩ := listed_of_lowered given passed
    obtain ⟨buffer, found, size, kept⟩ := Native.Code.buffer_of_returned ran kind own
    obtain ⟨items, held⟩ := owned address (List.mem_of_getElem? passed)
    have same : heap.items address = items := by rw [Heap.items, held]
    rw [same] at encodes
    have unchanged (outside : position ∉ artifact.storedParams) : buffer = before :=
      (kept (known ▸ outside)).trans encodes.patterns
    refine ⟨element, before, buffer, kind, own, found, ?_, ?_, fun changed => ?_⟩
    · rw [encodes.decoded, held]
    · by_cases stored : position ∈ artifact.storedParams
      · have among := mem_stores.2 ⟨⟨_, list, found⟩, stored⟩
        have sizes : buffer.size = items.size := by
          rw [size, ← encodes.decoded, decoded, Array.size_map]
        rw [getElem?_writeBack_of_mem (nodup_stores lowers.distinct _ _) among held,
          refreshed_eq_decoded sizes encodes.element]
      · rw [unchanged stored, encodes.decoded, ← held]
        refine getElem?_writeBack_of_ne ?_
        rintro ⟨other, written⟩ member rfl
        obtain ⟨⟨index, present, -⟩, place⟩ := mem_stores.1 member
        have alike := List.inj_on_of_nodup_map lowers.distinct (List.mem_of_getElem? present)
          (List.mem_of_getElem? list) rfl
        have here : other.position = position := congrArg LoweredList.position alike
        exact stored (here ▸ place)
    · have stored : position ∈ artifact.storedParams := not_imp_comm.1 unchanged changed
      exact ⟨stored, purity_of_compiled built listed placed stored⟩
  · intro address absent
    refine getElem?_writeBack_of_ne ?_
    rintro ⟨list, buffer⟩ member rfl
    obtain ⟨⟨index, present, -⟩, -⟩ := mem_stores.1 member
    have origin := lowers.origin (List.mem_of_getElem? present)
    exact absent (List.mem_of_getElem? (List.getElem?_zip_eq_some.1 origin).2)

end

def depthAt (settings : Settings) (remaining : Nat) : UInt32 :=
  UInt32.ofNat (settings.maxRecursionDepth - remaining)

variable {entry : Entry}

/-- An attempt ends as the code does: no answer depends on what is known to be left. -/
theorem attempt_eq_conclude (compiled : entry.decision = .compiled artifact)
    (given : Lowered.ofArgs? heap artifact.code.argKinds args = some lowered) :
    artifact.attempt settings entry.retreats depth args heap =
      artifact.conclude args lowered (artifact.code.invoke (limitsOf settings
        settings.maxRecursionDepth) depth lowered.frame) := by
  have same := Native.anticipate_eq (limitsOf settings settings.maxRecursionDepth)
    (Native.frameCount (limitsOf settings settings.maxRecursionDepth) depth)
    fun retreat first => entry.sure artifact compiled retreat (List.mem_of_head? first)
  simp only [Artifact.attempt, given, same, Native.Code.invoke]

theorem attempt_eq_answered (compiled : entry.decision = .compiled artifact)
    (answered : artifact.attempt settings entry.retreats depth args heap =
      .answered value stores) :
    ∃ lowered bits arrays left,
      Lowered.ofArgs? heap artifact.code.argKinds args = some lowered ∧
      artifact.code.invoke (limitsOf settings settings.maxRecursionDepth) depth lowered.frame =
        .ok (.returned bits arrays left) ∧
      value = resultValue artifact.code.result bits args ∧
      stores = if artifact.isStoring then lowered.stores artifact.storedParams arrays else [] := by
  cases given : Lowered.ofArgs? heap artifact.code.argKinds args with
  | none => simp [Artifact.attempt, given] at answered
  | some lowered =>
    rw [attempt_eq_conclude compiled given] at answered
    unfold Artifact.conclude at answered
    split at answered
    · rename_i bits arrays left ran
      cases answered
      exact ⟨lowered, bits, arrays, left, rfl, ran, rfl, rfl⟩
    all_goals cases answered

variable {registry : Registry} {id : FunctionId}
  {interpret : String → List Value → Run (World Registry) Value} {remaining : Nat}
  {globals : Table Value} {output : String}

section

variable (found : registry.entry? id = some entry) (compiled : entry.decision = .compiled artifact)

include found compiled

theorem callEntry_of_answered
    (answered : artifact.attempt registry.settings entry.retreats (depthAt registry.settings
      remaining) args heap = .answered value stores) :
    ∃ called, callEntry program remaining interpret id args ⟨heap, globals, output, registry⟩ =
      .ok value ⟨writeBack heap stores, globals, output, called⟩ := by
  unfold callEntry
  dsimp only
  rw [found]
  dsimp only
  rw [compiled]
  dsimp only
  split
  all_goals
    rename_i outcome
    cases outcome.symm.trans answered
  exact ⟨_, rfl⟩

theorem callEntry_of_unanswered
    (unanswered : ∀ value stores, artifact.attempt registry.settings entry.retreats
      (depthAt registry.settings remaining) args heap ≠ .answered value stores)
    (finished : artifact.attempt registry.settings entry.retreats
      (depthAt registry.settings remaining) args heap ≠ .exhausted) :
    ∃ called, callEntry program remaining interpret id args ⟨heap, globals, output, registry⟩ =
      interpret entry.name args ⟨heap, globals, output, called⟩ := by
  unfold callEntry
  dsimp only
  rw [found]
  dsimp only
  rw [compiled]
  dsimp only
  split
  · rename_i value stores answered
    exact absurd answered (unanswered value stores)
  · exact ⟨_, rfl⟩
  · exact ⟨_, rfl⟩
  · rename_i exhausted
    exact absurd exhausted finished

end

end Calls

/-- A call that compiled code answers leaves each list argument with what its buffer was left with,
and nothing else changed; a buffer can differ from what was passed in only where the code is known
to store, and then the code says that it mutates a container. A call that compiled code does not
answer is interpreted on the heap as it was. -/
theorem callEntry_writesBack {source : String} {module : Surface.Module} {settings : Settings}
    {candidate : Candidate} {kinds : List Kind} {artifact : Artifact}
    (read : Surface.readModule source = .ok module)
    (built : (build settings (Program.ofModule module) candidate kinds).decision =
      .compiled artifact)
    (listed : ∃ info, (Program.ofModule module).function? candidate.name = some info ∧
      info.definition = candidate.definition)
    {registry : Registry} {id : FunctionId} {entry : Entry}
    (found : registry.entry? id = some entry) (compiled : entry.decision = .compiled artifact)
    {args : List Value} {heap : Heap} (owned : ∀ address, Value.list address ∈ args →
      ∃ items, heap.objects[address]? = some (.list items))
    (program : Program) (remaining : Nat)
    (interpret : String → List Value → Run (World Registry) Value) (globals : Table Value)
    (output : String) :
    (∀ {value stores},
      artifact.attempt registry.settings entry.retreats (depthAt registry.settings remaining) args
          heap = .answered value stores →
        ∃ lowered bits arrays left after called,
          Lowered.ofArgs? heap artifact.code.argKinds args = some lowered ∧
          artifact.code.invoke (limitsOf registry.settings registry.settings.maxRecursionDepth)
              (depthAt registry.settings remaining) lowered.frame =
            .ok (.returned bits arrays left) ∧
          callEntry program remaining interpret id args ⟨heap, globals, output, registry⟩ =
            .ok (resultValue artifact.code.result bits args) ⟨after, globals, output, called⟩ ∧
          Reflects artifact args lowered.frame.arrays arrays heap after) ∧
    ((∀ value stores,
      artifact.attempt registry.settings entry.retreats (depthAt registry.settings remaining) args
          heap ≠ .answered value stores) →
      artifact.attempt registry.settings entry.retreats (depthAt registry.settings remaining) args
          heap ≠ .exhausted →
        ∃ called, callEntry program remaining interpret id args ⟨heap, globals, output, registry⟩ =
          interpret entry.name args ⟨heap, globals, output, called⟩) := by
  have placed : Eligibility.JumpsPlaced (Program.ofModule module) :=
    Eligibility.jumpsPlaced_of_readModule read
  refine ⟨fun answered => ?_, callEntry_of_unanswered found compiled⟩
  obtain ⟨lowered, bits, arrays, left, given, ran, rfl, rfl⟩ :=
    attempt_eq_answered compiled answered
  rw [stores_of_compiled built listed placed] at answered
  obtain ⟨called, outcome⟩ := callEntry_of_answered found compiled answered
  exact ⟨lowered, bits, arrays, left, _, called, given, ran, outcome,
    reflects_writeBack built listed placed owned given ran⟩

/-- Doubles a list into another one, one element in a call of its own, with a sum. -/
def doubledSource : String :=
  "def put(b: list[int], i: int, x: int):\n    b[i] = x * 2\n\n" ++
  "def f(a: list[int], b: list[int]):\n    s = 0\n    for i in range(len(a)):\n" ++
  "        put(b, i, a[i])\n        s = s + a[i]\n    return s\n"

def doubledKinds : List Kind := [.array .int, .array .int]

def doubledArgs : List Value := [.list 2, .list 0]

def doubledHeap : Heap :=
  ⟨#[.list #[.int 0, .int 0], .tuple #[.int 7], .list #[.int 3, .int (-4)]]⟩

/-- A registry of one function that is compiled. -/
def registryOf (candidate : Candidate) (artifact : Artifact) : Registry :=
  { settings := {}, entries := #[(Entry.first candidate).decided (.compiled artifact)] }

def Attempt.isAnswered : Attempt → Bool
  | .answered _ _ => true
  | _ => false

theorem Attempt.eq_answered {attempt : Attempt} (answered : attempt.isAnswered = true) :
    ∃ value stores, attempt = .answered value stores := by
  cases attempt with
  | answered value stores => exact ⟨value, stores, rfl⟩
  | _ => cases answered

theorem Decision.eq_compiled {decision : Decision} (compiled : decision.artifact? = some artifact) :
    decision = .compiled artifact := by
  cases decision with
  | compiled => cases compiled; rfl
  | _ => cases compiled

theorem callEntry_writesBack_doubled :
    ∃ sample artifact, Eligibility.sample? doubledSource "f" doubledKinds = some sample ∧
      (build {} sample.program sample.candidate doubledKinds).decision = .compiled artifact ∧
      ∀ interpret, ∃ lowered bits arrays left after called,
        Lowered.ofArgs? doubledHeap artifact.code.argKinds doubledArgs = some lowered ∧
        artifact.code.invoke (limitsOf {} 1000) (depthAt {} 1000) lowered.frame =
          .ok (.returned bits arrays left) ∧
        callEntry sample.program 1000 interpret 0 doubledArgs
            ⟨doubledHeap, [], "", registryOf sample.candidate artifact⟩ =
          .ok (resultValue artifact.code.result bits doubledArgs) ⟨after, [], "", called⟩ ∧
        Reflects artifact doubledArgs lowered.frame.arrays arrays doubledHeap after := by
  have evaluated : ((Eligibility.sample? doubledSource "f" doubledKinds).any fun sample =>
      ((build {} sample.program sample.candidate doubledKinds).decision.artifact?).any
        fun artifact => (artifact.attempt {} [] (depthAt {} 1000) doubledArgs
          doubledHeap).isAnswered) = true := by
    decide +kernel
  obtain ⟨sample, found, evaluated⟩ := (Option.any_eq_true _ _).1 evaluated
  obtain ⟨artifact, compiled, answers⟩ := (Option.any_eq_true _ _).1 evaluated
  obtain ⟨value, stores, answered⟩ := Attempt.eq_answered answers
  have built := Decision.eq_compiled compiled
  obtain ⟨module, read, same⟩ := Eligibility.read_of_sample? found
  obtain ⟨-, listed⟩ := Eligibility.eligible_of_sample? found
  refine ⟨sample, artifact, found, built, fun interpret => ?_⟩
  have owned (address : Interp.Address) (member : Value.list address ∈ doubledArgs) :
      ∃ items, doubledHeap.objects[address]? = some (.list items) := by
    simp only [doubledArgs, List.mem_cons, Value.list.injEq, List.not_mem_nil, or_false] at member
    rcases member with rfl | rfl
    · exact ⟨_, rfl⟩
    · exact ⟨_, rfl⟩
  rw [same] at built listed
  have present : Registry.entry? (registryOf sample.candidate artifact) 0 =
      some ((Entry.first sample.candidate).decided (.compiled artifact)) := rfl
  exact (callEntry_writesBack read built listed present rfl owned sample.program 1000 interpret []
    "").1 answered

/-- The sum of what a recursive reader and a writer of the same list give. -/
def readThenBumpSource : String :=
  "def bump(a: list[int]):\n    a[0] = a[0] + 1\n    return a[0]\n\n" ++
  "def peek(a: list[int], n: int):\n    if n <= 0:\n        return a[0]\n" ++
  "    return peek(a, n - 1)\n\n" ++
  "def f(a: list[int]):\n    return peek(a, 1) * 10 + bump(a)\n"

def eager : Settings := { backgroundCompile := false, executionOverride := some .compileAll }

def answersInt {σ : Type} (value : Int64) : Interp.Result σ Value → Bool
  | .ok (.int answer) _ => answer = value
  | _ => false

/-- The writer is expanded in front of the whole sum, so in compiled code the reader sees the list
as it is after the update. -/
theorem call_differs_readThenBump :
    ∃ engine session, Engine.start readThenBumpSource eager = .ok engine ∧
      Session.start readThenBumpSource eager.maxRecursionDepth = .ok session ∧
      answersInt 22 (engine.calls.function "f" [.list 0]
        { engine.world with heap := ⟨#[.list #[.int 1]]⟩ }) = true ∧
      answersInt 12 (session.calls.function "f" [.list 0]
        { session.world with heap := ⟨#[.list #[.int 1]]⟩ }) = true := by
  have dispatched : (Engine.start readThenBumpSource eager).toOption.any (fun engine =>
      answersInt 22 (engine.calls.function "f" [.list 0]
        { engine.world with heap := ⟨#[.list #[.int 1]]⟩ })) = true := by decide +kernel
  have interpreted : (Session.start readThenBumpSource eager.maxRecursionDepth).toOption.any
      (fun session => answersInt 12 (session.calls.function "f" [.list 0]
        { session.world with heap := ⟨#[.list #[.int 1]]⟩ })) = true := by decide +kernel
  obtain ⟨engine, started, bumped⟩ := (Option.any_eq_true _ _).1 dispatched
  obtain ⟨session, opened, kept⟩ := (Option.any_eq_true _ _).1 interpreted
  exact ⟨engine, session, eq_ok_of_toOption started, eq_ok_of_toOption opened, bumped, kept⟩

end Dispatch

end TwoTier
