import TwoTier.Dispatch.Convention
import TwoTier.Dispatch.Registry
import TwoTier.Interp.Session

/-! The choice between compiled code and interpretation. Code that gives up leaves no trace. -/

namespace TwoTier.Dispatch

open Interp (Heap Program Route Run Value World)

open Native (Limits OpenCall Retreat)

def limitsOf (settings : Settings) (maxDepth : Nat) : Limits :=
  { maxDepth := UInt32.ofNat maxDepth
    leastChunk := Int64.ofNat (max settings.minChunk 1)
    targetChunks := Int64.ofNat (max settings.targetChunks 1)
    fuel := Interp.loopAllowance }

/-- How a call of compiled code ends for its caller. -/
inductive Attempt where
  | answered (value : Value) (stores : List (LoweredList × Array UInt64))
  /-- the code was left with these calls under way, outermost first -/
  | deoptimized (calls : List OpenCall)
  /-- the arguments are not such as the code was compiled for -/
  | declined
  | exhausted

def Artifact.isStoring (artifact : Artifact) : Bool := artifact.purity = .mutatesContainer

def Artifact.conclude (artifact : Artifact) (args : List Value) (lowered : Lowered) :
    Except Native.CodeFault Native.Completion → Attempt
  | .ok (.returned bits arrays _) =>
    .answered (resultValue artifact.code.result bits args)
      (if artifact.isStoring then lowered.stores artifact.storedParams arrays else [])
  | .ok (.deoptimized calls) => .deoptimized calls
  | .ok .exhausted => .exhausted
  | .ok .stuck | .error _ => .declined

/-- Tries compiled code on the arguments of a call, which is not run if it is known to be left. -/
def Artifact.attempt (artifact : Artifact) (settings : Settings) (known : List Retreat)
    (depth : UInt32) (args : List Value) (heap : Heap) : Attempt :=
  match Lowered.ofArgs? heap artifact.code.argKinds args with
  | none => .declined
  | some lowered =>
    let limits := limitsOf settings settings.maxRecursionDepth
    let frames := Native.frameCount limits depth
    let call := Native.anticipate artifact.code.body limits known.head? frames
    artifact.conclude args lowered (artifact.code.invokeBy call depth lowered.frame)

namespace Registry

/-- Asks for compilation after a call with these arguments, if it is time for that. -/
def scheduleAfter (registry : Registry) (program : Program) (id : FunctionId) (args : List Value)
    (heap : Heap) : Registry :=
  match registry.entry? id with
  | none => registry
  | some entry =>
    let due :=
      match registry.settings.executionOverride with
      | some .interpretAll => false
      | some .compileAll => true
      | none =>
        decide (registry.settings.compileThreshold ≤ entry.tally.calls) ||
          entry.candidate.directives.hot
    if due then
      match observedKinds? heap entry.candidate args with
      | some kinds => registry.schedule program id kinds
      | none => registry
    else registry

end Registry

/-- A call by number. A call that leads to compilation is itself interpreted. -/
def callEntry (program : Program) (remaining : Nat)
    (interpret : String → List Value → Run (World Registry) Value) (id : FunctionId)
    (args : List Value) : Run (World Registry) Value := fun ⟨heap, globals, output, registry⟩ =>
  match registry.entry? id with
  | none => .raised (.unknownName ("#" ++ toString id)) ⟨heap, globals, output, registry⟩
  | some entry =>
    let called := registry.count id .countCall
    let interpreted (registry : Registry) : Interp.Result (World Registry) Value :=
      interpret entry.name args ⟨heap, globals, output, registry.count id .countInterpreted⟩
    match entry.decision with
    | .undecided => interpreted (called.scheduleAfter program id args heap)
    | .pending | .fallback _ _ => interpreted called
    | .compiled artifact =>
      let depth := UInt32.ofNat (called.settings.maxRecursionDepth - remaining)
      match artifact.attempt called.settings entry.retreats depth args heap with
      | .answered value stores =>
        .ok value ⟨writeBack heap stores, globals, output, called.count id .countCompiled⟩
      | .deoptimized calls =>
        let limits := limitsOf called.settings called.settings.maxRecursionDepth
        interpreted ((called.count id .countDeopt).remember id limits calls)
      | .declined => interpreted called
      | .exhausted => .exhausted

/-- A call by name; a name that is not registered is left to the interpreter. -/
def route (program : Program) : Route Registry := fun remaining interpret name args world =>
  match world.tier.resolve? name with
  | some id => callEntry program remaining interpret id args world
  | none => interpret name args world

end TwoTier.Dispatch
