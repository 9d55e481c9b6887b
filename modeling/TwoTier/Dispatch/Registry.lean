import TwoTier.Dispatch.Build

/-! The functions of a program as the dispatcher knows them. A change starts a new generation of
everything whose decision was derived from it. -/

namespace TwoTier.Dispatch

open Interp (Program)

abbrev FunctionId := Nat

structure Job where
  id : FunctionId
  generation : Nat
  candidate : Candidate
  kinds : List Kind

def Job.isHot (job : Job) : Bool := job.candidate.directives.hot

/-- Puts a job behind those that go before it: hot ones before all others, and else in order. -/
def enqueue (job : Job) (queue : List Job) : List Job :=
  if job.isHot then queue.filter (·.isHot) ++ job :: queue.filter (!·.isHot)
  else queue ++ [job]

structure Registry where
  settings : Settings
  /-- by number, functions that were removed included -/
  entries : Array Entry := #[]
  /-- the functions that are called by name, in the order of their numbers -/
  names : Table FunctionId := []
  /-- compilations that wait for a worker -/
  queue : List Job := []
  /-- what was observed since this was last asked -/
  diagnostics : List Diagnostic := []

namespace Registry

variable (registry : Registry)

def entry? (id : FunctionId) : Option Entry := registry.entries[id]?

def resolve? (name : String) : Option FunctionId := registry.names.get? name

def functionNames : List String := registry.names.keys

def globalsInUse : List String :=
  Text.sortedNames (registry.entries.toList.flatMap (·.decision.basis.globals))

/-- The functions with at least so many calls, the most called first. -/
def hotFunctions (threshold : Nat) : List (String × Tally) :=
  let counted := registry.entries.toList.map fun entry => (entry.name, entry.tally)
  (counted.filter fun (_, tally) => decide (threshold ≤ tally.calls)).mergeSort
    fun (name, tally) (name', tally') =>
      tally.calls > tally'.calls || (tally.calls == tally'.calls && decide ¬ name' < name)

def report (diagnostics : List Diagnostic) : Registry :=
  { registry with diagnostics := registry.diagnostics ++ diagnostics }

def takeDiagnostics : List Diagnostic × Registry :=
  (registry.diagnostics, { registry with diagnostics := [] })

def modifyEntry (id : FunctionId) (change : Entry → Entry) : Registry :=
  { registry with entries := registry.entries.modify id change }

def count (id : FunctionId) (step : Tally → Tally) : Registry :=
  registry.modifyEntry id fun entry => { entry with tally := step entry.tally }

def remember (id : FunctionId) (limits : Native.Limits) (calls : List Native.OpenCall) : Registry :=
  registry.modifyEntry id (·.remember limits calls)

/-- Carries out a compilation. Its decision counts for the generation that it was asked for. -/
def finish (program : Program) (job : Job) : Registry :=
  let built := build registry.settings program job.candidate job.kinds
  let counted := registry.count job.id .countAttempt
  (counted.modifyEntry job.id (·.settle job.generation built.decision)).report built.diagnostics

def finishNext (program : Program) : Registry :=
  match registry.queue with
  | [] => registry
  | job :: queue => { registry with queue }.finish program job

def drain (program : Program) : Registry :=
  registry.queue.foldl (fun registry _ => registry.finishNext program) registry

/-- Has a function compiled, unless that was asked for in this generation before. -/
def schedule (program : Program) (id : FunctionId) (kinds : List Kind) : Registry :=
  match registry.entry? id with
  | none => registry
  | some entry =>
    match entry.claim? with
    | none => registry
    | some claimed =>
      let registry := registry.modifyEntry id fun _ => claimed
      let job : Job := ⟨id, entry.generation, entry.candidate, kinds⟩
      if registry.settings.backgroundCompile then
        { registry with queue := enqueue job registry.queue }
      else registry.finish program job

def reject (id : FunctionId) (entry : Entry) (rejection : Eligibility.Rejection) : Registry :=
  match entry.claim? with
  | none => registry
  | some claimed =>
    (registry.modifyEntry id fun _ =>
      claimed.settle claimed.generation (.fallback (.rejected rejection) {})).report
      [.ofRejection entry.name rejection]

/-- Takes the decisions that need no call: screening, and compilation ahead of calls. -/
def prepare (program : Program) (id : FunctionId) : Registry :=
  match registry.entry? id with
  | none => registry
  | some entry =>
    if registry.settings.executionOverride = some .interpretAll then registry
    else
      match Eligibility.screenCandidate? entry.candidate with
      | some rejection => registry.reject id entry rejection
      | none =>
        let eager := entry.candidate.directives.hot ||
          registry.settings.executionOverride == some .compileAll
        match entry.candidate.staticKinds? with
        | some kinds => if eager then registry.schedule program id kinds else registry
        | none => registry

/-- What is observed when a generation ends. -/
def endOfGeneration (entry : Entry) : List Diagnostic :=
  if entry.decision.isUndecided then []
  else
    [⟨entry.name, .invalidated,
      "generation " ++ toString entry.generation ++ " was " ++ entry.decision.name⟩]

def renew (id : FunctionId) (candidate : Candidate) : Registry :=
  match registry.entry? id with
  | none => registry
  | some entry =>
    (registry.modifyEntry id fun _ => entry.renewed candidate).report (endOfGeneration entry)

/-- Starts the next generation of a function whose own text is as it was. -/
def reset (program : Program) (id : FunctionId) (entry : Entry) : Registry :=
  (registry.renew id entry.candidate).prepare program id

/-- The entries that a change of this name concerns, but for one number. -/
def dependents (name : String) (skip : Option FunctionId) : List (FunctionId × Entry) :=
  (registry.entries.toList.zipIdx.map fun (entry, id) => (id, entry)).filter fun (id, entry) =>
    some id != skip && entry.dependsOn name

/-- Resets all that was derived from a name, and gives the names of what was reset. -/
def resetDependents (program : Program) (name : String) (skip : Option FunctionId) :
    List String × Registry :=
  let found := registry.dependents name skip
  (found.map fun (_, entry) => entry.name,
    found.foldl (fun registry (id, entry) => registry.reset program id entry) registry)

/-- Registers a function or a new version of one, and gives the names of what was reset. -/
def register (program : Program) (candidate : Candidate) :
    FunctionId × List String × Registry :=
  let name := candidate.name
  let registry := registry.report (Diagnostic.ofGuidance name candidate.guidance)
  match registry.resolve? name with
  | some id =>
    let (names, registry) :=
      (registry.renew id candidate).resetDependents program name (some id)
    (id, name :: names, registry.prepare program id)
  | none =>
    let id := registry.entries.size
    let registry := { registry with
      entries := registry.entries.push (.first candidate)
      names := registry.names.set name id }
    (id, [], registry.prepare program id)

/-- Resets a function or constant and all that was derived from it. -/
def invalidate (program : Program) (name : String) : List String × Registry :=
  match registry.resolve? name with
  | none => registry.resetDependents program name none
  | some id =>
    match registry.entry? id with
    | none => registry.resetDependents program name (some id)
    | some entry =>
      let (names, registry) :=
        (registry.reset program id entry).resetDependents program name (some id)
      (name :: names, registry)

/-- Forgets a name. Calls by number are interpreted from then on. -/
def remove (program : Program) (name : String) : List String × Registry :=
  match registry.resolve? name with
  | none => ([], registry)
  | some id =>
    let registry := { registry with names := registry.names.erase name }
    let registry :=
      match registry.entry? id with
      | none => registry
      | some entry =>
        (registry.renew id entry.candidate).modifyEntry id fun entry =>
          entry.settle entry.generation (.fallback .removed {})
    let (names, registry) := registry.resetDependents program name (some id)
    (name :: names, registry)

end Registry
end TwoTier.Dispatch
