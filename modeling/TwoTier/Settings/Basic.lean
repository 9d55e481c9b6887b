namespace TwoTier

/-- A decision for all functions that goes before their own directives. -/
inductive ExecutionOverride where
  | interpretAll
  | compileAll
deriving DecidableEq, Repr

def ExecutionOverride.name : ExecutionOverride → String
  | interpretAll => "interpret-all"
  | compileAll => "compile-all"

def ExecutionOverride.ofName? : String → Option ExecutionOverride
  | "interpret-all" => some interpretAll
  | "compile-all" => some compileAll
  | _ => none

structure Settings where
  compileWorkers : Nat := 2
  /-- compile in the background instead of in the call that asks for it -/
  backgroundCompile : Bool := true
  /-- calls before a function is compiled -/
  compileThreshold : Nat := 1
  /-- size up to which callees are expanded unasked -/
  inlineNodeThreshold : Nat := 20
  /-- size up to which callees are expanded by directive -/
  inlineDirectiveCap : Nat := 200
  /-- nesting of expanded bodies -/
  inlineDepth : Nat := 4
  /-- size beyond which the costly passes are skipped -/
  compileNodeBudget : Nat := 2000
  /-- lanes of a split loop -/
  vectorWidth : Nat := 4
  parallelWorkers : Nat := 0
  /-- least length of a chunk -/
  minChunk : Nat := 64
  /-- number of chunks of a long loop -/
  targetChunks : Nat := 64
  /-- call depth at which recursion stops -/
  maxRecursionDepth : Nat := 1000
  executionOverride : Option ExecutionOverride := none
deriving DecidableEq, Repr, Inhabited

structure SettingFault where
  field : String
  reason : String
deriving DecidableEq, Repr

def SettingFault.message (fault : SettingFault) : String :=
  "invalid value for '" ++ fault.field ++ "': " ++ fault.reason

namespace Settings

def fault? (settings : Settings) : Option SettingFault :=
  if settings.compileWorkers = 0 then
    some ⟨"compile_workers", "at least one compile worker is required"⟩
  else if settings.vectorWidth ∉ [1, 2, 4, 8, 16] then
    some ⟨"vector_width", "must be a power of two between 1 and 16"⟩
  else if settings.minChunk = 0 then some ⟨"min_chunk", "must be positive"⟩
  else if settings.targetChunks = 0 then some ⟨"target_chunks", "must be positive"⟩
  else if settings.maxRecursionDepth = 0 then some ⟨"max_recursion_depth", "must be positive"⟩
  else none

end Settings
end TwoTier
