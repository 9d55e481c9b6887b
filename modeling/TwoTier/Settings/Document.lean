import TwoTier.Settings.Basic
import TwoTier.Settings.Toml

namespace TwoTier.Settings

/-- A document that cannot be read, or one with a value out of bounds. -/
inductive ReadFault where
  | malformed
  | invalid (fault : SettingFault)

def natural? (limit : Nat) : Toml → Option Nat
  | .integer value => if 0 ≤ value ∧ value.toNat < limit then some value.toNat else none
  | _ => none

/-- An override by its name, or as a table whose only key is the name and holds nothing. -/
def override? : Toml → Option ExecutionOverride
  | .text name => ExecutionOverride.ofName? name
  | .table [(name, .emptyList)] => ExecutionOverride.ofName? name
  | .table [(name, .table [])] => ExecutionOverride.ofName? name
  | _ => none

def set? (settings : Settings) (key : String) (value : Toml) : Option Settings :=
  let number := natural? (Nat.pow 2 64) value
  match key with
  | "compile_workers" => number.map ({ settings with compileWorkers := · })
  | "background_compile" =>
    match value with
    | .boolean flag => some { settings with backgroundCompile := flag }
    | _ => none
  | "compile_threshold" => number.map ({ settings with compileThreshold := · })
  | "inline_node_threshold" => number.map ({ settings with inlineNodeThreshold := · })
  | "inline_directive_cap" => number.map ({ settings with inlineDirectiveCap := · })
  | "inline_depth" => number.map ({ settings with inlineDepth := · })
  | "compile_node_budget" => number.map ({ settings with compileNodeBudget := · })
  | "vector_width" => number.map ({ settings with vectorWidth := · })
  | "parallel_workers" => number.map ({ settings with parallelWorkers := · })
  | "min_chunk" => number.map ({ settings with minChunk := · })
  | "target_chunks" => number.map ({ settings with targetChunks := · })
  | "max_recursion_depth" =>
    (natural? (Nat.pow 2 32) value).map ({ settings with maxRecursionDepth := · })
  | "execution_override" => (override? value).map ({ settings with executionOverride := some · })
  | _ => none

def read (source : String) : Except ReadFault Settings :=
  let settings? : Option Settings := do
    (← Toml.read? source).foldlM (fun settings (key, value) => settings.set? key value) {}
  match settings? with
  | none => .error .malformed
  | some settings =>
    match settings.fault? with
    | some fault => .error (.invalid fault)
    | none => .ok settings

def fields (settings : Settings) : List (String × Toml) :=
  [("compile_workers", .integer settings.compileWorkers),
    ("background_compile", .boolean settings.backgroundCompile),
    ("compile_threshold", .integer settings.compileThreshold),
    ("inline_node_threshold", .integer settings.inlineNodeThreshold),
    ("inline_directive_cap", .integer settings.inlineDirectiveCap),
    ("inline_depth", .integer settings.inlineDepth),
    ("compile_node_budget", .integer settings.compileNodeBudget),
    ("vector_width", .integer settings.vectorWidth),
    ("parallel_workers", .integer settings.parallelWorkers),
    ("min_chunk", .integer settings.minChunk),
    ("target_chunks", .integer settings.targetChunks),
    ("max_recursion_depth", .integer settings.maxRecursionDepth)] ++
  (match settings.executionOverride with
    | none => []
    | some mode => [("execution_override", .text mode.name)])

/-- The text of a scalar; names of overrides need no escapes. -/
def scalarText : Toml → String
  | .text value => "\"" ++ value ++ "\""
  | .integer value => toString value
  | .boolean value => if value then "true" else "false"
  | .emptyList => "[]"
  | .table _ => "\x7b\x7d"

def text (settings : Settings) : String :=
  String.join (settings.fields.map fun (key, value) => key ++ " = " ++ scalarText value ++ "\n")

end TwoTier.Settings
