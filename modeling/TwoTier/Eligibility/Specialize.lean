import TwoTier.Candidate
import TwoTier.Eligibility.Screen
import TwoTier.Eligibility.StmtTyping

/-! Specialization of a function with all that it calls, under assumptions on its own result. -/

namespace TwoTier.Eligibility

open Interp (Program)

open Surface (FunctionDef)

open Typed (Body Routine RoutineIndex)

/-- The results that are assumed in turn for a function that calls itself. -/
def assumedResults : List ReturnKind := [.scalar .int, .scalar .float, .scalar .bool, .nothing]

/-- Types the specialization at a place under one assumption after the other. An outcome stands if
nothing relied on the assumption, or if the result agrees with it. -/
def settle (index : RoutineIndex) (attempt : Attempt Closure Routine) (undecided : Refusal) :
    List ReturnKind → Option Refusal → Attempt Closure (RoutineIndex × ReturnKind)
  | [], first => fun closure => .refused (first.getD undecided) (closure.truncate index)
  | assumed :: others, first => fun closure =>
    match attempt (closure.setProgress index (.assumed assumed false)) with
    | .ok routine closure =>
      if !closure.isUsed index || routine.result = assumed then
        .ok (index, routine.result) (closure.setProgress index (.settled routine))
      else settle index attempt undecided others first (closure.truncate (index + 1))
    | .refused refusal closure =>
      if closure.isUsed index then
        settle index attempt undecided others (first.or (some refusal))
          (closure.truncate (index + 1))
      else .refused refusal (closure.truncate index)
    | .exhausted => .exhausted

def build (subject : Subject) (definition : FunctionDef) (kinds : List Kind)
    (directives : DirectiveSet) : Attempt Closure (RoutineIndex × ReturnKind) := fun closure =>
  let index := closure.entries.length
  let name := subject.function
  settle index (subject.typeFunction definition kinds directives)
    (.inconsistent name "inconsistent return type: the recursive result has no consistent type"
      definition.span)
    assumedResults none (closure.enter name kinds)

def missingArguments (name : String) (params given : Nat) (span : Span) : Refusal :=
  .unsupported name "call with missing arguments"
    (toString params ++ " parameters, " ++ toString given ++ " arguments") span

/-- A function that may be specialized for so many arguments, with its directives. -/
def compilable (program : Program) (name : String) (given : Nat) (span : Span) :
    Except Refusal (FunctionDef × DirectiveSet) :=
  match program.function? name with
  | none => .error (.unsupported name "unknown function" "not a module-level function" span)
  | some ⟨definition, _, _⟩ =>
    let directives := (Guidance.ofText definition.documentation).directives
    if definition.params.length ≠ given then
      .error (missingArguments name definition.params.length given span)
    else if !directives.shouldCompile then
      .error (.unsupported name "no-compile function" "directive opt-out" definition.span)
    else
      match screen? definition with
      | some refusal => .error refusal
      | none => .ok (definition, directives)

/-- The specialization of a function and its result, typed on first request. One that is still
under way answers with the result assumed for it. The fuel bounds how deep specializations nest. -/
def specialize (program : Program) :
    Nat → String → List Kind → Span → Attempt Closure (RoutineIndex × ReturnKind)
  | fuel, name, kinds, span => fun closure =>
    match closure.find? name kinds with
    | some (index, .settled routine) => .ok (index, routine.result) closure
    | some (index, .assumed result _) =>
      .ok (index, result) (closure.setProgress index (.assumed result true))
    | none =>
      match compilable program name kinds.length span with
      | .error refusal => .refused refusal closure
      | .ok (definition, directives) =>
        match fuel with
        | 0 => .exhausted
        | fuel + 1 =>
          build ⟨program, name, specialize program fuel⟩ definition kinds directives closure

def kindCount : Nat := 6

/-- How many specializations a program has. Those under way are distinct, so they nest no deeper. -/
def keyCount (program : Program) : Nat :=
  (program.functions.map fun (_, info) =>
    Nat.pow kindCount info.definition.params.length).foldl (· + ·) 0

def specializeRoot (program : Program) (candidate : Candidate) (kinds : List Kind) :
    Attempt Closure (RoutineIndex × ReturnKind) :=
  if candidate.arity = kinds.length then
    build ⟨program, candidate.name, specialize program (keyCount program)⟩ candidate.definition
      kinds candidate.directives
  else
    Attempt.refuse (missingArguments candidate.name candidate.arity kinds.length
      candidate.definition.span)

/-- The routines of a closure, if all of them are settled. -/
def Closure.body? (closure : Closure) : Option Body :=
  (closure.entries.mapM fun (entry : Entry) =>
    match entry.progress with
    | .settled routine => some routine
    | .assumed _ _ => none).map Body.mk

end TwoTier.Eligibility
