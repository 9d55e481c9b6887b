import TwoTier.Eligibility.Specialize
import TwoTier.Typed.Folding

namespace TwoTier.Eligibility

open Interp (Program)

open Typed (Body)

inductive Verdict where
  | eligible (body : Body)
  | rejected (rejection : Rejection)

structure Analysis where
  verdict : Verdict
  /-- functions that the verdict was derived from, the function itself included, sorted -/
  dependencies : List String
  /-- constants of the module that were read, sorted -/
  globals : List String

/-- What rejects a function without regard to the kinds of its arguments. -/
def screenCandidate? (candidate : Candidate) : Option Rejection :=
  if candidate.directives.shouldCompile then (screen? candidate.definition).map .refused
  else some .optOut

/-- A specialization was left open. -/
def neverCompleted (name : String) : Rejection :=
  .refused (.inconsistent name "specialization never completed" .synthetic)

def verdictOf (name : String) (closure : Closure) : Verdict :=
  match closure.body? with
  | some body => .eligible ⟨body.routines.map (·.folded.2)⟩
  | none => .rejected (neverCompleted name)

def analyze (program : Program) (candidate : Candidate) (kinds : List Kind) : Analysis :=
  match screenCandidate? candidate with
  | some rejection => ⟨.rejected rejection, [candidate.name], []⟩
  | none =>
    let report (verdict : Verdict) (closure : Closure) : Analysis :=
      ⟨verdict, Text.sortedNames (candidate.name :: closure.dependencies),
        Text.sortedNames closure.globals⟩
    match specializeRoot program candidate kinds {} with
    | .ok _ closure => report (verdictOf candidate.name closure) closure
    | .refused refusal closure => report (.rejected (.refused refusal)) closure
    | .exhausted => report (.rejected (neverCompleted candidate.name)) {}

end TwoTier.Eligibility
