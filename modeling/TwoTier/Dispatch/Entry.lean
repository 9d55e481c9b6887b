import TwoTier.Dispatch.Tally
import TwoTier.Candidate
import TwoTier.Eligibility.Refusal
import TwoTier.Native.Retreat
import TwoTier.Passes.Report

namespace TwoTier.Dispatch

open Eligibility (Refusal Rejection)

open Typed (Purity)

/-- The names that a decision was derived from. -/
structure Basis where
  /-- functions, sorted -/
  dependencies : List String := []
  /-- constants of the module, sorted -/
  globals : List String := []
deriving DecidableEq, Repr, Inhabited

def Basis.mentions (basis : Basis) (name : String) : Bool :=
  basis.dependencies.contains name || basis.globals.contains name

structure Artifact where
  name : String
  directives : DirectiveSet
  purity : Purity
  /-- positions of the array parameters that the code may store into -/
  storedParams : List Nat
  code : Native.Code
  report : Passes.Report
  basis : Basis

inductive FallbackReason where
  | rejected (rejection : Rejection)
  | compileFailed (refusal : Refusal)
  | removed
deriving DecidableEq, Repr

def FallbackReason.message : FallbackReason → String
  | rejected rejection => "rejected: " ++ rejection.message
  | compileFailed refusal => "compile failed: " ++ refusal.message
  | removed => "removed from the program"

/-- Where a generation stands. The last two are final. -/
inductive Decision where
  | undecided
  /-- claimed for compilation -/
  | pending
  | compiled (artifact : Artifact)
  | fallback (reason : FallbackReason) (basis : Basis)

namespace Decision

def name : Decision → String
  | undecided => "unanalyzed"
  | pending => "eligible_pending"
  | compiled _ => "compiled"
  | fallback _ _ => "fallback"

def isUndecided : Decision → Bool
  | undecided => true
  | _ => false

def isFinal : Decision → Bool
  | compiled _ | fallback _ _ => true
  | _ => false

def artifact? : Decision → Option Artifact
  | compiled artifact => some artifact
  | _ => none

def basis : Decision → Basis
  | compiled artifact => artifact.basis
  | fallback _ basis => basis
  | _ => {}

end Decision

structure Entry where
  candidate : Candidate
  generation : Nat
  decision : Decision
  /-- kept from one generation to the next -/
  tally : Tally
  /-- the calls inside the last one that was left, outermost first -/
  retreats : List Native.Retreat := []
  sure : ∀ artifact, decision = .compiled artifact →
    ∀ retreat ∈ retreats, retreat.Sure artifact.code.body := by simp

namespace Entry

def first (candidate : Candidate) : Entry :=
  { candidate, generation := 0, decision := .undecided, tally := {} }

/-- The next generation, for which nothing is decided yet. -/
def renewed (entry : Entry) (candidate : Candidate) : Entry :=
  { candidate, generation := entry.generation + 1, decision := .undecided, tally := entry.tally }

def name (entry : Entry) : String := entry.candidate.name

/-- Whether a change of this name concerns the entry. -/
def dependsOn (entry : Entry) (name : String) : Bool :=
  entry.name == name || entry.decision.basis.mentions name

def decided (entry : Entry) (decision : Decision) : Entry :=
  { entry with decision, retreats := [], sure := by simp }

/-- Takes the one chance of this generation to be compiled. -/
def claim? (entry : Entry) : Option Entry :=
  if entry.decision.isUndecided then some (entry.decided .pending) else none

/-- Settles a generation; a decision for another one, or after the final one, is dropped. -/
def settle (entry : Entry) (generation : Nat) (decision : Decision) : Entry :=
  if entry.generation = generation ∧ entry.decision.isFinal = false then entry.decided decision
  else entry

/-- Keeps which calls are sure to be left, after the code was left with these under way. -/
def remember (entry : Entry) (limits : Native.Limits) (calls : List Native.OpenCall) : Entry :=
  { entry with
    retreats :=
      match entry.decision with
      | .compiled artifact => Native.foresee artifact.code.body limits entry.retreats calls
      | _ => []
    sure := fun artifact compiled => by
      rw [compiled]
      exact Native.sure_foresee limits calls (entry.sure artifact compiled) }

end Entry
end TwoTier.Dispatch
