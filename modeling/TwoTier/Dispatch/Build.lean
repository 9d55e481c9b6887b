import TwoTier.Dispatch.Diagnostic
import TwoTier.Dispatch.Entry
import TwoTier.Eligibility.Analysis
import TwoTier.Passes.Pipeline

namespace TwoTier.Dispatch

open Interp (Program)

open Typed (Body)

structure Built where
  decision : Decision
  diagnostics : List Diagnostic

def Built.rejected (name : String) (basis : Basis) (rejection : Eligibility.Rejection) : Built :=
  ⟨.fallback (.rejected rejection) basis, [.ofRejection name rejection]⟩

/-- Optimizes an eligible body and generates its code. -/
def buildBody (settings : Settings) (candidate : Candidate) (basis : Basis) (body : Body) :
    Built :=
  let (report, body) := Passes.optimize settings body
  let noted := Diagnostic.ofReport report
  match Native.Code.generate body with
  | .ok code =>
    let artifact : Artifact :=
      { name := candidate.name, directives := candidate.directives, purity := body.purity
        storedParams := body.storedParams, code, report, basis }
    ⟨.compiled artifact, noted⟩
  | .error fault =>
    let refusal := Eligibility.Refusal.codegen candidate.name fault.message
    ⟨.fallback (.compileFailed refusal) basis,
      noted ++ [⟨candidate.name, .codegenFailed, refusal.message⟩]⟩

def build (settings : Settings) (program : Program) (candidate : Candidate) (kinds : List Kind) :
    Built :=
  let analysis := Eligibility.analyze program candidate kinds
  let basis : Basis := ⟨analysis.dependencies, analysis.globals⟩
  match analysis.verdict with
  | .rejected rejection => .rejected candidate.name basis rejection
  | .eligible body => buildBody settings candidate basis body

end TwoTier.Dispatch
