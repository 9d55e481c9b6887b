import TwoTier.Typed.Body

namespace TwoTier.Passes

inductive Pass where
  | fold | inline | normalize | licm | parallel | simd | hot
deriving DecidableEq, Repr

def Pass.name : Pass → String
  | fold => "fold"
  | inline => "inline"
  | normalize => "normalize"
  | licm => "licm"
  | parallel => "parallel"
  | simd => "simd"
  | hot => "hot"

structure Notes where
  applied : List String := []
  skipped : List String := []
deriving DecidableEq, Repr

namespace Notes

instance : Append Notes := ⟨fun a b => ⟨a.applied ++ b.applied, a.skipped ++ b.skipped⟩⟩

def applying (what : String) : Notes := { applied := [what] }

def skipping (why : String) : Notes := { skipped := [why] }

def isEmpty (notes : Notes) : Bool := notes.applied.isEmpty && notes.skipped.isEmpty

end Notes

/-- The notes of one pass over one routine; each reason is kept once. -/
structure PassReport where
  pass : Pass
  routine : String
  applied : List String
  skipped : List String
deriving DecidableEq, Repr

def PassReport.summary (report : PassReport) : String :=
  report.pass.name ++ " on " ++ report.routine ++ ": " ++ toString report.applied.length ++
    " applied, " ++ toString report.skipped.length ++ " skipped"

structure Report where
  passes : List PassReport := []
  /-- the body was too large for the costly passes -/
  overBudget : Bool := false
deriving DecidableEq, Repr

def Report.record (report : Report) (pass : Pass) (routine : String) (notes : Notes) : Report :=
  if notes.isEmpty then report
  else
    { report with
      passes := report.passes ++ [⟨pass, routine, notes.applied, notes.skipped.eraseDups⟩] }

end TwoTier.Passes
