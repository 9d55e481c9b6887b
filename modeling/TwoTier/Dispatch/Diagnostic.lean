import TwoTier.Candidate
import TwoTier.Eligibility.Refusal
import TwoTier.Passes.Report

/-! Observations about functions. None of them is an error for a caller. -/

namespace TwoTier.Dispatch

open Eligibility (Refusal Rejection)

open Passes (PassReport Report)

inductive Topic where
  | rejected
  | directiveConflict
  | passSkipped
  | passApplied
  | codegenFailed
  | unknownDirective
  | invalidated
deriving DecidableEq, Repr

def Topic.name : Topic → String
  | rejected => "rejected"
  | directiveConflict => "directive_conflict"
  | passSkipped => "pass_skipped"
  | passApplied => "pass_applied"
  | codegenFailed => "codegen_failed"
  | unknownDirective => "unknown_directive"
  | invalidated => "invalidated"

structure Diagnostic where
  function : String
  topic : Topic
  message : String
deriving DecidableEq, Repr

namespace Diagnostic

def text (diagnostic : Diagnostic) : String :=
  "[" ++ diagnostic.topic.name ++ "] " ++ diagnostic.function ++ ": " ++ diagnostic.message

def ofRejection (function : String) (rejection : Rejection) : Diagnostic :=
  ⟨function, .rejected, rejection.message⟩

/-- The changes of a pass and then what it left alone. -/
def ofPass (report : PassReport) : List Diagnostic :=
  let noted (topic : Topic) (note : String) : Diagnostic :=
    ⟨report.routine, topic, report.pass.name ++ ": " ++ note⟩
  report.applied.map (noted .passApplied) ++ report.skipped.map (noted .passSkipped)

def ofReport (report : Report) : List Diagnostic := report.passes.flatMap ofPass

/-- What is odd about the directives of a function. -/
def ofGuidance (function : String) (guidance : Guidance) : List Diagnostic :=
  let unknown := guidance.unknown.map fun name =>
    (⟨function, .unknownDirective, "unknown directive '" ++ name ++ "' ignored"⟩ : Diagnostic)
  if guidance.hasConflict then
    let dropped := ", ".intercalate (guidance.overridden.map (·.name))
    let conflict := Refusal.conflict function ("no-compile overrides " ++ dropped)
    unknown ++ [⟨function, .directiveConflict, conflict.message⟩]
  else unknown

end Diagnostic
end TwoTier.Dispatch
