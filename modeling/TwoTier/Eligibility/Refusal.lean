import TwoTier.Text.Span

namespace TwoTier.Eligibility

/-- Something that keeps a function, or what it calls, from being compiled. -/
inductive Refusal where
  /-- a construct that has no typed form -/
  | unsupported (function construct reason : String) (span : Span)
  /-- types that disagree across branches, assignments or returns -/
  | inconsistent (function reason : String) (span : Span)
  /-- no machine code for an otherwise eligible body -/
  | codegen (function reason : String)
  /-- directives that cannot be honoured together -/
  | conflict (function reason : String)
deriving DecidableEq, Repr

namespace Refusal

def category : Refusal → String
  | unsupported _ _ _ _ => "UnsupportedConstruct"
  | inconsistent _ _ _ => "InconsistentType"
  | codegen _ _ => "CodegenLimitation"
  | conflict _ _ => "DirectiveConflict"

def function : Refusal → String
  | unsupported function _ _ _ | inconsistent function _ _ | codegen function _
  | conflict function _ => function

def construct? : Refusal → Option String
  | unsupported _ construct _ _ => some construct
  | _ => none

def span? : Refusal → Option Span
  | unsupported _ _ _ span | inconsistent _ _ span => some span
  | _ => none

def message : Refusal → String
  | unsupported function construct reason _ =>
    "unsupported construct in '" ++ function ++ "': " ++ construct ++ " (" ++ reason ++ ")"
  | inconsistent function reason _ => "inconsistent type in '" ++ function ++ "': " ++ reason
  | codegen function reason => "code generation failed for '" ++ function ++ "': " ++ reason
  | conflict function reason => "conflicting directives on '" ++ function ++ "': " ++ reason

end Refusal

inductive Rejection where
  /-- a directive asks for interpretation -/
  | optOut
  | refused (refusal : Refusal)
deriving DecidableEq, Repr

namespace Rejection

def refusal? : Rejection → Option Refusal
  | optOut => none
  | refused refusal => some refusal

def message : Rejection → String
  | optOut => "directive opt-out"
  | refused refusal => refusal.category ++ ": " ++ refusal.message

end Rejection
end TwoTier.Eligibility
