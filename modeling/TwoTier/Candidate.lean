import TwoTier.Digest.Sha256
import TwoTier.Directive
import TwoTier.Surface.Binding
import TwoTier.Typed.Kind

/-! Function definitions prepared for compilation. -/

namespace TwoTier

open Surface (Expr FunctionDef Stmt)

def declaredKind? : Option Expr → Option Kind
  | some (.name _ "int") => some (.scalar .int)
  | some (.name _ "float") => some (.scalar .float)
  | some (.name _ "bool") => some (.scalar .bool)
  | some (.subscript _ value index) =>
    match value.name?, index.name? with
    | some "list", some "int" | some "List", some "int" => some (.array .int)
    | some "list", some "float" | some "List", some "float" => some (.array .float)
    | _, _ => none
  | _ => none

structure Candidate where
  definition : FunctionDef
  guidance : Guidance
  digest : String

namespace Candidate

def ofDefinition (definition : FunctionDef) : Candidate :=
  { definition
    guidance := Guidance.ofText definition.documentation
    digest := Sha256.ofText definition.source }

def name (candidate : Candidate) : String := candidate.definition.name.name

def directives (candidate : Candidate) : DirectiveSet := candidate.guidance.directives

def arity (candidate : Candidate) : Nat := candidate.definition.params.length

/-- Names passed as they are to the range of a loop of the body. -/
def rangeArguments (candidate : Candidate) : List String :=
  (Stmt.withinAll candidate.definition.body).flatMap fun
    | .forLoop _ _ (.call _ func args _) _ =>
      if func.name? = some "range" then args.filterMap (·.name?) else []
    | _ => []

/-- The kinds of all parameters as known without a call. -/
def staticKinds? (candidate : Candidate) : Option (List Kind) :=
  let counted := candidate.rangeArguments
  candidate.definition.params.mapM fun param =>
    (declaredKind? param.annotation).or
      (if param.name.name ∈ counted then some (.scalar .int) else none)

end Candidate
end TwoTier
