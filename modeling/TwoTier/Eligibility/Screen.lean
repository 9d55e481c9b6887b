import TwoTier.Eligibility.Refusal
import TwoTier.Surface.Binding

namespace TwoTier.Eligibility

open Surface (CmpOp Expr FunctionDef Ident Stmt)

def unsupportedStmt? : Stmt → Option String
  | .attempt _ _ _ _ | .raise _ _ => some "exceptions are handled by the host"
  | .importNames _ _ | .importFrom _ _ _ => some "imports run in the host"
  | .globals _ _ | .nonlocals _ _ => some "rebinding outer names"
  | .define _ => some "closures are not compiled"
  | _ => none

def unsupportedExpr? : Expr → Option String
  | .member _ _ _ => some "attribute and method access need host objects"
  | .dict _ _ => some "mapping types are not compiled"
  | .list _ _ => some "only fixed-size array arguments are compiled"
  | .lambda _ _ _ => some "closures are not compiled"
  | .str _ _ => some "strings are not numeric"
  | _ => none

def screenedExprs : Stmt → List Expr
  | .expr _ value => [value]
  | .assign _ targets value => targets ++ [value]
  | .update _ target _ value => [target, value]
  | .giveBack _ (some value) => [value]
  | .branch _ cond _ _ | .whileLoop _ cond _ => [cond]
  | .forLoop _ target iter _ => [target, iter]
  | _ => []

mutual

/-- The first expression that is never compiled, outermost first and from left to right. -/
def firstUnsupported? (expr : Expr) : Option Expr :=
  if (unsupportedExpr? expr).isSome then some expr
  else
    match expr with
    | .binary _ _ left right => (firstUnsupported? left).or (firstUnsupported? right)
    | .boolOp _ _ left right => (firstUnsupported? left).or (firstUnsupported? right)
    | .unary _ _ operand => firstUnsupported? operand
    | .compare _ left rest => (firstUnsupported? left).or (firstInChain? rest)
    | .call _ func args keywords =>
      ((firstUnsupported? func).or (firstIn? args)).or (firstInKeywords? keywords)
    | .subscript _ value index => (firstUnsupported? value).or (firstUnsupported? index)
    | .tuple _ items => firstIn? items
    | .conditional _ cond yes no =>
      ((firstUnsupported? cond).or (firstUnsupported? yes)).or (firstUnsupported? no)
    | _ => Option.none

def firstIn? (exprs : List Expr) : Option Expr :=
  match exprs with
  | [] => Option.none
  | expr :: rest => (firstUnsupported? expr).or (firstIn? rest)

def firstInChain? (rest : List (CmpOp × Expr)) : Option Expr :=
  match rest with
  | [] => Option.none
  | (_, expr) :: rest => (firstUnsupported? expr).or (firstInChain? rest)

def firstInKeywords? (keywords : List (Ident × Expr)) : Option Expr :=
  match keywords with
  | [] => Option.none
  | (_, expr) :: rest => (firstUnsupported? expr).or (firstInKeywords? rest)

end

def screenStmt? (function : String) (stmt : Stmt) : Option Refusal :=
  match unsupportedStmt? stmt with
  | some reason => some (.unsupported function stmt.describe reason stmt.span)
  | none =>
    (screenedExprs stmt).findSome? fun expr =>
      (firstUnsupported? expr).bind fun found =>
        (unsupportedExpr? found).map fun reason =>
          .unsupported function found.describe reason found.span

/-- The first refusal in the body of a function, in source order. -/
def screen? (definition : FunctionDef) : Option Refusal :=
  (Stmt.withinAll definition.body).findSome? (screenStmt? definition.name.name)

end TwoTier.Eligibility
