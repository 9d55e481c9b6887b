import TwoTier.Interp.Value
import TwoTier.Surface.Binding

namespace TwoTier.Interp

open Surface (Expr FunctionDef Module Stmt)

structure FunctionInfo where
  definition : FunctionDef
  /-- names bound in the body and parameters, without those declared global -/
  localNames : List String
  globalNames : List String

def FunctionInfo.ofDefinition (definition : FunctionDef) : FunctionInfo :=
  let globalNames := Surface.globalNames definition.body
  let bound := Surface.assignedNames definition.body ++ definition.paramNames
  { definition, globalNames
    localNames := bound.filter fun name => !globalNames.contains name }

/-- The number that a literal, perhaps negated, stands for. -/
def numericLiteral? : Expr → Option Scalar
  | .int _ value => some (.int value)
  | .float _ value => some (.float value)
  | .bool _ value => some (.bool value)
  | .unary _ .neg operand =>
    match numericLiteral? operand with
    | some (.int value) => (Word.neg? value).map .int
    | some (.float value) => some (.float (-value))
    | _ => none
  | _ => none

/-- Names that assignments, updates and loops of the module body bind, with repetition. -/
def moduleBindings (module : Module) : List String :=
  (Stmt.withinAll module.body).flatMap fun
    | .assign _ targets _ => targets.flatMap (·.targetNames)
    | .update _ target _ _ => target.targetNames
    | .forLoop _ target _ _ => target.targetNames
    | _ => []

/-- Names bound once, by an assignment of a number at the top level, and never declared global. -/
def findConstants (module : Module) (declaredGlobal : List String) : Table Scalar :=
  let bindings := moduleBindings module
  let isConstant (name : String) : Bool := bindings.count name == 1 && !declaredGlobal.contains name
  module.body.foldl
    (fun constants statement =>
      match statement with
      | .assign _ targets value =>
        match numericLiteral? value with
        | none => constants
        | some number =>
          (targets.filterMap Expr.name?).foldl
            (fun constants name =>
              if isConstant name then constants.set name number else constants)
            constants
      | _ => constants)
    []

structure Program where
  module : Module
  functions : Table FunctionInfo
  constants : Table Scalar

namespace Program

def ofModule (module : Module) : Program :=
  let functions := module.functions.foldl
    (fun table definition =>
      Table.set definition.name.name (FunctionInfo.ofDefinition definition) table) []
  let declaredGlobal := module.functions.flatMap fun definition =>
    Surface.globalNames definition.body
  { module, functions, constants := findConstants module declaredGlobal }

def empty : Program := ofModule ⟨[]⟩

def function? (program : Program) (name : String) : Option FunctionInfo :=
  program.functions.get? name

def constant? (program : Program) (name : String) : Option Scalar := program.constants.get? name

def functionNames (program : Program) : List String := program.functions.keys

end Program
end TwoTier.Interp
