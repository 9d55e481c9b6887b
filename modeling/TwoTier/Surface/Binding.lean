import TwoTier.Surface.Stmt
import TwoTier.Text.Blank

namespace TwoTier.Surface

mutual

/-- A statement and the statements nested in it, in source order. -/
def Stmt.within (statement : Stmt) : List Stmt :=
  match statement with
  | .branch _ _ yes no => statement :: (Stmt.withinAll yes ++ Stmt.withinAll no)
  | .whileLoop _ _ body => statement :: Stmt.withinAll body
  | .forLoop _ _ _ body => statement :: Stmt.withinAll body
  | .attempt _ body handlers cleanup =>
    statement :: (Stmt.withinAll body ++ Stmt.withinHandlers handlers ++ Stmt.withinAll cleanup)
  | _ => [statement]

def Stmt.withinAll (body : List Stmt) : List Stmt :=
  match body with
  | [] => []
  | statement :: rest => Stmt.within statement ++ Stmt.withinAll rest

def Stmt.withinHandlers (handlers : List (HandlerOf Stmt)) : List Stmt :=
  match handlers with
  | [] => []
  | ⟨_, _, body, _⟩ :: rest => Stmt.withinAll body ++ Stmt.withinHandlers rest

end

mutual

/-- The names that a target binds; a subscript or a member binds none. -/
def Expr.targetNames (target : Expr) : List String :=
  match target with
  | .name _ text => [text]
  | .tuple _ items => Expr.targetNamesAll items
  | .list _ items => Expr.targetNamesAll items
  | _ => []

def Expr.targetNamesAll (targets : List Expr) : List String :=
  match targets with
  | [] => []
  | target :: rest => Expr.targetNames target ++ Expr.targetNamesAll rest

end

theorem Stmt.self_mem_within (stmt : Stmt) : stmt ∈ stmt.within := by
  cases stmt <;> simp [within]

def Stmt.boundNames : Stmt → List String
  | .assign _ targets _ => targets.flatMap (·.targetNames)
  | .update _ target _ _ => target.targetNames
  | .forLoop _ target _ _ => target.targetNames
  | .importNames _ names => names.map (·.boundName)
  | .importFrom _ _ names => names.map (·.boundName)
  | .define function => [function.name.name]
  | .attempt _ _ handlers _ => handlers.filterMap fun handler => handler.name.map (·.name)
  | _ => []

def assignedNames (body : List Stmt) : List String :=
  Text.sortedNames ((Stmt.withinAll body).flatMap (·.boundNames))

def globalNames (body : List Stmt) : List String :=
  Text.sortedNames ((Stmt.withinAll body).flatMap fun
    | .globals _ names => names.map (·.name)
    | _ => [])

end TwoTier.Surface
