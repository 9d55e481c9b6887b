import TwoTier.Surface.Expr

namespace TwoTier.Surface

structure Param where
  name : Ident
  annotation : Option Expr
  default : Option Expr
deriving Inhabited

/-- One imported name: the dotted path as written, and what it is called here. -/
structure ImportName where
  path : String
  renamed : Option Ident
  span : Span
deriving DecidableEq, Repr

/-- The name that an import binds: the new name, or the first part of the path. -/
def ImportName.boundName (imported : ImportName) : String :=
  match imported.renamed with
  | some ident => ident.name
  | none => String.ofList (imported.path.toList.takeWhile (· ≠ '.'))

/-- An exception handler around statements of type `stmt`; without a kind it catches all. -/
structure HandlerOf (stmt : Type) where
  kind : Option Expr
  name : Option Ident
  body : List stmt
  span : Span

/-- A function definition with a body of type `stmt`, from which the docstring is taken out. -/
structure FunctionOf (stmt : Type) where
  name : Ident
  params : List Param
  returns : Option Expr
  body : List stmt
  docstring : Option String
  /-- comments above the definition and above its first statement, without their marks -/
  leadingComments : List String
  source : String
  span : Span

inductive Stmt where
  | expr (span : Span) (value : Expr)
  | assign (span : Span) (targets : List Expr) (value : Expr)
  | update (span : Span) (target : Expr) (op : BinOp) (value : Expr)
  | giveBack (span : Span) (value : Option Expr)
  | branch (span : Span) (cond : Expr) (yes no : List Stmt)
  | whileLoop (span : Span) (cond : Expr) (body : List Stmt)
  | forLoop (span : Span) (target iter : Expr) (body : List Stmt)
  | leave (span : Span)
  | skip (span : Span)
  | pass (span : Span)
  | importNames (span : Span) (names : List ImportName)
  | importFrom (span : Span) (module : String) (names : List ImportName)
  | globals (span : Span) (names : List Ident)
  | nonlocals (span : Span) (names : List Ident)
  | attempt (span : Span) (body : List Stmt) (handlers : List (HandlerOf Stmt))
      (cleanup : List Stmt)
  | raise (span : Span) (value : Option Expr)
  | define (function : FunctionOf Stmt)

abbrev Handler := HandlerOf Stmt

abbrev FunctionDef := FunctionOf Stmt

namespace Stmt

def span : Stmt → Span
  | expr span _ | assign span _ _ | update span _ _ _ | giveBack span _ | branch span _ _ _
  | whileLoop span _ _ | forLoop span _ _ _ | leave span | skip span | pass span
  | importNames span _ | importFrom span _ _ | globals span _ | nonlocals span _
  | attempt span _ _ _ | raise span _ => span
  | define function => function.span

def describe : Stmt → String
  | expr _ _ => "expression statement"
  | assign _ _ _ => "assignment"
  | update _ _ _ _ => "augmented assignment"
  | giveBack _ _ => "return"
  | branch _ _ _ _ => "if statement"
  | whileLoop _ _ _ => "while loop"
  | forLoop _ _ _ _ => "for loop"
  | leave _ => "break"
  | skip _ => "continue"
  | pass _ => "pass"
  | importNames _ _ | importFrom _ _ _ => "import"
  | globals _ _ => "global declaration"
  | nonlocals _ _ => "nonlocal declaration"
  | attempt _ _ _ _ => "exception handling"
  | raise _ _ => "raise"
  | define _ => "nested function definition"

end Stmt

/-- The comments and the docstring of a definition, one item a line. -/
def FunctionOf.documentation {stmt : Type} (function : FunctionOf stmt) : String :=
  let comments := "\n".intercalate function.leadingComments
  match function.docstring with
  | none => comments
  | some text => if comments.isEmpty then text else comments ++ "\n" ++ text

def FunctionOf.paramNames {stmt : Type} (function : FunctionOf stmt) : List String :=
  function.params.map (·.name.name)

structure Module where
  body : List Stmt

def Module.functions (module : Module) : List FunctionDef :=
  module.body.filterMap fun
    | .define function => some function
    | _ => none

/-- A top-level definition by name; a later one hides an earlier one. -/
def Module.function? (module : Module) (name : String) : Option FunctionDef :=
  (module.functions.filter (·.name.name == name)).getLast?

end TwoTier.Surface
