import TwoTier.Directive
import TwoTier.Typed.Stmt

/-! Routines are specialized functions; bodies are a routine with all that it can call. -/

namespace TwoTier.Typed

inductive Purity where
  | pure
  | readsGlobal
  | mutatesContainer
deriving DecidableEq, Repr, Inhabited

namespace Purity

def rank : Purity → Nat
  | pure => 0
  | readsGlobal => 1
  | mutatesContainer => 2

def join (a b : Purity) : Purity := if a.rank < b.rank then b else a

def name : Purity → String
  | pure => "pure"
  | readsGlobal => "reads_global"
  | mutatesContainer => "mutates_container"

end Purity

inductive LocalOrigin where
  | param (position : Nat)
  | user
  | temp
deriving DecidableEq, Repr

structure LocalDecl where
  name : String
  kind : Kind
  origin : LocalOrigin
deriving DecidableEq, Repr

instance : Inhabited LocalDecl := ⟨"", .scalar .int, .temp⟩

structure Routine where
  name : String
  argKinds : List Kind
  params : List LocalId
  locals : List LocalDecl
  body : List Stmt
  result : ReturnKind
  purity : Purity
  directives : DirectiveSet
  /-- constants of the module that the body has taken in -/
  globalsRead : List String
  /-- all labels of the body are below -/
  nextLabel : Label

instance : Inhabited Routine := ⟨"", [], [], [], [], .nothing, .pure, {}, [], 0⟩

namespace Routine

def decl (routine : Routine) (id : LocalId) : LocalDecl := routine.locals.getD id default

def addTemp (routine : Routine) (name : String) (kind : Kind) : LocalId × Routine :=
  (routine.locals.length, { routine with locals := routine.locals ++ [⟨name, kind, .temp⟩] })

def paramPositions (routine : Routine) (ids : List LocalId) : List Nat :=
  routine.params.zipIdx.filterMap fun (param, position) =>
    if param ∈ ids then some position else none

def nodeCount (routine : Routine) : Nat := Stmt.blockNodeCount routine.body

/-- The routines called in the body, each once, in order of their first call. -/
def callees (routine : Routine) : List RoutineIndex :=
  ((Stmt.blockExprNodes routine.body).filterMap fun
    | .call callee _ _ => some callee
    | _ => none).eraseDups

end Routine

/-- What is compiled together: the root routine first, then the routines it can call. -/
structure Body where
  routines : List Routine

namespace Body

def routine (body : Body) (index : RoutineIndex) : Routine := body.routines.getD index default

def root (body : Body) : Routine := body.routine 0

def setRoutine (body : Body) (index : RoutineIndex) (routine : Routine) : Body :=
  ⟨body.routines.set index routine⟩

def nodeCount (body : Body) : Nat := body.root.nodeCount

def purity (body : Body) : Purity :=
  body.routines.foldl (fun purity routine => purity.join routine.purity) .pure

end Body
end TwoTier.Typed
