import TwoTier.Eligibility.Refusal
import TwoTier.Surface.Expr
import TwoTier.Table
import TwoTier.Typed.Body

namespace TwoTier.Eligibility

open Typed (LocalDecl LocalId LocalOrigin)

/-- The locals that every path to a point has assigned. -/
structure Definite where
  assigned : List LocalId := []
  /-- no path leads to the point -/
  dead : Bool := false
deriving DecidableEq, Repr

namespace Definite

def assign (definite : Definite) (id : LocalId) : Definite :=
  { definite with assigned := id :: definite.assigned }

def isAssigned (definite : Definite) (id : LocalId) : Bool :=
  definite.dead || definite.assigned.contains id

def kill (definite : Definite) : Definite := { definite with dead := true }

/-- What holds where two paths meet. -/
def join (a b : Definite) : Definite :=
  if a.dead then b
  else if b.dead then a
  else { assigned := a.assigned.filter b.assigned.contains, dead := false }

end Definite

/-- The locals of one function. -/
structure Scope where
  /-- names bound anywhere in the function, which are therefore local -/
  localNames : List String
  ids : Table LocalId := []
  locals : List LocalDecl := []
  definite : Definite := {}

namespace Scope

def isLocalName (scope : Scope) (name : String) : Bool := scope.localNames.contains name

def decl (scope : Scope) (id : LocalId) : LocalDecl := scope.locals.getD id default

def lookup? (scope : Scope) (name : String) : Option LocalId := scope.ids.get? name

def assign (scope : Scope) (id : LocalId) : Scope :=
  { scope with definite := scope.definite.assign id }

private def pushLocal (scope : Scope) (name : String) (kind : Kind) (origin : LocalOrigin) :
    LocalId × Scope :=
  (scope.locals.length, { scope with locals := scope.locals ++ [⟨name, kind, origin⟩] })

def declare (scope : Scope) (name : String) (kind : Kind) (origin : LocalOrigin) :
    LocalId × Scope :=
  let (id, scope) := scope.pushLocal name kind origin
  (id, { scope with ids := scope.ids.set name id })

/-- Declares the parameters, which have values from the start. -/
def declareParams (scope : Scope) (params : List (String × Kind)) : List LocalId × Scope :=
  params.zipIdx.foldl
    (fun (ids, scope) ((name, kind), position) =>
      let (id, scope) := scope.declare name kind (.param position)
      (ids ++ [id], scope.assign id))
    ([], scope)

/-- Declares a temporary, named after its purpose and its place. -/
def temp (scope : Scope) (hint : String) (kind : Kind) : LocalId × Scope :=
  scope.pushLocal ("$" ++ hint ++ toString scope.locals.length) kind .temp

def array? (scope : Scope) (expr : Surface.Expr) : Option LocalId :=
  expr.name?.bind fun name =>
    (scope.lookup? name).bind fun id => if (scope.decl id).kind.isArray then some id else none

end Scope
end TwoTier.Eligibility
