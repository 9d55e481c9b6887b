import TwoTier.Eligibility.Scope
import TwoTier.Interp.Program

/-! The state of typing. A refusal keeps the state that it was found in. -/

namespace TwoTier.Eligibility

open Typed (LocalId Purity Routine RoutineIndex)

inductive Trial (σ α : Type) where
  | ok (value : α) (state : σ)
  | refused (refusal : Refusal) (state : σ)
  /-- specializations nest deeper than allowed -/
  | exhausted

/-- A step of typing over states `σ`. -/
def Attempt (σ α : Type) : Type := σ → Trial σ α

namespace Attempt

variable {σ τ α β : Type}

@[always_inline, inline]
protected def pure (value : α) : Attempt σ α := fun state => .ok value state

@[always_inline, inline]
protected def bind (attempt : Attempt σ α) (next : α → Attempt σ β) : Attempt σ β := fun state =>
  match attempt state with
  | .ok value state => next value state
  | .refused refusal state => .refused refusal state
  | .exhausted => .exhausted

instance : Monad (Attempt σ) where
  pure := Attempt.pure
  bind := Attempt.bind

def refuse (refusal : Refusal) : Attempt σ α := fun state => .refused refusal state

def get : Attempt σ σ := fun state => .ok state state

def modify (change : σ → σ) : Attempt σ Unit := fun state => .ok () (change state)

/-- Changes the state and gives what comes with the change. -/
def modifyGet (change : σ → α × σ) : Attempt σ α := fun state =>
  let (value, state) := change state
  .ok value state

/-- Works on a part of the state. -/
def onPart (part : σ → τ) (put : τ → σ → σ) (attempt : Attempt τ α) : Attempt σ α := fun state =>
  match attempt (part state) with
  | .ok value inner => .ok value (put inner state)
  | .refused refusal inner => .refused refusal (put inner state)
  | .exhausted => .exhausted

/-- Changes the refusal, if there is one. -/
def mapRefusal (change : Refusal → Refusal) (attempt : Attempt σ α) : Attempt σ α := fun state =>
  match attempt state with
  | .ok value state => .ok value state
  | .refused refusal state => .refused (change refusal) state
  | .exhausted => .exhausted

end Attempt

/-- How far a specialization has come. -/
inductive Progress where
  /-- under way, with a result kind assumed for calls of itself, and whether one relied on it -/
  | assumed (result : ReturnKind) (used : Bool)
  | settled (routine : Routine)

structure Entry where
  name : String
  kinds : List Kind
  progress : Progress

/-- What a specialization is requested under. -/
abbrev Key := String × List Kind

/-- The specializations requested for one root, and all that was consulted for them. -/
structure Closure where
  entries : List Entry := []
  /-- where the specialization under a key stands -/
  keys : List (Key × RoutineIndex) := []
  /-- functions whose definitions were typed -/
  dependencies : List String := []
  /-- constants of the module that were read -/
  globals : List String := []

namespace Closure

def find? (closure : Closure) (name : String) (kinds : List Kind) :
    Option (RoutineIndex × Progress) := do
  let (_, index) ← closure.keys.find? fun place => place.1 = (name, kinds)
  let entry ← closure.entries[index]?
  some (index, entry.progress)

/-- Opens a specialization at the end. A key that is already there is moved to it. -/
def enter (closure : Closure) (name : String) (kinds : List Kind) : Closure :=
  { closure with
    entries := closure.entries ++ [⟨name, kinds, .assumed .nothing false⟩]
    keys := closure.keys.filter (fun place => place.1 ≠ (name, kinds)) ++
      [((name, kinds), closure.entries.length)]
    dependencies := name :: closure.dependencies }

def setProgress (closure : Closure) (index : RoutineIndex) (progress : Progress) : Closure :=
  { closure with entries := closure.entries.modify index fun entry => { entry with progress } }

/-- Whether a call relied on the result assumed for a specialization. -/
def isUsed (closure : Closure) (index : RoutineIndex) : Bool :=
  match closure.entries[index]? with
  | some ⟨_, _, .assumed _ used⟩ => used
  | _ => false

/-- Keeps the first specializations and forgets the others. -/
def truncate (closure : Closure) (count : Nat) : Closure :=
  { closure with
    entries := closure.entries.take count
    keys := closure.keys.filter fun place => place.2 < count }

end Closure

/-- The routine being written. -/
structure Draft where
  closure : Closure
  scope : Scope
  /-- the kind of the first return -/
  result : Option ReturnKind := none
  purity : Purity := .pure
  globalsRead : List String := []

abbrev Typing := Attempt Draft

/-- What is typed: a function of a program, with a way to request the functions it calls. -/
structure Subject where
  program : Interp.Program
  function : String
  specialize : String → List Kind → Span → Attempt Closure (RoutineIndex × ReturnKind)

namespace Subject

variable {α : Type}

def unsupported (subject : Subject) (construct reason : String) (span : Span) : Typing α :=
  Attempt.refuse (.unsupported subject.function construct reason span)

def inconsistent (subject : Subject) (reason : String) (span : Span) : Typing α :=
  Attempt.refuse (.inconsistent subject.function reason span)

end Subject

namespace Typing

def scope : Typing Scope := fun draft => .ok draft.scope draft

def onScope {α : Type} (change : Scope → α × Scope) : Typing α := fun draft =>
  let (value, scope) := change draft.scope
  .ok value { draft with scope }

def setDefinite (change : Definite → Definite) : Typing Unit :=
  onScope fun scope => ((), { scope with definite := change scope.definite })

def assign (id : LocalId) : Typing Unit := setDefinite (·.assign id)

def raisePurity (purity : Purity) : Typing Unit :=
  Attempt.modify fun draft => { draft with purity := draft.purity.join purity }

end Typing
end TwoTier.Eligibility
