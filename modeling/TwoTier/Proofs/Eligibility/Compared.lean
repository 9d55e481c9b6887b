import TwoTier.Proofs.Eligibility.Growth
import TwoTier.Proofs.Eligibility.Tracking

namespace TwoTier.Eligibility

open Interp (Program)

open Surface (FunctionDef)

open Typed (LocalId Routine Stmt)

variable {α : Type}

/-- Under which two programs are compared. -/
structure Comparison where
  /-- the functions that can be recorded -/
  listed : String → Prop
  /-- the names of the scope -/
  names : List String
  /-- the keys requested before -/
  keys : List Key
  /-- functions whose definitions are known -/
  known : List String

namespace Comparison

variable (comparison : Comparison)

/-- What holds of the closure all the time. -/
structure Admits (closure : Closure) : Prop where
  indexed : closure.Indexed
  keys : comparison.keys <+: closure.requested
  listed : ∀ name ∈ closure.dependencies, comparison.listed name

/-- Two outcomes from a closure that are compared. -/
abbrev Answers (closure : Closure) (trial other : Trial Closure α) : Prop :=
  trial.Tracks False comparison.Admits (·.dependencies ⊆ comparison.known)
    (closure.dependencies ⊆ comparison.known) other

def Requests (attempt other : Attempt Closure α) : Prop :=
  Attempt.Tracks False comparison.Admits (·.dependencies ⊆ comparison.known) attempt other

def watch (program other : Program) : Watch where
  names := comparison.names
  holds draft := draft.scope.localNames = comparison.names ∧ comparison.Admits draft.closure
  known draft := draft.closure.dependencies ⊆ comparison.known
  alike := Agree program other
  loose := False
  within held := held.1

structure Counterpart (subject other : Subject) : Prop where
  function : other.function = subject.function
  specialize : ∀ name kinds span,
    Agree subject.program other.program (.called name) →
      comparison.Requests (subject.specialize name kinds span) (other.specialize name kinds span)

variable {comparison} {program twin : Program} {subject other : Subject}

/-- What changes no more than a scope, and in it no names. -/
theorem tracks_onScope {change : Scope → α × Scope}
    (kept : ∀ scope, (change scope).2.localNames = scope.localNames) :
    (comparison.watch program twin).Tracks (Typing.onScope change) (Typing.onScope change) := by
  refine Attempt.Tracks.of_modify (fun _ => rfl) (fun admitted => ?_) id
  exact ⟨(kept _).trans admitted.1, admitted.2⟩

theorem tracks_bindLocal (function : other.function = subject.function) (name : String)
    (kind : Kind) (span : Span) :
    (comparison.watch program twin).Tracks (subject.bindLocal name kind span)
      (other.bindLocal name kind span) := by
  refine Subject.tracks_scope fun scope _ => ?_
  split
  · exact tracks_onScope fun _ => rfl
  · dsimp only
    split
    · exact .pure
    · exact Subject.tracks_inconsistent function

theorem tracks_recordReturn (function : other.function = subject.function) (result : ReturnKind)
    (span : Span) :
    (comparison.watch program twin).Tracks (subject.recordReturn result span)
      (other.recordReturn result span) := by
  constructor
  intro draft admitted
  unfold Subject.recordReturn Subject.inconsistent
  rw [function]
  split
  · exact ⟨admitted, fun recorded => ⟨recorded, rfl⟩⟩
  · split
    · exact ⟨admitted, fun recorded => ⟨recorded, rfl⟩⟩
    · exact ⟨admitted, fun recorded => ⟨recorded, rfl⟩⟩

namespace Counterpart

variable (pair : comparison.Counterpart subject other)

include pair

theorem requested (name : String) (kinds : List Kind) (span : Span)
    (alike : Agree subject.program other.program (.called name)) :
    (comparison.watch program twin).Tracks (subject.requestCallee name kinds span)
      (other.requestCallee name kinds span) := by
  have requests := pair.specialize name kinds span alike
  unfold Subject.requestCallee
  rw [pair.function]
  refine Attempt.Tracks.mapRefusal ⟨fun {draft} admitted => Attempt.leaves_onPart ?_⟩
  refine (requests.tracked admitted.2).mono fun held => ⟨⟨admitted.1, held.1⟩, fun recorded => ?_⟩
  refine (held.2 recorded).imp_right fun same => ?_
  rw [Attempt.onPart, Attempt.onPart, same]

theorem partner : (comparison.watch subject.program other.program).Partner subject other where
  function := pair.function
  constant alike := alike
  defined {name} alike := by
    have same := congrArg Option.isSome alike
    simpa [Program.definition?] using same
  captured name value :=
    .of_modify (fun _ => rfl) (fun held => ⟨held.1, ⟨held.2.indexed.1, held.2.indexed.2⟩, held.2.keys, held.2.listed⟩) id
  requested := pair.requested
  placed change := tracks_onScope fun _ => rfl
  spilled hint type := tracks_onScope fun _ => rfl
  bound name type := tracks_bindLocal pair.function name (.scalar type)
  raised purity := .of_modify (fun _ => rfl) id id
  returned := tracks_recordReturn pair.function

end Counterpart
end Comparison

namespace Subject

variable {comparison : Comparison} {subject other : Subject}

theorem localNames_declareParams (scope : Scope) (params : List (String × Kind)) :
    (scope.declareParams params).2.localNames = scope.localNames := by
  have kept (items : List ((String × Kind) × Nat)) (ids : List LocalId) (scope : Scope) :
      (items.foldl
        (fun state param =>
          let declared := state.2.declare param.1.1 param.1.2 (.param param.2)
          (state.1 ++ [declared.1], declared.2.assign declared.1)) (ids, scope)).2.localNames =
        scope.localNames := by
    induction items generalizing ids scope with
    | nil => rfl
    | cons item rest ih => exact ih _ _
  exact kept params.zipIdx [] scope

/-- The parameters of a function and the scope that typing its body starts from. -/
def opening (definition : FunctionDef) (kinds : List Kind) : List LocalId × Scope :=
  ({ localNames := definition.scopeNames } : Scope).declareParams
    (definition.paramNames.zip kinds)

/-- The routine that comes of typing a body. -/
def finished (name : String) (kinds : List Kind) (params : List LocalId)
    (directives : DirectiveSet) : Trial Draft (List Stmt) → Trial Closure Routine
  | .ok body draft =>
    .ok
      { name
        argKinds := kinds
        params
        locals := draft.scope.locals
        body
        result := draft.result.getD .nothing
        purity := draft.purity
        directives
        globalsRead := draft.globalsRead
        nextLabel := 0 }
      draft.closure
  | .refused refusal draft => .refused refusal draft.closure
  | .exhausted => .exhausted

theorem typeFunction_eq (subject : Subject) (definition : FunctionDef) (kinds : List Kind)
    (directives : DirectiveSet) (closure : Closure) :
    subject.typeFunction definition kinds directives closure =
      finished subject.function kinds (opening definition kinds).1 directives
        (subject.typeBody definition { closure, scope := (opening definition kinds).2 }) := rfl

theorem leaves_finished {loose : Prop} {holds : Closure → Prop} {trial : Trial Draft (List Stmt)}
    (leaves : trial.Leaves loose fun draft => holds draft.closure) :
    (finished name kinds params directives trial).Leaves loose holds := by
  cases trial <;> exact leaves

theorem requests_typeFunction (pair : comparison.Counterpart subject other)
    (definition : FunctionDef) (kinds : List Kind) (directives : DirectiveSet)
    (names : comparison.names = definition.scopeNames)
    (covers : (comparison.watch subject.program other.program).Covers
      (Surface.Stmt.mentionsInAll definition.body)) :
    comparison.Requests (subject.typeFunction definition kinds directives)
      (other.typeFunction definition kinds directives) := by
  have tracks := tracks_typeBody pair.partner definition covers
  have localNames : (opening definition kinds).2.localNames = comparison.names := by
    rw [names]
    exact localNames_declareParams _ _
  constructor
  intro closure admitted
  rw [typeFunction_eq, typeFunction_eq, pair.function]
  refine leaves_finished ((tracks.tracked ⟨localNames, admitted⟩).mono fun held => ?_)
  exact ⟨held.1.2, fun recorded => (held.2 recorded).imp_right (congrArg (finished _ _ _ _))⟩

end Subject
end TwoTier.Eligibility
