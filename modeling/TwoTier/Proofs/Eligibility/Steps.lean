import TwoTier.Proofs.Eligibility.Compared

namespace TwoTier.Eligibility

open Attempt (Moves)

open Interp (Program)

open Surface (FunctionDef)

open Typed (Expr LocalId)

/-- Ways that a draft may go without a change of the names of its scope. -/
class Keeps (rel : Draft → Draft → Prop) : Prop extends IsPreorder Draft rel where
  names : ∀ {before after}, rel before after → after.scope.localNames = before.scope.localNames

instance : Keeps Eq where
  names same := same ▸ rfl

instance {program : Program} : Keeps (Draft.Grows program) where
  names grows := grows.scope.localNames

def Watch.along (rel : Draft → Draft → Prop) [Keeps rel] (start : Draft) : Watch where
  names := start.scope.localNames
  holds := rel start
  known _ := False
  alike _ := True
  loose := True
  within := Keeps.names

variable {α : Type} {rel : Draft → Draft → Prop} [Keeps rel] {start : Draft}

theorem Watch.covers_along {mentions : List Surface.Mention} :
    (Watch.along rel start).Covers mentions :=
  fun _ _ _ => trivial

namespace Attempt.Moves

theorem tracks {other : Typing α} (moves : Moves rel typing) :
    (Watch.along rel start).Tracks typing other where
  tracked {draft} held :=
    (moves.leaves draft).mono fun led => ⟨trans_of rel held led, False.elim⟩

theorem of_tracks {typing other : Typing α}
    (tracks : ∀ start, (Watch.along rel start).Tracks typing other) : Moves rel typing where
  leaves start := ((tracks start).tracked (refl_of rel start)).mono And.left

end Attempt.Moves

namespace Subject

variable (subject : Subject)

section Still

theorem still_typeArith : Moves Eq (subject.typeArith op left right span) :=
  .of_tracks fun _ => tracks_typeArith rfl

theorem still_typeUnary : Moves Eq (subject.typeUnary op operand span) :=
  .of_tracks fun _ => tracks_typeUnary rfl

theorem still_typeComparison : Moves Eq (subject.typeComparison op left right span) :=
  .of_tracks fun _ => tracks_typeComparison rfl

end Still

variable {program : Program}

/-- Whatever is requested of a subject lets the closure evolve. -/
def Specializes (program : Program) (subject : Subject) : Prop :=
  ∀ name kinds span, Moves (Closure.Evolves program) (subject.specialize name kinds span)

section Expressions

theorem requests_captureConstant :
    Moves (Draft.Requests program) (captureConstant name value) := by
  apply Moves.bind
  · exact .of_modify (fun _ => rfl) fun draft =>
      ⟨.refl _, rfl, rfl, fun stores => Typed.Purity.join_eq_mutatesContainer.2 (.inl stores)⟩
  intro _
  apply Moves.bind
  · exact .of_modify (fun _ => rfl) fun draft => ⟨Closure.evolves_of_entries rfl rfl, rfl, rfl, id⟩
  intro _
  exact .pure _

theorem requests_requestCallee (specializes : subject.Specializes program) :
    Moves (Draft.Requests program) (subject.requestCallee name kinds span) where
  leaves draft := Attempt.leaves_mapRefusal (Attempt.leaves_onPart
    (((specializes name kinds span).leaves draft.closure).mono fun led => ⟨led, rfl, rfl, id⟩))

end Expressions

section Statements

theorem grows_of_requests (requests : Moves (Draft.Requests program) typing) :
    Moves (Draft.Grows program) typing :=
  ⟨fun draft => (requests.leaves draft).mono (·.grows)⟩

theorem grows_setDefinite : Moves (Draft.Grows program) (Typing.setDefinite change) :=
  .of_modify (fun _ => rfl) fun draft => ⟨.refl _, draft.scope.grows_definite _, id, id⟩

theorem grows_raisePurity : Moves (Draft.Grows program) (Typing.raisePurity purity) :=
  .of_modify (fun _ => rfl) fun _ =>
    ⟨.refl _, .refl _, id, fun stores => Typed.Purity.join_eq_mutatesContainer.2 (.inl stores)⟩

theorem bindLocal_eq_ok {after : Draft} {id : LocalId}
    (bound : subject.bindLocal name kind span draft = .ok id after) :
    (draft.scope.lookup? name = none ∧ id = draft.scope.locals.length ∧
      after = { draft with scope := (draft.scope.declare name kind .user).2 }) ∨
    (draft.scope.lookup? name = some id ∧ (draft.scope.decl id).kind = kind ∧ after = draft) := by
  obtain ⟨scope, between, same, chosen⟩ := Attempt.bind_eq_ok.1 bound
  cases same
  cases found : draft.scope.lookup? name with
  | none =>
    rw [found] at chosen
    cases chosen
    exact .inl ⟨rfl, rfl, rfl⟩
  | some other =>
    rw [found] at chosen
    dsimp only at chosen
    split at chosen
    · rename_i agrees
      obtain ⟨rfl, rfl⟩ := Attempt.pure_eq_ok.1 chosen
      exact .inr ⟨rfl, agrees, rfl⟩
    · cases chosen

theorem grows_bindLocal :
    Moves (Draft.Grows program) (subject.bindLocal name (.scalar type) span) := by
  constructor
  intro draft
  unfold bindLocal
  rw [Attempt.bind_apply]
  dsimp only [Attempt.bind, Typing.scope]
  cases found : draft.scope.lookup? name with
  | none => exact ⟨.refl _, Scope.grows_declare found type, id, id⟩
  | some other =>
    dsimp only
    split
    · exact refl_of (Draft.Grows program) draft
    · exact refl_of (Draft.Grows program) draft

theorem grows_temp :
    Moves (Draft.Grows program) (Typing.onScope (·.temp hint (.scalar type))) :=
  .of_modify (fun _ => rfl) fun draft => ⟨.refl _, draft.scope.grows_temp hint type, id, id⟩

theorem grows_recordReturn : Moves (Draft.Grows program) (subject.recordReturn result span) := by
  constructor
  intro draft
  unfold recordReturn
  split
  · rename_i none
    exact ⟨.refl _, .refl _, fun found => (by cases none.symm.trans found), id⟩
  · split
    · exact refl_of (Draft.Grows program) draft
    · exact refl_of (Draft.Grows program) draft

variable {subject} in
theorem Specializes.partner (specializes : subject.Specializes program) :
    (Watch.along (Draft.Grows program) start).Partner subject subject where
  function := rfl
  constant _ := rfl
  defined _ := rfl
  captured _ _ := (grows_of_requests requests_captureConstant).tracks
  requested _ _ _ _ := (grows_of_requests (subject.requests_requestCallee specializes)).tracks
  placed _ := grows_setDefinite.tracks
  spilled _ _ := grows_temp.tracks
  bound _ _ _ := subject.grows_bindLocal.tracks
  raised _ := grows_raisePurity.tracks
  returned _ _ := subject.grows_recordReturn.tracks

theorem grows_typeBody (specializes : subject.Specializes program) (definition : FunctionDef) :
    Moves (Draft.Grows program) (subject.typeBody definition) :=
  .of_tracks fun _ => tracks_typeBody specializes.partner definition Watch.covers_along

theorem evolves_typeFunction (specializes : subject.Specializes program)
    (definition : FunctionDef) (kinds : List Kind) (directives : DirectiveSet) :
    Moves (Closure.Evolves program) (subject.typeFunction definition kinds directives) where
  leaves closure := by
    exact leaves_finished (((subject.grows_typeBody specializes definition).leaves _).mono (·.closure))

end Statements
end Subject
end TwoTier.Eligibility
