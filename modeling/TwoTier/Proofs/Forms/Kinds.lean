import TwoTier.Proofs.Forms.Formed

namespace TwoTier.Native

open Typed (ArgOf ArgsFormed BlockFormed Domain Expr LocalId Routine Stmt)

def IsScalar (routine : Routine) (id : LocalId) : Prop :=
  ∃ decl, routine.locals[id]? = some decl ∧ decl.kind.isArray = false

def IsArray (routine : Routine) (id : LocalId) : Prop :=
  ∃ decl, routine.locals[id]? = some decl ∧ decl.kind.isArray = true

section

variable {routine : Routine} {id : LocalId}

theorem IsScalar.lt (scalar : IsScalar routine id) : id < routine.locals.length :=
  (List.getElem?_eq_some_iff.1 scalar.choose_spec.1).1

theorem IsArray.lt (array : IsArray routine id) : id < routine.locals.length :=
  (List.getElem?_eq_some_iff.1 array.choose_spec.1).1

theorem IsArray.not_isScalar (array : IsArray routine id) : ¬ IsScalar routine id := by
  obtain ⟨decl, declared, isArray⟩ := array
  rintro ⟨other, found, isScalar⟩
  cases declared.symm.trans found
  rw [isArray] at isScalar
  cases isScalar

end

structure PartFits (routine : Routine) (part : Expr) : Prop where
  scalar : ∀ id, part.var? = some id → IsScalar routine id
  arrays : part.var? = none → ∀ id ∈ part.ownLocals, IsArray routine id

structure NodeFits (routine : Routine) (node : Stmt) : Prop where
  parts : ∀ expr ∈ node.exprs, ∀ part ∈ expr.nodes, PartFits routine part
  writes : ∀ id ∈ node.ownWrites, IsScalar routine id
  stores : ∀ {array index value}, node = .store array index value → IsArray routine array

section

variable {routine : Routine} {domain : Domain} (same : routine.locals = domain.locals)
include same

theorem isScalar_of_declares {id : LocalId} (declares : domain.Declares id (.scalar type)) :
    IsScalar routine id := by
  obtain ⟨decl, found, kind⟩ := declares
  exact ⟨decl, same ▸ found, kind ▸ rfl⟩

theorem isArray_of_declares {id : LocalId} (declares : domain.Declares id (.array element)) :
    IsArray routine id := by
  obtain ⟨decl, found, kind⟩ := declares
  exact ⟨decl, same ▸ found, kind ▸ rfl⟩

theorem isArray_of_args : ∀ {args : List (ArgOf Expr)} {kinds : List Kind},
    ArgsFormed domain args kinds → ∀ id, .array id ∈ args → IsArray routine id
  | [], _, _, _, member => nomatch member
  | .scalar _ :: _, _, formed, id, member => by
    obtain ⟨others, _, _, rest⟩ := formed
    exact isArray_of_args rest id (by simpa using member)
  | .array other :: _, _, formed, id, member => by
    obtain ⟨element, others, _, declares, rest⟩ := formed
    obtain here | later := List.mem_cons.1 member
    · cases here
      exact isArray_of_declares same declares
    · exact isArray_of_args rest id later

theorem partFits_of_formed {part : Expr} (formed : part.Formed domain) :
    PartFits routine part := by
  cases part with
  | var id type =>
    refine ⟨fun other reads => ?_, nofun⟩
    cases reads
    exact isScalar_of_declares same formed
  | index array element position =>
    exact ⟨nofun, fun _ => List.forall_mem_singleton.2 (isArray_of_declares same formed.1)⟩
  | len array =>
    obtain ⟨element, declares⟩ := formed
    exact ⟨nofun, fun _ => List.forall_mem_singleton.2 (isArray_of_declares same declares)⟩
  | call callee result args =>
    obtain ⟨profile, _, _, passed⟩ := formed
    refine ⟨nofun, fun _ id named => ?_⟩
    obtain ⟨arg, member, found⟩ := List.mem_filterMap.1 named
    cases arg with
    | scalar => cases found
    | array other =>
      cases found
      exact isArray_of_args same passed _ member
  | _ =>
    refine ⟨fun _ reads => ?_, fun _ _ named => ?_⟩
    · cases reads
    · cases named

theorem nodeFits_of_formed (formed : BlockFormed domain place body) :
    ∀ node ∈ Stmt.blockNodes body, NodeFits routine node := by
  intro node present
  obtain ⟨_, _, formed⟩ := formed.nodes _ present
  refine ⟨fun expr own part inside => ?_, fun id written => ?_, fun stores => ?_⟩
  · exact partFits_of_formed same ((formed.expr expr own).parts _ inside)
  · obtain ⟨type, declares⟩ := formed.writes id written
    exact isScalar_of_declares same declares
  · subst stores
    exact isArray_of_declares same formed.1.1

end

end TwoTier.Native
