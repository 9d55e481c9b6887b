import TwoTier.Passes.Dependence
import TwoTier.Proofs.Nodes

namespace TwoTier.Passes

open Typed (ForHead LocalId Routine Stmt)

/-- The findings of an examination, with the checks that they passed. -/
structure Examined (routine : Routine) (head : ForHead) (body : List Stmt) (lowering : Lowering)
    (reads : List LocalId) (use : LoopUse) : Prop where
  stride : isUnitStride head = true
  unobstructed : ∀ node ∈ Stmt.blockNodes body, splitObstacle? node = none
  counter : head.var ∉ Stmt.writtenLocals body
  classified : classify routine body (Stmt.writtenLocals body).eraseDups =
    .ok (use.reductions, use.privates)
  flows : ∃ after, flowBlock use.privates body {} = .ok after
  single : lowering = .parallel → use.reductions.length ≤ 1
  inner : lowering = .parallel → ∀ id ∈ use.privates, reads.count id ≤ (scalarReads body).count id
  accesses : ∀ array ∈ Stmt.storedArrays body,
    accessedOnlyAt array body (counterNames head.var body use.privates) = true
  invariants : use.invariants = sortedIds ((scalarReads body).filter fun id =>
    id ≠ head.var && !(Stmt.writtenLocals body).contains id && !(routine.decl id).kind.isArray)
  arrays : use.arrays = (body.flatMap arraysOf).eraseDups

/-- How the locals that a loop writes are told apart. -/
inductive Classified (routine : Routine) (body : List Stmt) :
    List LocalId → List Reduction → List LocalId → Prop
  | nil : Classified routine body [] [] []
  | array : (routine.decl first).kind = .array element → Classified routine body rest reductions others →
      Classified routine body (first :: rest) reductions others
  | other : (routine.decl first).kind = .scalar type → reductionOp? first type body = none →
      Classified routine body rest reductions others →
      Classified routine body (first :: rest) reductions (first :: others)
  | accumulator : (routine.decl first).kind = .scalar type → reductionOp? first type body = some op →
      reductionObstacle? (routine.decl first) type op = none →
      Classified routine body rest reductions others →
      Classified routine body (first :: rest) (⟨first, op, type⟩ :: reductions) others

variable {routine : Routine} {head : ForHead} {body : List Stmt} {lowering : Lowering}
  {reads : List LocalId} {use : LoopUse} {id : LocalId}

/-- Every local that a loop writes is told apart, in the order in which they are given. -/
theorem classified_of_classify (done : classify routine body ids = .ok (reductions, others)) :
    Classified routine body ids reductions others := by
  induction ids generalizing reductions others with
  | nil =>
    cases done
    exact .nil
  | cons id rest ih =>
    simp only [classify] at done
    cases ended : classify routine body rest with
    | error reason =>
      simp only [ended] at done
      repeat' split at done
      all_goals cases done
    | ok found =>
      have inner := ih ended
      simp only [ended] at done
      split at done
      · cases done
        exact .array ‹_› inner
      · split at done
        · cases done
          exact .other ‹_› ‹_› inner
        · split at done
          · cases done
          · cases done
            exact .accumulator ‹_› ‹_› ‹_› inner

/-- Each scalar that a loop writes is an accumulator, or it is private. -/
theorem Classified.cases (classified : Classified routine body ids reductions others)
    (member : id ∈ ids) :
    (routine.decl id).kind.isArray = true ∨ id ∈ others ∨ id ∈ reductions.map (·.acc) := by
  induction classified with
  | nil => cases member
  | array isArray _ ih =>
    obtain _ | ⟨_, later⟩ := member
    · exact .inl (by rw [isArray]; rfl)
    · exact ih later
  | other _ _ _ ih =>
    obtain _ | ⟨_, later⟩ := member
    · exact .inr (.inl (.head _))
    · exact (ih later).imp_right (·.imp_left (List.mem_cons_of_mem _))
  | accumulator _ _ _ _ ih =>
    obtain _ | ⟨_, later⟩ := member
    · exact .inr (.inr (.head _))
    · exact (ih later).imp_right (·.imp_right (List.mem_cons_of_mem _))

/-- What an accepted loop was examined for, one field for each reason to refuse it. -/
theorem examined_of_loopUse (accepted : loopUse routine head body lowering reads = .ok use) :
    Examined routine head body lowering reads use := by
  simp only [loopUse, bind, Except.bind, throw, throwThe, MonadExceptOf.throw]
    at accepted
  split at accepted
  · cases accepted
  rename_i stride
  split at accepted
  · cases accepted
  rename_i unobstructed
  split at accepted
  · cases accepted
  rename_i counter
  split at accepted
  · cases accepted
  rename_i found classified
  split at accepted
  · cases accepted
  rename_i flow unbroken
  have flows : ∃ after, flowBlock found.2 body {} = .ok after := by
    cases ended : flowBlock found.2 body {} with
    | ok after => exact ⟨after, rfl⟩
    | error id => exact (unbroken id ended).elim
  have unobstructed := List.findSome?_eq_none_iff.1
    (Option.eq_none_iff_forall_ne_some.2 unobstructed)
  split at accepted
  · split at accepted
    · cases accepted
    rename_i single
    split at accepted
    · cases accepted
    rename_i kept
    split at accepted
    · cases accepted
    rename_i apart
    cases accepted
    have kept := List.find?_eq_none.1 (Option.eq_none_iff_forall_ne_some.2 kept)
    have apart := List.find?_eq_none.1 (Option.eq_none_iff_forall_ne_some.2 apart)
    exact {
      stride := by simpa using stride
      unobstructed
      counter := by simpa using counter
      classified
      flows
      single := fun _ => Nat.le_of_not_lt single
      inner := fun _ id member => by simpa using kept id member
      accesses := fun array member => by simpa using apart array member
      invariants := rfl
      arrays := rfl }
  · rename_i lanes
    split at accepted
    · cases accepted
    rename_i apart
    cases accepted
    have apart := List.find?_eq_none.1 (Option.eq_none_iff_forall_ne_some.2 apart)
    exact {
      stride := by simpa using stride
      unobstructed
      counter := by simpa using counter
      classified
      flows
      single := fun chunks => absurd chunks lanes
      inner := fun chunks => absurd chunks lanes
      accesses := fun array member => by simpa using apart array member
      invariants := rfl
      arrays := rfl }

theorem mem_sortedIds : id ∈ sortedIds ids ↔ id ∈ ids := by
  rw [sortedIds, List.mem_eraseDups, Sorted.mem_sort]

/-- An invariant of a loop is read and never written in it; nor is it the counter. -/
theorem Examined.mem_invariants (examined : Examined routine head body lowering reads use) :
    id ∈ use.invariants ↔ id ∈ scalarReads body ∧ id ≠ head.var ∧
      id ∉ Stmt.writtenLocals body ∧ (routine.decl id).kind.isArray = false := by
  rw [examined.invariants, mem_sortedIds]
  simp [and_assoc]

/-- Whether a statement itself stores into an array, reads it or measures it. -/
def NamesArray (node : Stmt) (array : LocalId) : Prop :=
  (∃ index value, node = .store array index value) ∨
    ∃ expr ∈ node.exprs, ∃ part ∈ expr.nodes, part.var? = none ∧ part.isCall = false ∧
      array ∈ part.ownLocals

theorem Examined.mem_arrays (examined : Examined routine head body lowering reads use) :
    array ∈ use.arrays ↔ ∃ node ∈ Stmt.blockNodes body, NamesArray node array := by
  rw [examined.arrays, List.mem_eraseDups]
  constructor
  · intro member
    obtain ⟨stmt, listed, own⟩ := List.mem_flatMap.1 member
    have nested {node : Stmt} (alone : node ∈ Stmt.blockNodes [stmt]) :
        node ∈ Stmt.blockNodes body := by
      obtain ⟨_, only, here⟩ := Stmt.mem_blockNodes.1 alone
      cases List.mem_singleton.1 only
      exact Stmt.mem_blockNodes.2 ⟨stmt, listed, here⟩
    obtain stored | read := List.mem_append.1 own
    · obtain ⟨node, alone, found⟩ := List.mem_filterMap.1 stored
      cases node with
      | store _ index value =>
        cases found
        exact ⟨_, nested alone, .inl ⟨index, value, rfl⟩⟩
      | _ => cases found
    · obtain ⟨part, among, found⟩ := List.mem_filterMap.1 read
      obtain ⟨node, alone, inside⟩ := List.mem_flatMap.1 among
      obtain ⟨expr, listed, here⟩ := List.mem_flatMap.1 inside
      refine ⟨node, nested alone, .inr ⟨expr, listed, part, here, ?_⟩⟩
      cases part with
      | index _ _ _ | len _ =>
        cases found
        exact ⟨rfl, rfl, List.mem_singleton.2 rfl⟩
      | _ => cases found
  · rintro ⟨node, present, named⟩
    obtain ⟨stmt, listed, here⟩ := Stmt.mem_blockNodes.1 present
    have alone : node ∈ Stmt.blockNodes [stmt] := Stmt.mem_blockNodes.2 ⟨stmt, by simp, here⟩
    refine List.mem_flatMap.2 ⟨stmt, listed, List.mem_append.2 ?_⟩
    obtain ⟨index, value, rfl⟩ | ⟨expr, own, part, inside, unnamed, callFree, member⟩ := named
    · exact .inl (List.mem_filterMap.2 ⟨_, alone, rfl⟩)
    · refine .inr (List.mem_filterMap.2 ⟨part, List.mem_flatMap.2 ⟨node, alone,
        List.mem_flatMap.2 ⟨expr, own, inside⟩⟩, ?_⟩)
      cases part with
      | index _ _ _ | len _ => rw [List.mem_singleton.1 member]
      | var _ _ => cases unnamed
      | call _ _ _ => cases callFree
      | _ => cases member

theorem Examined.written_cases (examined : Examined routine head body lowering reads use)
    (written : id ∈ Stmt.writtenLocals body) :
    (routine.decl id).kind.isArray = true ∨ id ∈ use.privates ∨
      id ∈ use.reductions.map (·.acc) :=
  (classified_of_classify examined.classified).cases (List.mem_eraseDups.2 written)

end TwoTier.Passes
