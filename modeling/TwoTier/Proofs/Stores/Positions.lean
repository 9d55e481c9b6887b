import Mathlib.Data.List.Forall2
import TwoTier.Proofs.Nodes
import TwoTier.Typed.CallGraph

namespace TwoTier.Typed

/-- The positions known of a routine are all those where it stores, itself or in a callee. -/
def Accounts (stored : List (List Nat)) (positions : List Nat) (routine : Routine) : Prop :=
  ∀ {position : Nat} {id : LocalId}, routine.params[position]? = some id →
    id ∈ Stmt.storedArrays routine.body ++ Body.passedToStores stored routine →
      position ∈ positions

namespace Routine

theorem mem_paramPositions {routine : Routine} :
    position ∈ routine.paramPositions ids ↔ ∃ id ∈ ids, routine.params[position]? = some id := by
  simp only [paramPositions, List.mem_filterMap, Option.ite_none_right_eq_some, Option.some.injEq]
  constructor
  · rintro ⟨⟨param, place⟩, member, among, rfl⟩
    exact ⟨param, among, List.mem_zipIdx_iff_getElem?.1 member⟩
  · rintro ⟨id, among, found⟩
    exact ⟨(id, position), List.mem_zipIdx_iff_getElem?.2 found, among, rfl⟩

theorem paramPositions_sublist {routine : Routine} {others : List LocalId} (subset : ids ⊆ others) :
    (routine.paramPositions ids).Sublist (routine.paramPositions others) := by
  unfold paramPositions
  induction routine.params.zipIdx with
  | nil => exact List.Sublist.refl _
  | cons entry rest ih =>
    by_cases member : entry.1 ∈ ids
    · simpa [member, subset member] using ih
    · by_cases later : entry.1 ∈ others
      · simpa [member, later] using ih.cons _
      · simpa [member, later] using ih

theorem length_paramPositions (routine : Routine) (ids : List LocalId) :
    (routine.paramPositions ids).length ≤ routine.params.length := by
  exact Nat.le_trans (List.length_filterMap_le _ _) (Nat.le_of_eq List.length_zipIdx)

end Routine

abbrev Widens : List (List Nat) → List (List Nat) → Prop := List.Forall₂ List.Sublist

def positionCount (stored : List (List Nat)) : Nat := stored.flatten.length

section Widens

variable {stored next : List (List Nat)}

theorem Widens.getD (widens : Widens stored next) (index : RoutineIndex) :
    stored.getD index [] ⊆ next.getD index [] := by
  induction widens generalizing index with
  | nil => exact List.Subset.refl _
  | cons first _ ih =>
    cases index with
    | zero => exact first.subset
    | succ index => exact ih index

theorem Widens.count_le (widens : Widens stored next) :
    positionCount stored ≤ positionCount next := by
  unfold positionCount
  induction widens with
  | nil => exact .refl
  | cons first _ ih =>
    rw [List.flatten_cons, List.flatten_cons, List.length_append, List.length_append]
    exact Nat.add_le_add first.length_le ih

theorem Widens.eq_of_count (widens : Widens stored next)
    (same : positionCount next ≤ positionCount stored) : next = stored := by
  unfold positionCount at same
  induction widens with
  | nil => rfl
  | cons first others ih =>
    have shorter := first.length_le
    have fewer := Widens.count_le others
    rw [List.flatten_cons, List.flatten_cons, List.length_append, List.length_append] at same
    unfold positionCount at fewer
    rw [first.eq_of_length (by omega), ih (by omega)]

end Widens

namespace Body

variable {body : Body} {stored next : List (List Nat)}

theorem mem_passedToStores {routine : Routine} {id : LocalId} :
    id ∈ passedToStores stored routine ↔
      ∃ callee result args position, .call callee result args ∈ Stmt.blockExprNodes routine.body ∧
        args[position]? = some (.array id) ∧ position ∈ stored.getD callee [] := by
  constructor
  · intro member
    obtain ⟨node, present, passed⟩ := List.mem_flatMap.1 member
    cases node with
    | call callee result args =>
      obtain ⟨⟨arg, position⟩, among, found⟩ := List.mem_filterMap.1 passed
      cases arg with
      | scalar => cases found
      | array other =>
        obtain ⟨known, same⟩ := Option.ite_none_right_eq_some.1 found
        cases same
        exact ⟨callee, result, args, position, present, List.mem_zipIdx_iff_getElem?.1 among, known⟩
    | const | var | unary | binary | compare | logic | select | cast | index | len | abs
    | extremum => cases passed
  · rintro ⟨callee, result, args, position, present, passed, known⟩
    refine List.mem_flatMap.2 ⟨_, present, List.mem_filterMap.2 ⟨(.array id, position), ?_, ?_⟩⟩
    · exact List.mem_zipIdx_iff_getElem?.2 passed
    · exact if_pos known

theorem passedToStores_subset (widens : Widens stored next) (routine : Routine) :
    passedToStores stored routine ⊆ passedToStores next routine := by
  intro id member
  obtain ⟨callee, result, args, position, present, passed, known⟩ := mem_passedToStores.1 member
  exact mem_passedToStores.2
    ⟨callee, result, args, position, present, passed, widens.getD callee known⟩

theorem storedStep_widens (widens : Widens stored next) :
    Widens (body.storedStep stored) (body.storedStep next) := by
  unfold storedStep
  induction body.routines with
  | nil => exact .nil
  | cons routine rest ih =>
    refine .cons (Routine.paramPositions_sublist ?_) ih
    exact List.append_subset.2 ⟨List.subset_append_left _ _,
      List.subset_append_of_subset_right _ (passedToStores_subset widens routine)⟩

theorem count_storedStep (body : Body) (stored : List (List Nat)) :
    positionCount (body.storedStep stored) ≤ (body.routines.flatMap (·.params)).length := by
  unfold positionCount storedStep
  induction body.routines with
  | nil => exact .refl
  | cons routine rest ih =>
    rw [List.map_cons, List.flatten_cons, List.length_append, List.flatMap_cons, List.length_append]
    exact Nat.add_le_add (routine.length_paramPositions _) ih

/-- Each round that changes something adds a position, and there are no more than parameters. -/
theorem storedStep_storedFrom (rounds : Nat) : ∀ {stored : List (List Nat)},
    Widens stored (body.storedStep stored) →
    (body.routines.flatMap (·.params)).length < positionCount stored + rounds →
      body.storedStep (body.storedFrom rounds stored) = body.storedFrom rounds stored := by
  induction rounds with
  | zero =>
    intro stored widens few
    have within := Nat.le_trans widens.count_le (body.count_storedStep stored)
    omega
  | succ rounds ih =>
    intro stored widens few
    unfold storedFrom
    dsimp only
    split
    · assumption
    · rename_i changed
      have added : positionCount stored < positionCount (body.storedStep stored) :=
        Nat.lt_of_not_le fun same => changed (widens.eq_of_count same)
      exact ih (storedStep_widens widens) (by omega)

def noPositions (body : Body) : List (List Nat) := body.routines.map fun _ => []

theorem getD_noPositions (body : Body) (index : RoutineIndex) :
    body.noPositions.getD index [] = [] := by
  unfold noPositions
  rw [List.getD_eq_getElem?_getD, List.getElem?_map]
  cases body.routines[index]? <;> rfl

theorem widens_noPositions (body : Body) (stored : List (List Nat)) :
    Widens body.noPositions (body.storedStep stored) := by
  unfold noPositions storedStep
  induction body.routines with
  | nil => exact .nil
  | cons routine rest ih => exact .cons (List.nil_sublist _) ih

theorem accounts_of_storedStep (closed : body.storedStep stored = stored) (index : RoutineIndex) :
    Accounts stored (stored.getD index []) (body.routine index) := by
  intro position id param among
  have inside : index < body.routines.length := by
    by_contra outside
    rw [routine, List.getD_eq_getElem?_getD,
      List.getElem?_eq_none (Nat.le_of_not_lt outside)] at param
    cases param
  have known : (body.storedStep stored).getD index [] =
      (body.routine index).paramPositions (Stmt.storedArrays (body.routine index).body ++
        passedToStores stored (body.routine index)) := by
    simp [storedStep, routine, inside]
  rw [← closed, known]
  exact Routine.mem_paramPositions.2 ⟨id, among, param⟩

/-- The positions found for the root belong to positions of all routines that leave out no store. -/
theorem storedParams_accounts (body : Body) :
    ∃ stored : List (List Nat), stored.getD 0 [] = body.storedParams ∧
      ∀ index, Accounts stored (stored.getD index []) (body.routine index) := by
  refine ⟨_, rfl, accounts_of_storedStep (storedStep_storedFrom _ (body.widens_noPositions _) ?_)⟩
  rw [List.length_flatMap, List.sum_eq_foldl]
  omega

theorem storedFrom_of_closed (closed : body.storedStep stored = stored) (rounds : Nat) :
    body.storedFrom rounds stored = stored := by
  cases rounds with
  | zero => rfl
  | succ rounds => exact if_pos closed

theorem passedToStores_noPositions (body : Body) (routine : Routine) :
    passedToStores body.noPositions routine = [] := by
  refine List.eq_nil_iff_forall_not_mem.2 fun id member => ?_
  obtain ⟨callee, _, _, _, _, _, known⟩ := mem_passedToStores.1 member
  rw [getD_noPositions] at known
  cases known

theorem storedParams_eq_nil
    (silent : ∀ routine ∈ body.routines, Stmt.storedArrays routine.body = []) :
    body.storedParams = [] := by
  have none (routine : Routine) : routine.paramPositions [] = [] := by
    refine List.eq_nil_iff_forall_not_mem.2 fun position member => ?_
    obtain ⟨id, among, -⟩ := Routine.mem_paramPositions.1 member
    cases among
  have still : body.storedStep body.noPositions = body.noPositions :=
    List.map_congr_left fun routine member => by
      rw [silent routine member, passedToStores_noPositions, List.append_nil, none]
  have found : body.storedParams = body.noPositions.getD 0 [] :=
    congrArg (fun stored : List (List Nat) => stored.getD 0 []) (storedFrom_of_closed still _)
  rw [found, getD_noPositions]

end Body
end TwoTier.Typed
