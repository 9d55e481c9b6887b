import TwoTier.Proofs.Buffers
import TwoTier.Proofs.Footprint
import TwoTier.Proofs.Refinement
import TwoTier.Proofs.Stores.Positions

namespace TwoTier.Native

open Typed (Accounts ArgOf Body Expr LocalId ParallelHead Routine RoutineIndex Stmt)

/-- A buffer that is passed at one of some positions. -/
def Handed (positions : List Nat) (args : List Slot) (buffer : Nat) : Prop :=
  ∃ position ∈ positions, args[position]? = some (.array (some buffer))

/-- Array locals are parameters, each with the buffer that was passed for it. -/
def Machine.Tethered (routine : Routine) (args : List Slot) (machine : Machine) : Prop :=
  ∀ {id : LocalId} {buffer : Nat}, machine.slots[id]? = some (.array (some buffer)) →
    ∃ position : Nat, routine.params[position]? = some id ∧
      args[position]? = some (.array (some buffer))

/-- Only buffers that are passed at some positions change. -/
def Footprint.handed (routine : Routine) (args : List Slot) (positions : List Nat) :
    Footprint Machine where
  rel before after := before.Tethered routine args → after.Tethered routine args ∧
    Shared.SameIn (fun buffer _ => ¬ Handed positions args buffer) before.shared after.shared
  refl _ tethered := ⟨tethered, .refl _⟩
  trans first second tethered :=
    have ⟨between, one⟩ := first tethered
    have ⟨last, other⟩ := second between
    ⟨last, one.trans other⟩

section Slots

/-- What stands in a slot after several were set was there before or has been set. -/
theorem slot_of_foldl (key : β → Nat) (value : β → α) {id : Nat} {slot : α} (items : List β) :
    ∀ {slots : Array α},
      (items.foldl (fun slots item => slots.setIfInBounds (key item) (value item)) slots)[id]? =
        some slot →
      slots[id]? = some slot ∨ ∃ item ∈ items, key item = id ∧ value item = slot := by
  induction items with
  | nil => exact fun found => .inl found
  | cons item rest ih =>
    intro slots found
    obtain before | ⟨other, member, set⟩ := ih found
    · rw [Array.getElem?_setIfInBounds] at before
      split at before
      · rename_i same
        split at before
        · exact .inr ⟨item, .head _, same, Option.some.inj before⟩
        · cases before
      · exact .inl before
    · exact .inr ⟨other, List.mem_cons_of_mem _ member, set⟩

theorem array_of_setScalar {slots : Array Slot} {id other : LocalId} {value : Scalar}
    (found : (slots.setIfInBounds other (.scalar value))[id]? = some (.array (some buffer))) :
    slots[id]? = some (.array (some buffer)) := by
  rw [Array.getElem?_setIfInBounds] at found
  split at found
  · split at found <;> cases found
  · exact found

theorem not_array_emptySlots {id : LocalId} :
    (emptySlots routine)[id]? ≠ some (.array (some buffer)) := by
  intro found
  rw [emptySlots, List.getElem?_toArray, List.getElem?_map, Option.map_eq_some_iff] at found
  obtain ⟨decl, -, empty⟩ := found
  unfold emptySlot at empty
  split at empty <;> cases empty

theorem tethered_entry (routine : Routine) (args : List Slot) (shared : Shared) :
    Machine.Tethered routine args ⟨entrySlots routine args, [], shared⟩ := by
  intro id buffer found
  obtain before | ⟨⟨param, arg⟩, member, rfl, rfl⟩ :=
    slot_of_foldl Prod.fst Prod.snd (routine.params.zip args) found
  · exact absurd before not_array_emptySlots
  · obtain ⟨position, here⟩ := List.mem_iff_getElem?.1 member
    obtain ⟨first, second⟩ := List.getElem?_zip_eq_some.1 here
    exact ⟨position, first, second⟩

theorem array_of_kernelSlots {head : ParallelHead} {id : LocalId}
    (found : (kernelSlots routine head outer lo hi)[id]? = some (.array (some buffer))) :
    outer[id]? = some (.array (some buffer)) := by
  have taken : ((head.captures ++ head.arrays).foldl
      (fun slots id => slots.setIfInBounds id (outer.getD id default))
      (emptySlots routine))[id]? = some (.array (some buffer)) := by
    unfold kernelSlots at found
    dsimp only at found
    split at found
    · exact array_of_setScalar (array_of_setScalar found)
    · exact array_of_setScalar (array_of_setScalar (array_of_setScalar found))
  obtain empty | ⟨other, -, rfl, copied⟩ := slot_of_foldl (fun id => id) _ _ taken
  · exact absurd empty not_array_emptySlots
  · rw [Array.getD_eq_getD_getElem?] at copied
    cases held : outer[other]? with
    | none =>
      rw [held] at copied
      cases copied
    | some slot =>
      rw [held] at copied
      exact congrArg some copied

theorem local_of_evalArgs {buffer : Option Nat} {args : List (ArgOf Expr)} {position : Nat}
    {machine after : Machine} {values : List Slot}
    (ran : evalArgs call args machine = .ok values after)
    (passed : values[position]? = some (.array buffer)) :
    ∃ id, args[position]? = some (.array id) ∧ machine.slots[id]? = some (.array buffer) := by
  induction args generalizing position machine values with
  | nil =>
    obtain ⟨rfl, -⟩ := Step.pure_eq_ok.1 ran
    cases passed
  | cons arg rest ih =>
    unfold evalArgs at ran
    cases arg with
    | scalar value =>
      obtain ⟨first, between, evaluated, others⟩ := Step.bind_eq_ok.1 ran
      obtain ⟨slots, last, followed, ended⟩ := Step.bind_eq_ok.1 others
      obtain ⟨rfl, rfl⟩ := Step.pure_eq_ok.1 ended
      cases position with
      | zero => cases passed
      | succ position =>
        rw [List.getElem?_cons_succ] at passed ⊢
        rw [← ((Footprint.locals_eval call value).after evaluated).1]
        exact ih followed passed
    | array id =>
      dsimp only at ran
      split at ran
      · rename_i own held
        obtain ⟨slots, last, followed, ended⟩ := Step.bind_eq_ok.1 ran
        obtain ⟨rfl, rfl⟩ := Step.pure_eq_ok.1 ended
        cases position with
        | zero =>
          cases passed
          exact ⟨id, rfl, held⟩
        | succ position =>
          rw [List.getElem?_cons_succ] at passed ⊢
          exact ih followed passed
      · cases ran

end Slots

section Routine

variable {routine : Routine} {args : List Slot} {positions : List Nat} {call : Callee}

theorem handed_ignoresLocals : (Footprint.handed routine args positions).IgnoresLocals where
  write id value := ⟨fun ran tethered => by
    obtain ⟨_, rfl⟩ := Machine.write_eq_ok.1 ran
    exact ⟨fun found => tethered (array_of_setScalar found), .refl _⟩⟩
  track machine distances tethered := ⟨tethered, .refl _⟩

theorem handed_coversKernels (head : ParallelHead) :
    (Footprint.handed routine args positions).CoversKernels routine head := by
  intro machine later lo hi kept tethered
  have inside := kept fun found => tethered (array_of_kernelSlots found)
  exact ⟨tethered, inside.2⟩

theorem handed_store
    (exposed : ∀ {position : Nat}, routine.params[position]? = some array → position ∈ positions)
    (position : Nat) (value : Scalar) :
    (Footprint.handed routine args positions).Keeps (Machine.store array position value) where
  after ran tethered := by
    obtain ⟨buffer, held, rfl⟩ := Machine.store_eq_ok.1 ran
    refine ⟨tethered, (Shared.SameIn.refl _).put value fun apart => apart ?_⟩
    obtain ⟨place, param, passed⟩ := tethered held
    exact ⟨place, exposed param, passed⟩

/-- Calls change only what is passed to them at the positions known of each routine. -/
def Contained (stored : List (List Nat)) (call : Callee) : Prop :=
  ∀ {callee : RoutineIndex} {values : List Slot} {shared later : Shared} {result : Scalar},
    call callee values shared = .ok result later →
      Shared.SameIn (fun buffer _ => ¬ Handed (stored.getD callee []) values buffer) shared later

variable {stored : List (List Nat)}

theorem handed_call (contained : Contained stored call)
    (accounts : Accounts stored positions routine) {node : Expr}
    (present : node ∈ Stmt.blockExprNodes routine.body) :
    Footprint.Keeps.AtCall (Footprint.handed routine args positions) call node := by
  rintro callee result passed rfl evaluates
  constructor
  intro machine scalar later ran tethered
  obtain ⟨values, between, given, entered⟩ := Step.bind_eq_ok.1 ran
  obtain ⟨shared, called, rfl⟩ := Machine.onShared_eq_ok.1 entered
  obtain ⟨still, before⟩ := evaluates.after given tethered
  refine ⟨still, before.trans ((contained called).mono fun buffer _ apart handed => apart ?_)⟩
  obtain ⟨position, member, here⟩ := handed
  obtain ⟨id, arg, held⟩ := local_of_evalArgs given here
  obtain ⟨place, param, own⟩ := tethered held
  refine ⟨place, accounts param (List.mem_append_right _ ?_), own⟩
  exact Body.mem_passedToStores.2 ⟨callee, result, passed, position, present, arg, member⟩

/-- The code of a routine changes only what is passed to it where it is known to store. -/
theorem handed_body (contained : Contained stored call)
    (accounts : Accounts stored positions routine) (own : ctx.routine = routine)
    (calls : ctx.call = call) :
    (Footprint.handed routine args positions).Keeps (execBlock ctx routine.body) := by
  refine keeps_execBlock fun node member => ?_
  have evals (expr : Expr) (among : expr ∈ node.exprs) :
      (Footprint.handed routine args positions).Keeps (eval ctx.call expr) := by
    rw [calls]
    refine .eval_of_calls expr fun inner present => handed_call contained accounts ?_
    exact List.mem_flatMap.2 ⟨node, member, List.mem_flatMap.2 ⟨expr, among, present⟩⟩
  refine ⟨evals, ?_, ?_, ?_, ?_, ?_⟩
  · rintro id value rfl
    exact keeps_assign (evals value (.head _)) (handed_ignoresLocals.write id)
      handed_ignoresLocals.track
  · rintro array index value rfl
    refine handed_store fun param => accounts param (List.mem_append_left _ ?_)
    exact List.mem_filterMap.2 ⟨_, member, rfl⟩
  · rintro head body rfl
    exact handed_ignoresLocals.write _
  · intro _ _ _
    exact handed_ignoresLocals
  · rintro head chunk rfl
    rw [own]
    exact ⟨handed_ignoresLocals, handed_coversKernels head⟩

end Routine

/-- Calls change only buffers that are passed to them where their routines are known to store. -/
theorem contained_callRoutine {body : Body} {limits : Limits} {stored : List (List Nat)}
    (accounts : ∀ index, Accounts stored (stored.getD index []) (body.routine index))
    (frames : Nat) : Contained stored (callRoutine body limits frames) := by
  induction frames with
  | zero => intro callee values shared later result ran; cases ran
  | succ frames ih =>
    intro callee values shared later result ran
    obtain ⟨-, left⟩ := enter_eq_ok.1 (within_eq_ok.1 ran)
    obtain ⟨flow, machine, ended, rfl, -⟩ := leaveRoutine_eq_ok.1 left
    obtain ⟨-, count, extents, elements⟩ :=
      (handed_body ih (accounts callee) rfl rfl).after ended (tethered_entry _ _ _)
    exact ⟨count, extents, elements⟩

end TwoTier.Native
