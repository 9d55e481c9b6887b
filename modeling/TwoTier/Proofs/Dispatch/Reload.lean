import TwoTier.Dispatch.Engine
import TwoTier.Proofs.Worlds.Calls

namespace TwoTier.Interp

/-- A value that refers to none of the first objects of a heap. -/
def Value.Beyond (count : Nat) (value : Value) : Prop :=
  ∀ address, value.address? = some address → count ≤ address

/-- A heap that keeps all objects of an earlier one, and whose new objects refer to none of them. -/
structure Heap.Beside (before heap : Heap) : Prop where
  size_le : before.objects.size ≤ heap.objects.size
  same : ∀ address < before.objects.size, heap.objects[address]? = before.objects[address]?
  others : ∀ {address object}, before.objects.size ≤ address →
    heap.objects[address]? = some object → object.All (·.Beyond before.objects.size)

/-- Only objects made after these are in use, and the output begins with this text. -/
def newcomers (τ : Type) (before : Heap) (output : String) : Policy τ τ where
  admits := (·.Beyond before.objects.size)
  binds _ := True
  heap := before.Beside
  globals table := ∀ entry ∈ table, entry.2.Beyond before.objects.size
  output text := ∃ printed, text = output ++ printed
  tier _ _ := True

section Newcomers

variable {before heap : Heap} {object : Object}

theorem Heap.Beside.refl (heap : Heap) : heap.Beside heap where
  size_le := Nat.le_refl _
  same _ _ := rfl
  others outside found :=
    absurd (Array.getElem?_eq_some_iff.1 found).1 (Nat.not_lt.2 outside)

theorem Heap.Beside.alloc (beside : before.Beside heap)
    (all : object.All (·.Beyond before.objects.size)) : before.Beside (heap.alloc object).2 where
  size_le := by
    rw [Heap.alloc, Array.size_push]
    exact Nat.le_succ_of_le beside.size_le
  same address inside := by
    have older : address < heap.objects.size := Nat.lt_of_lt_of_le inside beside.size_le
    rw [← beside.same address inside, Heap.alloc, Array.getElem?_push_lt older,
      Array.getElem?_eq_getElem older]
  others {address other} outside found := by
    rw [Heap.alloc, Array.getElem?_push] at found
    split at found
    · cases found
      exact all
    · exact beside.others outside found

theorem Heap.Beside.modify (beside : before.Beside heap) (outside : before.objects.size ≤ address)
    {change : Object → Object}
    (kept : ∀ object : Object, object.All (·.Beyond before.objects.size) → (change object).All
      (·.Beyond before.objects.size)) :
    before.Beside ⟨heap.objects.modify address change⟩ where
  size_le := by
    rw [Array.size_modify]
    exact beside.size_le
  same other inside := by
    have different : address ≠ other := Nat.ne_of_gt (Nat.lt_of_lt_of_le inside outside)
    rw [Array.getElem?_modify, if_neg different, beside.same other inside]
  others {other found} beyond present := by
    rw [Array.getElem?_modify] at present
    split at present
    · obtain ⟨old, there, rfl⟩ := Option.map_eq_some_iff.1 present
      exact kept old (beside.others beyond there)
    · exact beside.others beyond present

/-- Whoever starts with no older object never gets at one. -/
theorem sound_newcomers (τ : Type) (before : Heap) (output : String) :
    (newcomers τ before output).Sound where
  plain unrefers address refers := by
    rw [unrefers] at refers
    cases refers
  made beside all := beside.alloc all
  fresh {heap value} beside refers address same := by
    rw [refers] at same
    cases same
    exact beside.size_le
  inside beside admitted refers found := beside.others (admitted _ refers) found
  changed beside admitted refers kept := beside.modify (admitted _ refers) kept
  named all found := all _ (Table.mem_of_get? found)
  bound all _ admitted entry member := by
    obtain old | new := Table.mem_set member
    · exact all entry old
    · exact new ▸ admitted
  printed text begun := by
    obtain ⟨printed, rfl⟩ := begun
    exact ⟨printed ++ text, String.append_assoc ..⟩

end Newcomers

/-- A failed load keeps all objects there were and only adds to the output. -/
theorem Image.load_error_beside {source : String} {maxDepth : Nat} {heap : Heap} {output : String}
    {failure : LoadFailure} (failed : Image.load source maxDepth heap output = .error failure) :
    heap.Beside failure.heap ∧ ∃ printed, failure.output = output ++ printed := by
  have unchanged : heap.Beside heap ∧ ∃ printed, output = output ++ printed :=
    ⟨.refl heap, "", (String.append_empty ..).symm⟩
  unfold Image.load at failed
  split at failed
  · cases failed
    exact unchanged
  · rename_i module read
    let policy := newcomers Unit heap output
    have sound : policy.Sound := sound_newcomers Unit heap output
    let program := Program.ofModule module
    let calls := callsAt program loopAllowance (τ := Unit) .direct maxDepth
    let world : World Unit := ⟨heap, [("__name__", .str libraryName)], output, ()⟩
    have start : World.Pairs policy world world := by
      refine .intro ⟨.refl heap, fun entry member => ?_, unchanged.2⟩ trivial
      obtain rfl := List.mem_singleton.1 member
      exact sound.plain rfl
    have obey : calls.Obey policy calls :=
      sound.obey_callsAt Route.obeys_direct (fun _ _ _ _ _ => trivial) maxDepth .refl
    have body : policy.Runs (fun _ => True) (runModule program loopAllowance calls)
        (runModule program loopAllowance calls) :=
      sound.runs_runModule obey fun _ _ _ _ => trivial
    have agreed := body.agrees start
    dsimp only at failed
    generalize ended : runModule program loopAllowance calls world = result at agreed
    rw [ended] at failed
    cases result with
    | ok value after => cases failed
    | raised exception after =>
      cases failed
      cases agreed with
      | raised pairs =>
        cases pairs with
        | intro obeys => exact ⟨obeys.heap, obeys.output⟩
    | exhausted =>
      cases failed
      exact unchanged

end TwoTier.Interp

namespace TwoTier.Dispatch

open Interp (Address Image LoadFault Object Value)

/-- A reload that fails changes nothing: the program with its functions and constants, the module
names, every entry of the dispatcher and every object are as before. Only the output may have
grown. -/
theorem Engine.reload_error_unchanged {engine later : Engine} {source : String} {fault : LoadFault}
    (failed : engine.reload source = (.error fault, later)) :
    later.program = engine.program ∧ later.registry = engine.registry ∧
      later.world.globals = engine.world.globals ∧
      (∀ (address : Address) (object : Object), engine.world.heap.objects[address]? = some object →
        later.world.heap.objects[address]? = some object) ∧
      ∃ printed, later.world.output = engine.world.output ++ printed := by
  unfold Engine.reload at failed
  dsimp only at failed
  split at failed
  · cases failed
  · rename_i failure loaded
    cases failed
    obtain ⟨beside, grown⟩ := Image.load_error_beside loaded
    refine ⟨rfl, rfl, rfl, fun address object found => ?_, grown⟩
    have inside := (Array.getElem?_eq_some_iff.1 found).1
    exact (beside.same address inside).trans found

/-- A list in a module name. -/
def stockSource : String := "stock = [1, 2]\n\ndef count():\n    return len(stock)\n"

/-- Prints and changes objects of its own before it fails. -/
def failingSource : String :=
  "stock = [3]\nfor i in range(2):\n    stock.append(i)\nprint(stock)\nstock[0] = 1 // 0\n"

/-- The three items that the failing version has put into a list are printed, and the list of two
items that the module name of the old version holds is still one of two items. -/
theorem reload_error_unchanged_stock :
    ∃ engine later fault, Engine.start stockSource {} = .ok engine ∧
      engine.reload failingSource = (.error fault, later) ∧
      later.world.output = "[3, 0, 1]\n" ∧ later.program = engine.program ∧
      later.registry = engine.registry ∧ later.world.globals = engine.world.globals ∧
      (later.world.heap.items 0).size = 2 := by
  have evaluated : (match Engine.start stockSource {} with
      | .ok engine =>
        match engine.reload failingSource with
        | (.error _, later) =>
          later.world.output == "[3, 0, 1]\n" && (engine.world.heap.items 0).size == 2
        | (.ok _, _) => false
      | .error _ => false) = true := by decide +kernel
  split at evaluated
  · rename_i engine started
    split at evaluated
    · rename_i fault later failed
      obtain ⟨program, registry, globals, objects, -⟩ := Engine.reload_error_unchanged failed
      simp only [Bool.and_eq_true, beq_iff_eq] at evaluated
      refine ⟨engine, later, fault, started, failed, evaluated.1, program, registry, globals, ?_⟩
      have size := evaluated.2
      unfold Interp.Heap.items at size ⊢
      split at size
      · rename_i found
        rw [objects _ _ found]
        exact size
      · rename_i found
        rw [objects _ _ found]
        exact size
      · cases size
    · cases evaluated
  · cases evaluated

end TwoTier.Dispatch
