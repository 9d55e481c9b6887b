import TwoTier.Proofs.Step

namespace TwoTier.Native

open Typed (LocalId)

namespace Shared

/-- An element of a buffer; there is none beyond its end. -/
def element (shared : Shared) (buffer position : Nat) : Option Scalar :=
  (shared.buffers.getD buffer #[])[position]?

def extent (shared : Shared) (buffer : Nat) : Nat := (shared.buffers.getD buffer #[]).size

/-- Stores an element; nothing happens beyond the end of a buffer. -/
def put (shared : Shared) (buffer position : Nat) (value : Scalar) : Shared :=
  { shared with buffers := shared.buffers.modify buffer (·.setIfInBounds position value) }

variable {shared : Shared}

theorem element_eq_none : shared.element buffer position = none ↔ shared.extent buffer ≤ position :=
  Array.getElem?_eq_none_iff

theorem ext_elements {first second : Shared} (depth : second.depth = first.depth)
    (count : second.buffers.size = first.buffers.size)
    (elements : ∀ buffer position, second.element buffer position = first.element buffer position) :
    second = first := by
  obtain ⟨secondBuffers, _⟩ := second
  congr 1
  refine Array.ext count fun buffer below here => Array.ext_getElem? fun position => ?_
  have same := elements buffer position
  simpa [element, below, here] using same

theorem getD_put (buffer position other : Nat) (value : Scalar) :
    (shared.put buffer position value).buffers.getD other #[] =
      if other = buffer then (shared.buffers.getD other #[]).setIfInBounds position value
      else shared.buffers.getD other #[] := by
  simp only [put, Array.getD_eq_getD_getElem?, Array.getElem?_modify]
  split
  · rename_i same
    subst same
    cases shared.buffers[buffer]? <;> simp
  · rename_i other
    rw [if_neg (Ne.symm other)]

theorem element_put (buffer position other place : Nat) (value : Scalar) :
    (shared.put buffer position value).element other place =
      if other = buffer ∧ place = position ∧ position < shared.extent buffer then some value
      else shared.element other place := by
  unfold element
  rw [getD_put]
  by_cases same : other = buffer
  · unfold extent
    grind
  · simp [same]

theorem extent_put (buffer position other : Nat) (value : Scalar) :
    (shared.put buffer position value).extent other = shared.extent other := by
  unfold extent
  rw [getD_put]
  split <;> simp

theorem count_put (buffer position : Nat) (value : Scalar) :
    (shared.put buffer position value).buffers.size = shared.buffers.size := by simp [put]

structure SameIn (part : Nat → Nat → Prop) (first second : Shared) : Prop where
  count : second.buffers.size = first.buffers.size
  extents : ∀ buffer, second.extent buffer = first.extent buffer
  elements : ∀ buffer position, part buffer position →
    second.element buffer position = first.element buffer position

namespace SameIn

variable {part : Nat → Nat → Prop} {first second third : Shared}

theorem refl (shared : Shared) : SameIn part shared shared := ⟨rfl, fun _ => rfl, fun _ _ _ => rfl⟩

section

variable (same : SameIn part first second)

include same

theorem symm : SameIn part second first :=
  ⟨same.count.symm, fun buffer => (same.extents buffer).symm,
    fun buffer position within => (same.elements buffer position within).symm⟩

theorem trans (next : SameIn part second third) :
    SameIn part first third :=
  ⟨next.count.trans same.count, fun buffer => (next.extents buffer).trans (same.extents buffer),
    fun buffer position within =>
      (next.elements buffer position within).trans (same.elements buffer position within)⟩

theorem mono {other : Nat → Nat → Prop}
    (within : ∀ buffer position, other buffer position → part buffer position) :
    SameIn other first second :=
  ⟨same.count, same.extents, fun buffer position member =>
    same.elements buffer position (within buffer position member)⟩

theorem put (value : Scalar) (outside : ¬ part buffer position) :
    SameIn part first (second.put buffer position value) where
  count := by rw [count_put, same.count]
  extents other := by rw [extent_put, same.extents]
  elements other place within := by
    rw [element_put, if_neg, same.elements other place within]
    rintro ⟨rfl, rfl, _⟩
    exact outside within

theorem both (buffer position : Nat) (value : Scalar) :
    SameIn part (first.put buffer position value) (second.put buffer position value) where
  count := by rw [count_put, count_put, same.count]
  extents other := by rw [extent_put, extent_put, same.extents]
  elements other place within := by
    rw [element_put, element_put, same.extents, same.elements other place within]

end

end SameIn

end Shared

namespace Machine

variable {machine after : Machine} {id : LocalId}

theorem length_eq_ok {length : Int64} :
    Machine.length id machine = .ok length after ↔
      after = machine ∧
        (machine.slots[id]? = some (.array none) ∧ length = 0 ∨
          ∃ buffer, machine.slots[id]? = some (.array (some buffer)) ∧
            length = Int64.ofNat (machine.shared.extent buffer)) := by
  unfold Machine.length Shared.extent
  cases machine.slots[id]? with
  | none => simp
  | some slot =>
    cases slot with
    | scalar => simp
    | array buffer => cases buffer <;> simp [eq_comm, and_comm]

theorem buffer_eq_ok {elements : Array Scalar} :
    Machine.buffer id machine = .ok elements after ↔
      after = machine ∧
        (machine.slots[id]? = some (.array none) ∧ elements = #[] ∨
          ∃ buffer, machine.slots[id]? = some (.array (some buffer)) ∧
            elements = machine.shared.buffers.getD buffer #[]) := by
  unfold Machine.buffer
  cases machine.slots[id]? with
  | none => simp
  | some slot =>
    cases slot with
    | scalar => simp
    | array buffer => cases buffer <;> simp [eq_comm, and_comm]

theorem load_eq_ok {value : Scalar} :
    Machine.load id position machine = .ok value after ↔
      after = machine ∧ ∃ buffer, machine.slots[id]? = some (.array (some buffer)) ∧
        machine.shared.element buffer position = some value := by
  unfold Machine.load Shared.element
  rw [Step.bind_eq_ok]
  constructor
  · rintro ⟨elements, between, found, picked⟩
    obtain ⟨rfl, ⟨_, rfl⟩ | ⟨buffer, held, rfl⟩⟩ := buffer_eq_ok.1 found
    · simp at picked
    · cases inside : (between.shared.buffers.getD buffer #[])[position]? with
      | none => simp only [inside, Step.stuck_eq_ok] at picked
      | some element =>
        simp only [inside] at picked
        obtain ⟨rfl, rfl⟩ := picked
        exact ⟨rfl, buffer, held, inside⟩
  · rintro ⟨rfl, buffer, held, inside⟩
    exact ⟨_, after, buffer_eq_ok.2 ⟨rfl, .inr ⟨buffer, held, rfl⟩⟩, by simp only [inside]; rfl⟩

theorem store_eq_ok {value : Scalar} {result : Unit} :
    Machine.store id position value machine = .ok result after ↔
      ∃ buffer, machine.slots[id]? = some (.array (some buffer)) ∧
        after = { machine with shared := machine.shared.put buffer position value } := by
  unfold Machine.store Shared.put
  cases machine.slots[id]? with
  | none => simp
  | some slot =>
    cases slot with
    | scalar => simp
    | array buffer => cases buffer <;> simp [eq_comm]

end Machine
end TwoTier.Native
