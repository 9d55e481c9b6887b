import Mathlib.Data.List.Nodup
import TwoTier.Dispatch.Convention
import TwoTier.Proofs.Patterns

namespace TwoTier.Dispatch

open Interp (Address Heap Value)

variable {value : Value} {items : Array Value} {buffer : Array UInt64} {kinds : List Kind}

def decoded (element : NumType) (buffer : Array UInt64) : Array Value :=
  buffer.map fun bits => .ofScalar (.ofBits element bits)

def bufferIndex (kinds : List Kind) (position : Nat) : Nat :=
  (kinds.take position).countP (·.isArray)

section Items

variable {element : NumType}

theorem ofScalar_of_scalar? (same : scalar? value = some scalar) :
    Value.ofScalar scalar = value := by
  cases value <;> cases same <;> rfl

theorem itemPattern?_eq_some (fits : itemPattern? element value = some bits) :
    element ≠ .bool ∧ Value.ofScalar (.ofBits element bits) = value ∧
      (Scalar.ofBits element bits).bits = bits := by
  unfold itemPattern? pattern? at fits
  split at fits
  · cases fits
  · rename_i admitted
    split at fits
    · rename_i scalar same
      split at fits
      · rename_i type
        cases fits
        subst type
        rw [Scalar.ofBits_bits]
        exact ⟨admitted, ofScalar_of_scalar? same, rfl⟩
      · cases fits
    · cases fits

/-- The buffer of a list stands for the items of the list. -/
structure Encodes (element : NumType) (items : Array Value) (buffer : Array UInt64) : Prop where
  decoded : decoded element buffer = items
  patterns : (buffer.map (Scalar.ofBits element)).map Scalar.bits = buffer
  element : element ≠ .bool ∨ items = #[]

private theorem encodes_of_list {items : List Value} {patterns : List UInt64}
    (mapped : items.mapM (itemPattern? element) = some patterns) :
    Encodes element items.toArray patterns.toArray := by
  induction items generalizing patterns with
  | nil =>
    cases mapped
    exact ⟨by simp [Dispatch.decoded], by simp, .inr rfl⟩
  | cons item rest ih =>
    rw [List.mapM_cons] at mapped
    obtain ⟨bits, fits, further⟩ := Option.bind_eq_some_iff.1 mapped
    obtain ⟨others, rested, same⟩ := Option.bind_eq_some_iff.1 further
    cases same
    obtain ⟨admitted, value, pattern⟩ := itemPattern?_eq_some fits
    obtain ⟨values, patterns, -⟩ := ih rested
    simp only [Dispatch.decoded, List.map_toArray, Array.mk.injEq] at values patterns
    refine ⟨?_, ?_, .inl admitted⟩
    · simp [Dispatch.decoded, value, values]
    · simp only [List.map_toArray, List.map_cons, pattern, patterns]

theorem encodes_of_mapM (mapped : items.mapM (itemPattern? element) = some buffer) :
    Encodes element items buffer := by
  rw [Array.mapM_eq_mapM_toList] at mapped
  obtain ⟨patterns, listed, rfl⟩ := Option.map_eq_some_iff.1 mapped
  exact encodes_of_list listed

theorem refreshed_eq_decoded (size : buffer.size = items.size)
    (typed : element ≠ .bool ∨ items = #[]) :
    refreshed element items buffer = decoded element buffer := by
  refine Array.ext (by simp [refreshed, decoded, size]) fun index inside _ => ?_
  have within : index < items.size := by simpa [refreshed] using inside
  have known : index < buffer.size := size ▸ within
  have other : (if element = .float then NumType.float else .int) = element := by
    rcases typed with typed | rfl
    · cases element with
      | int | float => rfl
      | bool => exact absurd rfl typed
    · simp at within
  simp [refreshed, decoded, known, other]

end Items

section Numbering

theorem bufferIndex_append {more : List Kind} (inside : position ≤ kinds.length) :
    bufferIndex (kinds ++ more) position = bufferIndex kinds position := by
  rw [bufferIndex, List.take_append_of_le_length inside, bufferIndex]

theorem bufferIndex_length (kinds : List Kind) :
    bufferIndex kinds kinds.length = kinds.countP (·.isArray) := by
  rw [bufferIndex, List.take_length]

theorem bufferIndex_cons (kind : Kind) (kinds : List Kind) (position : Nat) :
    bufferIndex (kind :: kinds) (position + 1) =
      bufferIndex kinds position + if kind.isArray then 1 else 0 := by
  simp [bufferIndex, List.countP_cons]

theorem bufferIndex_inj {first second : Nat} {left right : NumType}
    (here : kinds[first]? = some (.array left)) (there : kinds[second]? = some (.array right))
    (same : bufferIndex kinds first = bufferIndex kinds second) : first = second := by
  induction kinds generalizing first second with
  | nil => cases here
  | cons kind kinds ih =>
    cases first with
    | zero =>
      cases second with
      | zero => rfl
      | succ second =>
        cases here
        simp [bufferIndex, Kind.isArray] at same
    | succ first =>
      cases second with
      | zero =>
        cases there
        simp [bufferIndex, Kind.isArray] at same
      | succ second =>
        rw [bufferIndex_cons, bufferIndex_cons, Nat.add_right_cancel_iff] at same
        exact congrArg Nat.succ (ih here there same)

end Numbering

section Lowering

variable {heap : Heap} {done : List (Kind × Value)} {lowered next : Lowered}

/-- The arguments lowered so far: each array has its own buffer, which stands for its list. -/
structure Lowers (heap : Heap) (done : List (Kind × Value)) (lowered : Lowered) : Prop where
  distinct : (lowered.lists.map (·.address)).Nodup
  aligned : lowered.frame.arrays.length = lowered.lists.length
  count : lowered.lists.length = (done.map (·.1)).countP (·.isArray)
  origin : ∀ {list}, list ∈ lowered.lists →
    done[list.position]? = some (.array list.element, .list list.address)
  listed : ∀ {position element value}, done[position]? = some (.array element, value) →
    ∃ address buffer, value = .list address ∧
      lowered.lists[bufferIndex (done.map (·.1)) position]? = some ⟨address, element, position⟩ ∧
      lowered.frame.arrays[bufferIndex (done.map (·.1)) position]? = some buffer ∧
      Encodes element (heap.items address) buffer
  scalars : ∀ {position : Nat} {type : NumType} {address : Address},
    done[position]? ≠ some (.scalar type, .list address)

/-- What holds of an argument among others that are followed by one more. -/
private theorem of_getElem?_concat {found : Kind × Value}
    (present : (done ++ [arg])[position]? = some found) :
    (position < done.length ∧ done[position]? = some found) ∨
      position = done.length ∧ found = arg := by
  rcases Nat.lt_trichotomy position done.length with inside | rfl | outside
  · rw [List.getElem?_append_left inside] at present
    exact .inl ⟨inside, present⟩
  · rw [List.getElem?_concat_length] at present
    exact .inr ⟨rfl, (Option.some.inj present).symm⟩
  · rw [List.getElem?_eq_none (by simpa using Nat.succ_le_of_lt outside)] at present
    cases present

private theorem lowers_scalar (lowers : Lowers heap done lowered)
    (fits : pattern? type value = some bits) :
    Lowers heap (done ++ [(.scalar type, value)]) (lowered.withScalar bits) where
  distinct := lowers.distinct
  aligned := lowers.aligned
  count := by
    rw [List.map_append, List.countP_append]
    exact lowers.count
  origin member := by
    have known := lowers.origin member
    rwa [List.getElem?_append_left (List.getElem?_eq_some_iff.1 known).1]
  listed present := by
    rcases of_getElem?_concat present with ⟨inside, known⟩ | ⟨-, same⟩
    · rw [List.map_append, bufferIndex_append (by simpa using Nat.le_of_lt inside)]
      exact lowers.listed known
    · cases same
  scalars present := by
    rcases of_getElem?_concat present with ⟨-, known⟩ | ⟨-, same⟩
    · exact lowers.scalars known
    · cases same
      cases fits

private theorem lowers_array (lowers : Lowers heap done lowered) {element : NumType}
    {address : Address} (other : lowered.holds address = false)
    (encodes : Encodes element (heap.items address) buffer) :
    Lowers heap (done ++ [(.array element, .list address)])
      (lowered.withList ⟨address, element, done.length⟩ buffer) where
  distinct := by
    have apart : address ∉ lowered.lists.map (·.address) := by
      simpa [Lowered.holds] using other
    simpa [Lowered.withList, List.nodup_append] using
      ⟨lowers.distinct, fun list member same => apart (List.mem_map.2 ⟨list, member, same⟩)⟩
  aligned := by simp [Lowered.withList, lowers.aligned]
  count := by
    rw [List.map_append, List.countP_append, ← lowers.count]
    simp [Lowered.withList, Kind.isArray]
  origin {list} member := by
    rcases List.mem_append.1 member with known | last
    · have found := lowers.origin known
      rwa [List.getElem?_append_left (List.getElem?_eq_some_iff.1 found).1]
    · cases List.mem_singleton.1 last
      exact List.getElem?_concat_length
  listed {position _ _} present := by
    rcases of_getElem?_concat present with ⟨inside, known⟩ | ⟨rfl, same⟩
    · obtain ⟨address, buffer, rfl, list, own, encodes⟩ := lowers.listed known
      rw [List.map_append, bufferIndex_append (by simpa using Nat.le_of_lt inside)]
      refine ⟨address, buffer, rfl, ?_, ?_, encodes⟩
      · exact (List.getElem?_append_left (List.getElem?_eq_some_iff.1 list).1).trans list
      · exact (List.getElem?_append_left (List.getElem?_eq_some_iff.1 own).1).trans own
    · cases same
      have next : bufferIndex (done.map (·.1)) done.length = lowered.lists.length := by
        rw [lowers.count, ← bufferIndex_length, List.length_map]
      rw [List.map_append, bufferIndex_append (by simp), next]
      refine ⟨address, buffer, rfl, List.getElem?_concat_length, ?_, encodes⟩
      rw [← lowers.aligned]
      exact List.getElem?_concat_length
  scalars present := by
    rcases of_getElem?_concat present with ⟨-, known⟩ | ⟨-, same⟩
    · exact lowers.scalars known
    · cases same

theorem Lowers.add (lowers : Lowers heap done lowered)
    (added : lowered.add? heap done.length arg = some next) : Lowers heap (done ++ [arg]) next := by
  unfold Lowered.add? at added
  split at added
  · obtain ⟨bits, fits, rfl⟩ := Option.map_eq_some_iff.1 added
    exact lowers_scalar lowers fits
  · split at added
    · cases added
    · rename_i other
      obtain ⟨buffer, mapped, rfl⟩ := Option.map_eq_some_iff.1 added
      exact lowers_array lowers (Bool.eq_false_iff.2 other) (encodes_of_mapM mapped)
  · cases added

theorem Lowers.addAll {rest : List (Kind × Value)} (lowers : Lowers heap done lowered)
    (added : lowered.addAll? heap done.length rest = some next) :
    Lowers heap (done ++ rest) next := by
  induction rest generalizing done lowered with
  | nil =>
    cases added
    simpa using lowers
  | cons arg rest ih =>
    unfold Lowered.addAll? at added
    split at added
    · rename_i further first
      rw [List.append_cons]
      refine ih (lowers.add first) ?_
      rwa [List.length_append]
    · cases added

theorem lowers_of_ofArgs? {args : List Value}
    (given : Lowered.ofArgs? heap kinds args = some lowered) :
    kinds.length = args.length ∧ Lowers heap (kinds.zip args) lowered := by
  unfold Lowered.ofArgs? at given
  split at given
  · cases given
  · rename_i same
    have none : Lowers heap [] {} := ⟨.nil, rfl, rfl, nofun, nofun, nofun⟩
    exact ⟨not_not.1 same, none.addAll given⟩

end Lowering

section WritingBack

variable {heap : Heap} {stores : List (LoweredList × Array UInt64)}

theorem getElem?_modifyItems (heap : Heap) (address other : Address)
    (change : Array Value → Array Value) :
    (heap.modifyItems address change).objects[other]? =
      if address = other then heap.objects[other]?.map fun
        | .list items => .list (change items)
        | object => object
      else heap.objects[other]? :=
  Array.getElem?_modify

theorem getElem?_writeBack_of_ne (apart : ∀ store ∈ stores, store.1.address ≠ address) :
    (writeBack heap stores).objects[address]? = heap.objects[address]? := by
  induction stores generalizing heap with
  | nil => rfl
  | cons store rest ih =>
    refine (ih fun other member => apart other (.tail _ member)).trans ?_
    rw [getElem?_modifyItems, if_neg (apart store (.head _))]

theorem getElem?_writeBack_of_mem (distinct : (stores.map (·.1.address)).Nodup) {list : LoweredList}
    (member : (list, buffer) ∈ stores) (held : heap.objects[list.address]? = some (.list items)) :
    (writeBack heap stores).objects[list.address]? =
      some (.list (refreshed list.element items buffer)) := by
  induction stores generalizing heap with
  | nil => cases member
  | cons store rest ih =>
    rw [List.map_cons, List.nodup_cons] at distinct
    rw [writeBack, List.foldl_cons]
    rcases member with _ | ⟨_, later⟩
    · refine (getElem?_writeBack_of_ne fun other among same => ?_).trans ?_
      · exact distinct.1 (List.mem_map.2 ⟨other, among, same⟩)
      · rw [getElem?_modifyItems, if_pos rfl, held]
        rfl
    · refine ih distinct.2 later ?_
      rw [getElem?_modifyItems, if_neg, held]
      intro same
      exact distinct.1 (same ▸ List.mem_map.2 ⟨_, later, rfl⟩)

theorem mem_stores {lowered : Lowered} {stored : List Nat} {list : LoweredList} :
    (list, buffer) ∈ lowered.stores stored arrays ↔
      (∃ index : Nat, lowered.lists[index]? = some list ∧ arrays[index]? = some buffer) ∧
        list.position ∈ stored := by
  rw [Lowered.stores, List.mem_filter, List.mem_iff_getElem?]
  simp [List.getElem?_zip_eq_some]

private theorem fst_zip_sublist :
    ∀ (items : List α) (others : List β), ((items.zip others).map (·.1)).Sublist items
  | [], _ => .slnil
  | _ :: _, [] => List.nil_sublist _
  | _ :: items, _ :: others => (fst_zip_sublist items others).cons_cons _

theorem nodup_stores {lowered : Lowered} (distinct : (lowered.lists.map (·.address)).Nodup)
    (stored : List Nat) (arrays : List (Array UInt64)) :
    ((lowered.stores stored arrays).map (·.1.address)).Nodup := by
  have part : ((lowered.stores stored arrays).map (·.1)).Sublist lowered.lists :=
    (List.filter_sublist.map _).trans (fst_zip_sublist _ _)
  have whole := distinct.sublist (part.map (·.address))
  rwa [List.map_map] at whole

end WritingBack

end TwoTier.Dispatch
