import TwoTier.Proofs.Worlds.Policy

namespace TwoTier.Interp

variable {heap : Heap} {value item : Value} {address : Address} {holds : Heap → Prop}
  {args : List Value}

variable {τ υ : Type} {policy : Policy τ υ}

/-- A run of objects that obeys a policy and gives a good result. -/
abbrev Policy.Gives {α : Type} (policy : Policy τ υ) (good : α → Prop) (run : Run Heap α) : Prop :=
  Run.Yields policy.heap good run

namespace Policy.Sound

variable (sound : policy.Sound)

include sound

section

variable (obeys : policy.heap heap)

include obeys

theorem items (admitted : policy.admits value)
    (refers : value.address? = some address) : ∀ item ∈ heap.items address, policy.admits item := by
  intro item member
  unfold Heap.items at member
  split at member
  iterate 2
    · rename_i found
      exact sound.inside obeys admitted refers found item member
  · simp at member

theorem entries (admitted : policy.admits (.dict address)) :
    ∀ entry ∈ heap.entries address, policy.admits entry.1 ∧ policy.admits entry.2 := by
  intro entry member
  unfold Heap.entries at member
  split at member
  · rename_i found
    exact sound.inside obeys admitted rfl found entry member
  · simp at member

theorem captured {made : Closure}
    (admitted : policy.admits (.closure address)) (found : heap.closure? address = some made) :
    ∀ entry ∈ made.captured, policy.admits entry.2 := by
  unfold Heap.closure? at found
  split at found
  · rename_i present
    cases found
    exact sound.inside obeys admitted rfl present
  · cases found

theorem modifyItems {change : Array Value → Array Value} (admitted : policy.admits (.list address))
    (kept : ∀ items : Array Value, (∀ item ∈ items, policy.admits item) → ∀ item ∈ change items,
      policy.admits item) : policy.heap (heap.modifyItems address change) := by
  refine sound.changed obeys admitted rfl fun object all => ?_
  split
  · exact kept _ all
  · exact all

theorem modifyEntries {change : Array (Value × Value) → Array (Value × Value)}
    (admitted : policy.admits (.dict address))
    (kept : ∀ entries : Array (Value × Value), (∀ entry ∈ entries, policy.admits entry.1 ∧
      policy.admits entry.2) → ∀ entry ∈ change entries, policy.admits entry.1 ∧ policy.admits
      entry.2) : policy.heap (heap.modifyEntries address change) := by
  refine sound.changed obeys admitted rfl fun object all => ?_
  split
  · exact kept _ all
  · exact all

end

variable {other : Value}

theorem getD {values : List Value} (all : ∀ value ∈ values, policy.admits value) (place : Nat)
    (plain : other.address? = none) : policy.admits (values.getD place other) := by
  rw [List.getD_eq_getElem?_getD]
  cases found : values[place]? with
  | none => exact sound.plain plain
  | some value => exact all value (List.mem_of_getElem? found)

variable {items : Array Value}

theorem getD_array (all : ∀ item ∈ items, policy.admits item) (place : Nat)
    (plain : other.address? = none) : policy.admits (items.getD place other) := by
  rw [Array.getD_eq_getD_getElem?]
  cases found : items[place]? with
  | none => exact sound.plain plain
  | some item => exact all item (Array.mem_of_getElem? found)

/-! ### New objects -/

theorem gives_alloc (object : Object) (refer : Address → Value) (all : object.All policy.admits)
    (refers : ∀ address, (refer address).address? = some address) :
    policy.Gives policy.admits fun heap =>
      let (address, heap) := heap.alloc object
      .ok (refer address) heap :=
  ⟨fun obeys => ⟨sound.fresh obeys (refers _), sound.made obeys all⟩⟩

theorem gives_newList (all : ∀ item ∈ items, policy.admits item) :
    policy.Gives policy.admits (newList items) :=
  sound.gives_alloc (.list items) .list all fun _ => rfl

theorem gives_newTuple (all : ∀ item ∈ items, policy.admits item) :
    policy.Gives policy.admits (newTuple items) :=
  sound.gives_alloc (.tuple items) .tuple all fun _ => rfl

variable {entries : Array (Value × Value)}

theorem gives_newDict (all : ∀ entry ∈ entries, policy.admits entry.1 ∧ policy.admits entry.2) :
    policy.Gives policy.admits (newDict entries) :=
  sound.gives_alloc (.dict entries) .dict all fun _ => rfl

/-! ### Operators -/

theorem gives_iterate (admitted : policy.admits value) :
    policy.Gives (fun items => ∀ item ∈ items, policy.admits item) (iterate value) := by
  refine .inspect fun heap obeys => ?_
  split
  · exact .pure (sound.items obeys admitted rfl)
  · exact .pure (sound.items obeys admitted rfl)
  iterate 2
    · refine .pure fun item member => sound.plain ?_
      simp only [List.mem_toArray, List.mem_map] at member
      obtain ⟨_, _, rfl⟩ := member
      rfl
  · refine .pure fun item member => ?_
    obtain ⟨entry, inside, rfl⟩ := Array.mem_map.1 member
    exact (sound.entries obeys admitted entry inside).1
  · exact .raise _

omit sound

abbrev Plain : Value → Prop := fun value => value.address? = none

theorem plain_ofArith {result : Except ArithFault α} {wrap : α → Value}
    (plain : ∀ value, Plain (wrap value)) :
    Run.Yields holds Plain (wrap <$> Run.ofArith result) := by
  have reached : Run.Yields holds (fun _ => True) (Run.ofArith result) := by
    cases result with
    | ok value => exact .pure trivial
    | error fault => exact .raise _
  exact reached.map fun value _ => plain value

theorem plain_checked (result : Option Int64) : Run.Yields holds Plain (checked result) := by
  cases result with
  | none => exact .raise _
  | some value => exact .pure rfl

theorem plain_wordBinary (op : Surface.BinOp) (x y : Int64) :
    Run.Yields holds Plain (wordBinary op x y) := by
  cases op with
  | add | sub | mul => exact plain_checked _
  | div | floorDiv | mod | shl | shr => exact plain_ofArith fun _ => rfl
  | pow =>
    rw [wordBinary]
    split
    · exact plain_ofArith fun _ => rfl
    · exact plain_ofArith fun _ => rfl
  | bitAnd | bitOr | bitXor => exact .pure rfl
  | matMul => exact .raise _

theorem plain_floatBinary (op : Surface.BinOp) (a b : Value) :
    Run.Yields holds Plain (floatBinary op a b) := by
  unfold floatBinary
  split
  · cases op with
    | add | sub | mul => exact .pure rfl
    | div | floorDiv | mod | pow => exact plain_ofArith fun _ => rfl
    | bitAnd | bitOr | bitXor | shl | shr | matMul => exact .raise _
  · exact .raise _

theorem plain_numberBinary (op : Surface.BinOp) (a b : Value) :
    Run.Yields holds Plain (numberBinary op a b) := by
  unfold numberBinary
  split
  · exact plain_floatBinary op a b
  · split
    · exact .pure rfl
    · exact .pure rfl
    · exact .pure rfl
    · split
      · exact plain_wordBinary op _ _
      · exact .raise _

include sound

theorem gives_plain {run : Run Heap Value} (yields : Run.Yields policy.heap Plain run) :
    policy.Gives policy.admits run :=
  yields.weaken fun _ plain => sound.plain plain

variable {a b : Value}

theorem gives_add (first : policy.admits a) (second : policy.admits b) :
    policy.Gives policy.admits (add a b) := by
  unfold add
  split
  · exact sound.gives_plain (plain_numberBinary _ a b)
  · refine .inspect fun heap obeys => ?_
    have joined {x y : Nat} (one : a.address? = some x) (two : b.address? = some y) :
        ∀ item ∈ heap.items x ++ heap.items y, policy.admits item := by
      intro item member
      obtain member | member := Array.mem_append.1 member
      · exact sound.items obeys first one item member
      · exact sound.items obeys second two item member
    split
    · exact .pure (sound.plain rfl)
    · exact sound.gives_newList (joined rfl rfl)
    · exact sound.gives_newTuple (joined rfl rfl)
    · exact .raise _

theorem gives_repeated {sequence : Value} (admitted : policy.admits sequence) (count : Int64) :
    policy.Gives policy.admits (repeated sequence count) := by
  refine .inspect fun heap obeys => ?_
  split
  · exact .pure (sound.plain rfl)
  · apply sound.gives_newList
    intro item member
    obtain ⟨items, copied, inside⟩ := List.mem_flatten.1 (List.mem_toArray.1 member)
    obtain rfl := (List.mem_replicate.1 copied).2
    exact sound.items obeys admitted rfl item (Array.mem_toList_iff.1 inside)
  · exact .raise _

theorem gives_binary (op : Surface.BinOp) (first : policy.admits a)
    (second : policy.admits b) : policy.Gives policy.admits (binary op a b) := by
  unfold binary
  split
  · exact sound.gives_plain (plain_numberBinary op a b)
  · split
    · exact sound.gives_add first second
    · split
      · exact sound.gives_repeated first _
      · exact sound.gives_repeated second _
      · exact .raise _
    · exact .raise _

theorem gives_unary (op : Surface.UnaryOp) (operand : Value) :
    policy.Gives policy.admits (unary op operand) := by
  apply sound.gives_plain
  unfold unary
  split
  · exact .inspect fun _ _ => .pure rfl
  · exact .pure rfl
  · exact .pure rfl
  · exact .raise _
  · split
    · exact plain_checked _
    · exact .raise _
  · split
    · exact .pure rfl
    · exact .raise _
  · split
    · exact .pure rfl
    · exact .raise _

omit sound

theorem keeps_contains (container item : Value) :
    Run.Yields holds (fun _ => True) (contains container item) := by
  refine .inspect fun heap _ => ?_
  split
  · exact .pure trivial
  · exact .pure trivial
  · exact .pure trivial
  · split
    · exact .pure trivial
    · exact .raise _
  · split
    · exact .pure trivial
    · exact .pure trivial
  · exact .raise _

theorem keeps_compareValues (op : Surface.CmpOp) (a b : Value) :
    Run.Yields holds (fun _ => True) (compareValues op a b) := by
  have ordered : Run.Yields holds (fun _ => True) (Run.ofExcept (order? op a b)) :=
    .ofExcept fun _ _ => trivial
  cases op with
  | eq | ne => exact .inspect fun _ _ => .pure trivial
  | lt | le | gt | ge => exact ordered.bind fun _ _ => .pure trivial
  | is | isNot => exact .pure trivial
  | isIn => exact keeps_contains b a
  | notIn => exact (keeps_contains b a).bind fun _ _ => .pure trivial

theorem keeps_check {holds : σ → Prop} (result : Except Exception α) :
    Run.Yields holds (fun _ => True) (Run.ofExcept result) :=
  .ofExcept fun _ _ => trivial

theorem keeps_checkArity (method : String) (args : List Value) (least most : Nat) :
    Run.Yields holds (fun _ => True) (checkArity method args least most) := by
  unfold checkArity
  split
  · exact .raise _
  · exact .pure trivial

include sound

/-! ### Items and methods -/

variable {container index : Value}

theorem gives_getItem (admitted : policy.admits container) :
    policy.Gives policy.admits (getItem container index) := by
  refine .inspect fun heap obeys => ?_
  split
  iterate 2
    · refine (keeps_check _).bind fun place _ => .pure ?_
      exact sound.getD_array (sound.items obeys admitted rfl) place rfl
  iterate 2
    · exact (keeps_check _).bind fun place _ => .pure (sound.plain rfl)
  · refine (keeps_check _).bind fun _ _ => ?_
    dsimp only
    split
    · rename_i found
      obtain ⟨place, _, found⟩ := Option.bind_eq_some_iff.1 found
      exact .pure (sound.entries obeys admitted _ (Array.mem_of_getElem? found)).2
    · exact .raise _
  · exact .raise _

omit sound in
theorem mem_putAt {place : Option Nat} {key : Value}
    {entry : Value × Value} (member : entry ∈ putAt place key item entries) :
    entry ∈ entries ∨ entry = (key, item) ∨ ∃ old ∈ entries, entry = (old.1, item) := by
  unfold putAt at member
  split at member
  · rename_i position
    obtain ⟨index, found⟩ := Array.mem_iff_getElem?.1 member
    rw [Array.getElem?_modify] at found
    split at found
    · obtain ⟨old, present, rfl⟩ := Option.map_eq_some_iff.1 found
      exact .inr (.inr ⟨old, Array.mem_of_getElem? present, rfl⟩)
    · exact .inl (Array.mem_of_getElem? found)
  · obtain member | same := Array.mem_push.1 member
    · exact .inl member
    · exact .inr (.inl same)

omit sound in
theorem all_putAt {place : Option Nat} {key : Value}
    (keyed : policy.admits key) (admitted : policy.admits item)
    (all : ∀ entry ∈ entries, policy.admits entry.1 ∧ policy.admits entry.2) :
    ∀ entry ∈ putAt place key item entries, policy.admits entry.1 ∧ policy.admits entry.2 := by
  intro entry member
  obtain old | rfl | ⟨old, inside, rfl⟩ := mem_putAt member
  · exact all entry old
  · exact ⟨keyed, admitted⟩
  · exact ⟨(all old inside).1, admitted⟩

theorem keeps_setItem (admitted : policy.admits container)
    (indexed : policy.admits index) (stored : policy.admits item) :
    policy.Gives (fun _ => True) (setItem container index item) := by
  refine .inspect fun heap _ => ?_
  split
  · refine (keeps_check _).bind fun place _ => .modify fun heap obeys => ?_
    refine sound.modifyItems obeys admitted fun items all other member => ?_
    obtain member | rfl := Array.mem_or_eq_of_mem_setIfInBounds member
    · exact all other member
    · exact stored
  · refine (keeps_check _).bind fun _ _ => .modify fun heap obeys => ?_
    exact sound.modifyEntries obeys admitted fun entries all => all_putAt indexed stored all
  · exact .raise _

theorem keeps_extendList {extra : Array Value} (admitted : policy.admits (.list address))
    (all : ∀ item ∈ extra, policy.admits item) :
    policy.Gives (fun _ => True) (extendList address extra) := by
  refine .modify fun heap obeys => ?_
  refine sound.modifyItems obeys admitted fun items old item member => ?_
  obtain member | member := Array.mem_append.1 member
  · exact old item member
  · exact all item member

theorem gives_entryTuples {entries : List (Value × Value)}
    (all : ∀ entry ∈ entries, policy.admits entry.1 ∧ policy.admits entry.2) :
    policy.Gives (fun pairs => ∀ pair ∈ pairs, policy.admits pair) (entryTuples entries) := by
  induction entries with
  | nil => exact .pure (by simp)
  | cons entry rest ih =>
    have here := all entry (.head _)
    have both : ∀ item ∈ #[entry.1, entry.2], policy.admits item := by simpa using here
    refine (sound.gives_newTuple both).bind fun pair made => ?_
    refine (ih fun other member => all other (.tail _ member)).bind ?_
    intro pairs others
    refine .pure fun other member => ?_
    obtain _ | ⟨_, member⟩ := member
    · exact made
    · exact others other member

theorem gives_dictMethod (admitted : policy.admits (.dict address)) (method : String)
    (all : ∀ arg ∈ args, policy.admits arg) :
    policy.Gives policy.admits (dictMethod address method args) := by
  refine .inspect fun heap obeys => ?_
  have inside := sound.entries obeys admitted
  split
  · refine (keeps_checkArity _ _ _ _).bind fun _ _ => (keeps_check _).bind fun _ _ => ?_
    split
    · rename_i found
      obtain ⟨place, _, found⟩ := Option.bind_eq_some_iff.1 found
      exact .pure (inside _ (Array.mem_of_getElem? found)).2
    · exact .pure (sound.getD all 1 rfl)
  · refine (keeps_checkArity _ _ _ _).bind fun _ _ => sound.gives_newList fun item member => ?_
    obtain ⟨entry, present, rfl⟩ := Array.mem_map.1 member
    exact (inside entry present).1
  · refine (keeps_checkArity _ _ _ _).bind fun _ _ => sound.gives_newList fun item member => ?_
    obtain ⟨entry, present, rfl⟩ := Array.mem_map.1 member
    exact (inside entry present).2
  · refine (keeps_checkArity _ _ _ _).bind fun _ _ => ?_
    refine (sound.gives_entryTuples fun entry member =>
      inside entry (Array.mem_toList_iff.1 member)).bind fun pairs made => ?_
    exact sound.gives_newList fun item member => made item (List.mem_toArray.1 member)
  · exact .raise _

theorem gives_popItem (admitted : policy.admits (.list address)) (index : Option Value) :
    policy.Gives policy.admits (popItem address index) := by
  refine .inspect fun heap obeys => ?_
  have inside := sound.items obeys admitted rfl
  dsimp only
  split
  · exact .raise _
  · have rest (place : Nat) : policy.Gives policy.admits (do
        Run.modify (·.modifyItems address (·.eraseIdxIfInBounds place))
        return (heap.items address).getD place .none) := by
      refine Run.Yields.bind (.modify fun heap obeys => ?_) fun _ _ =>
        .pure (sound.getD_array inside place rfl)
      refine sound.modifyItems obeys admitted fun items all item member => ?_
      unfold Array.eraseIdxIfInBounds at member
      split at member
      · exact all item (Array.mem_of_mem_eraseIdx member)
      · exact all item member
    cases index with
    | none => exact rest _
    | some index => exact (keeps_check _).bind fun place _ => rest place

theorem gives_listMethod (admitted : policy.admits (.list address)) (method : String)
    (all : ∀ arg ∈ args, policy.admits arg) :
    policy.Gives policy.admits (listMethod address method args) := by
  have first : policy.admits (args.headD .none) := by
    cases args with
    | nil => exact sound.plain rfl
    | cons arg rest => exact all arg (.head _)
  unfold listMethod
  split
  · refine (keeps_checkArity _ _ _ _).bind fun _ _ => ?_
    refine (sound.keeps_extendList admitted fun item member =>
      all item (List.mem_toArray.1 member)).bind fun _ _ => .pure (sound.plain rfl)
  · refine (keeps_checkArity _ _ _ _).bind fun _ _ => ?_
    refine (sound.gives_iterate first).bind fun items inside => ?_
    exact (sound.keeps_extendList admitted inside).bind fun _ _ => .pure (sound.plain rfl)
  · exact (keeps_checkArity _ _ _ _).bind fun _ _ => sound.gives_popItem admitted _
  · exact .raise _

theorem gives_callMethod {receiver : Value} (admitted : policy.admits receiver) (method : String)
    (all : ∀ arg ∈ args, policy.admits arg) :
    policy.Gives policy.admits (callMethod receiver method args) := by
  unfold callMethod
  split
  · exact sound.gives_dictMethod admitted method all
  · exact sound.gives_listMethod admitted method all
  · exact .raise _

/-! ### Built-in functions -/

omit sound in
theorem admits_of_bestOf {wanted : Ordering} {candidates : List Value} {first found : Value}
    (all : ∀ other ∈ first :: candidates, policy.admits other)
    (same : bestOf name wanted first candidates = .ok found) : policy.admits found := by
  induction candidates generalizing first with
  | nil =>
    cases same
    exact all _ (.head _)
  | cons candidate rest ih =>
    unfold bestOf at same
    split at same
    · cases same
    · split at same
      · exact ih (fun other member => all other (.tail _ member)) same
      · refine ih (fun other member => all other ?_) same
        cases member with
        | head => exact .head _
        | tail _ later => exact .tail _ (.tail _ later)

theorem gives_extreme (name : String) (wanted : Ordering) (all : ∀ arg ∈ args, policy.admits arg) :
    policy.Gives policy.admits (extreme name wanted args) := by
  have gathered {values : List Value} (inside : ∀ value ∈ values, policy.admits value) :
      policy.Gives (fun candidates => ∀ candidate ∈ candidates, policy.admits candidate)
        (Pure.pure values) := .pure inside
  unfold extreme
  split
  · refine (sound.gives_iterate (all _ (.head _))).bind fun items inside => ?_
    refine (gathered fun item member => inside item (Array.mem_toList_iff.1 member)).bind
      fun candidates listed => ?_
    cases candidates with
    | nil => exact .raise _
    | cons first rest => exact .ofExcept fun found same => admits_of_bestOf listed same
  · refine (gathered all).bind fun candidates listed => ?_
    cases candidates with
    | nil => exact .raise _
    | cons first rest => exact .ofExcept fun found same => admits_of_bestOf listed same

theorem gives_addAll {total : Value} (admitted : policy.admits total) {items : List Value}
    (all : ∀ item ∈ items, policy.admits item) :
    policy.Gives policy.admits (addAll total items) := by
  induction items generalizing total with
  | nil => exact .pure admitted
  | cons item rest ih =>
    refine (sound.gives_add admitted (all item (.head _))).bind fun sum summed => ?_
    exact ih summed fun other member => all other (.tail _ member)

omit sound in
theorem plain_absolute (value : Value) : Run.Yields holds Plain (absolute value) := by
  unfold absolute
  split
  · exact plain_checked _
  · exact .pure rfl
  · exact .pure rfl
  · exact .raise _

omit sound in
theorem plain_of_makeRange (made : makeRange args = .ok value) : Plain value := by
  have chosen {range : RangeValue} {fault : Exception}
      (made : (if range.step = 0 then Except.error fault else .ok (.range range)) = .ok value) :
      Plain value := by
    split at made
    · cases made
    · cases made
      rfl
  simp only [makeRange, bind, Except.bind] at made
  split at made
  · cases made
  · split at made
    · cases made
    · exact chosen made

omit sound in
theorem plain_of_toInt {argument : Value} (made : toInt argument = .ok value) : Plain value := by
  unfold toInt at made
  split at made
  · cases made
    rfl
  · cases made
    rfl
  · split at made
    · cases made
      rfl
    · cases made
    · cases made
  · split at made
    · cases made
      rfl
    · cases made
  · cases made

omit sound in
theorem plain_of_toFloat {argument : Value} (made : toFloat argument = .ok value) :
    Plain value := by
  unfold toFloat at made
  split at made
  · split at made
    · cases made
      rfl
    · cases made
  · cases read : floatArgument "float" argument with
    | ok x =>
      rw [read] at made
      cases made
      rfl
    | error fault =>
      rw [read] at made
      cases made

omit sound in
theorem plain_of_mathCall {function : MathFunction} (made : mathCall function args = .ok value) :
    Plain value := by
  simp only [mathCall, bind, Except.bind, pure, Except.pure] at made
  cases function <;> grind [Value.address?]

theorem gives_callBuiltin (builtin : Builtin) (all : ∀ arg ∈ args, policy.admits arg) :
    policy.Gives policy.admits (callBuiltin builtin args) := by
  have first : policy.admits (args.headD .none) := by
    cases args with
    | nil => exact sound.plain rfl
    | cons arg rest => exact all arg (.head _)
  have second : policy.admits (args.getD 1 (.int 0)) := sound.getD all 1 rfl
  refine .inspect fun heap obeys => ?_
  cases builtin with
  | range => exact .ofExcept fun value made => sound.plain (plain_of_makeRange made)
  | len =>
    refine (keeps_check _).bind fun _ _ => (keeps_check _).bind fun _ _ => ?_
    exact .pure (sound.plain rfl)
  | abs => exact (keeps_check _).bind fun _ _ => sound.gives_plain (plain_absolute _)
  | min | max => exact sound.gives_extreme _ _ all
  | int | float =>
    refine (keeps_check _).bind fun _ _ => ?_
    split
    · exact .pure (sound.plain rfl)
    · refine .ofExcept fun value made => sound.plain ?_
      first | exact plain_of_toInt made | exact plain_of_toFloat made
  | bool | str => exact (keeps_check _).bind fun _ _ => .pure (sound.plain rfl)
  | sum =>
    refine (keeps_check _).bind fun _ _ => ?_
    refine (sound.gives_iterate first).bind fun items inside => ?_
    exact sound.gives_addAll second fun item member => inside item (Array.mem_toList_iff.1 member)
  | list =>
    refine (keeps_check _).bind fun _ _ => ?_
    split
    · exact sound.gives_newList (by simp)
    · exact (sound.gives_iterate first).bind fun items inside => sound.gives_newList inside
  | print => exact .raise _
  | math function => exact .ofExcept fun value made => sound.plain (plain_of_mathCall made)

end Policy.Sound
end TwoTier.Interp
