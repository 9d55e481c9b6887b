import TwoTier.Proofs.Eligibility.Dependencies

/-! Specialization ends: what is under way is never begun again, no result is assumed twice, and a
refusal takes back all that was requested for it. -/

namespace TwoTier.Eligibility

open Interp (Program)

open Surface (FunctionDef)

open Typed (Routine RoutineIndex)

/-- Like `settle`, but an assumption that was tried before is not tried again. -/
def settleOnce (index : RoutineIndex) (attempt : Attempt Closure Routine) (undecided : Refusal)
    (tried : List ReturnKind) :
    List ReturnKind → Option Refusal → Attempt Closure (RoutineIndex × ReturnKind)
  | [], first => fun closure => .refused (first.getD undecided) (closure.truncate index)
  | assumed :: others, first => fun closure =>
    if assumed ∈ tried then .exhausted
    else
      match attempt (closure.setProgress index (.assumed assumed false)) with
      | .ok routine closure =>
        if !closure.isUsed index || routine.result = assumed then
          .ok (index, routine.result) (closure.setProgress index (.settled routine))
        else
          settleOnce index attempt undecided (assumed :: tried) others first
            (closure.truncate (index + 1))
      | .refused refusal closure =>
        if closure.isUsed index then
          settleOnce index attempt undecided (assumed :: tried) others (first.or (some refusal))
            (closure.truncate (index + 1))
        else .refused refusal (closure.truncate index)
      | .exhausted => .exhausted

def buildOnce (subject : Subject) (definition : FunctionDef) (kinds : List Kind)
    (directives : DirectiveSet) : Attempt Closure (RoutineIndex × ReturnKind) := fun closure =>
  let index := closure.entries.length
  let name := subject.function
  settleOnce index (subject.typeFunction definition kinds directives)
    (.inconsistent name "inconsistent return type: the recursive result has no consistent type"
      definition.span)
    [] assumedResults none (closure.enter name kinds)

/-- Like `specialize`, but with the keys of the specializations under way: one of them, or a key
that the program does not have, is not begun. -/
def specializeOnce (program : Program) :
    Nat → List Key → String → List Kind → Span → Attempt Closure (RoutineIndex × ReturnKind)
  | 0, _, name, kinds, span => request program (fun _ _ _ => .exhausted) name kinds span
  | fuel + 1, chain, name, kinds, span =>
    request program
      (fun definition directives closure =>
        if chain.contains (name, kinds) || !(programKeys program).contains (name, kinds) then
          .exhausted
        else
          buildOnce ⟨program, name, specializeOnce program fuel ((name, kinds) :: chain)⟩ definition
            kinds directives closure)
      name kinds span

def specializeRootOnce (program : Program) (candidate : Candidate) (kinds : List Kind) :
    Attempt Closure (RoutineIndex × ReturnKind) :=
  if candidate.arity = kinds.length then
    buildOnce ⟨program, candidate.name,
      specializeOnce program (keyCount program) [(candidate.name, kinds)]⟩ candidate.definition
      kinds candidate.directives
  else
    Attempt.refuse (missingArguments candidate.name candidate.arity kinds.length
      candidate.definition.span)

/-- Assumptions that are all different and new are tried as they are. -/
theorem settleOnce_eq (index : RoutineIndex) (attempt : Attempt Closure Routine)
    (undecided : Refusal) {tried assumptions : List ReturnKind}
    (fresh : (tried ++ assumptions).Nodup) (first : Option Refusal) (closure : Closure) :
    settleOnce index attempt undecided tried assumptions first closure =
      settle index attempt undecided assumptions first closure := by
  induction assumptions generalizing tried first closure with
  | nil => rfl
  | cons assumed others ih =>
    have untried : assumed ∉ tried := fun member =>
      (List.nodup_append.1 fresh).2.2 _ member _ (.head _) rfl
    have later : (assumed :: tried ++ others).Nodup :=
      List.perm_middle.nodup_iff.1 fresh
    rw [settleOnce, settle]
    dsimp only
    rw [if_neg untried]
    cases attempt (closure.setProgress index (.assumed assumed false)) with
    | ok routine after => simp only [ih later]
    | refused refusal after => simp only [ih later]
    | exhausted => rfl

theorem buildOnce_eq (subject : Subject) (definition : FunctionDef) (kinds : List Kind)
    (directives : DirectiveSet) :
    buildOnce subject definition kinds directives = build subject definition kinds directives := by
  funext closure
  exact settleOnce_eq _ _ _ (by decide) _ _

section Requests

variable {program : Program} {comparison : Comparison}

/-- Requests are answered alike with a record of what is under way. -/
theorem specializeOnce_tracks {chain : List Key}
    (enough : freshCount program comparison.keys ≤ fuel) (nested : chain ⊆ comparison.keys)
    (listed : ∀ name, comparison.listed name) (name : String) (kinds : List Kind) (span : Span) :
    comparison.Requests (specialize program fuel name kinds span)
      (specializeOnce program fuel chain name kinds span) := by
  have agree (name : String) : Agree program program (.called name) := rfl
  induction fuel generalizing comparison chain name kinds span with
  | zero =>
    rw [specialize_eq]
    refine requests_request (agree name) fun admitted absent accepted => ?_
    have fewer := freshCount_of_compilable admitted absent accepted
    omega
  | succ fuel ih =>
    rw [specialize_eq]
    refine requests_request (agree name) fun {closure definition directives} admitted absent
      accepted => ?_
    have fewer := freshCount_of_compilable admitted absent accepted
    obtain ⟨⟨info, present, same⟩, -, arity⟩ := compilable_eq_ok accepted
    have new : (name, kinds) ∉ chain := fun underWay =>
      admitted.indexed.not_mem_requested absent (admitted.keys.subset (nested underWay))
    have known := mem_programKeys present (same ▸ arity)
    have inner : (name, kinds) :: chain ⊆ closure.requested ++ [(name, kinds)] :=
      List.cons_subset.2 ⟨by simp, fun key member =>
        List.mem_append_left _ (admitted.keys.subset (nested member))⟩
    have answered (asked : String) (given : List Kind) (span : Span)
        (_ : Agree program program (.called asked)) : Comparison.Requests
          ⟨comparison.listed, definition.scopeNames, closure.requested ++ [(name, kinds)],
            comparison.known⟩ (specialize program fuel asked given span)
          (specializeOnce program fuel ((name, kinds) :: chain) asked given span) := by
      refine ih ?_ ?_ ?_ asked given span
      · exact Nat.le_of_lt_succ (Nat.lt_of_lt_of_le fewer enough)
      · exact inner
      · exact listed
    have built := build_tracks directives answered (AgreeFor.refl program definition)
      (listed name) admitted.listed admitted.indexed absent
    rw [if_neg (by simp [new, known]), buildOnce_eq]
    exact built.mono fun held => ⟨⟨held.1.indexed, admitted.keys.trans held.1.keys, held.1.listed⟩,
      fun later => (held.2 later).imp_left List.subset_of_cons_subset⟩

theorem specializeRootOnce_eq (program : Program) (candidate : Candidate) (kinds : List Kind) :
    (specializeRoot program candidate kinds {}).Ends (fun _ => True) ∧
      specializeRootOnce program candidate kinds {} =
        specializeRoot program candidate kinds {} := by
  unfold specializeRootOnce specializeRoot
  split
  · have answered (known : List String) (asked : String) (given : List Kind) (span : Span)
        (_ : Agree program program (.called asked)) : Comparison.Requests
          ⟨fun _ => True, candidate.definition.scopeNames,
            Closure.requested {} ++ [(candidate.name, kinds)], known⟩
          (specialize program (keyCount program) asked given span)
          (specializeOnce program (keyCount program) [(candidate.name, kinds)] asked given span) :=
      specializeOnce_tracks (freshCount_le program _) (List.Subset.refl _) (fun _ => trivial) asked
        given span
    have built (known : List String) := build_tracks candidate.directives (answered known)
      (AgreeFor.refl program candidate.definition) trivial (fun _ _ => trivial)
      Closure.indexed_empty rfl
    rw [buildOnce_eq]
    exact ⟨(built []).mono fun _ => trivial, Trial.eq_of_tracks built⟩
  · exact ⟨trivial, rfl⟩

end Requests

section Refusals

def Progress.unmarked : Progress → Progress
  | .assumed result _ => .assumed result false
  | .settled routine => .settled routine

/-- The entries of a closure without the marks of those that were relied on. -/
def Closure.unmarked (closure : Closure) : List Entry :=
  closure.entries.map fun entry => { entry with progress := entry.progress.unmarked }

theorem Progress.Uses.unmarked (uses : Progress.Uses before after) :
    after.unmarked = before.unmarked := by
  cases uses <;> rfl

theorem Closure.Grows.unmarked {before after : Closure} (grows : before.Grows after)
    (length : after.entries.length ≤ before.entries.length) :
    after.unmarked = before.unmarked := by
  apply List.ext_getElem?
  intro index
  simp only [Closure.unmarked, List.getElem?_map]
  cases found : before.entries[index]? with
  | none =>
    have beyond := List.getElem?_eq_none_iff.1 found
    rw [List.getElem?_eq_none (Nat.le_trans length beyond)]
  | some entry =>
    obtain ⟨later, present, uses⟩ := grows index entry found
    simp only [present, Option.map_some, uses.unmarked]

/-- The keys of the same entries are the same, if they lead to their places. -/
theorem Closure.Indexed.keys_eq {before after : Closure} (keyed : before.Indexed)
    (later : after.Indexed) (same : after.unmarked = before.unmarked) :
    after.keys = before.keys := by
  have requested (closure : Closure) :
      closure.requested = closure.unmarked.map fun entry => (entry.name, entry.kinds) := by
    simp [Closure.requested, Closure.unmarked]
  rw [later.places, keyed.places, requested, requested, same]

/-- A refusal forgets the place that was to be settled, and all behind it. -/
theorem settle_refused {attempt : Attempt Closure Routine} {undecided : Refusal}
    {assumptions : List ReturnKind} {first : Option Refusal} {closure : Closure}
    (refused : settle index attempt undecided assumptions first closure = .refused refusal after) :
    ∃ last : Closure, after = last.truncate index := by
  induction assumptions generalizing first closure with
  | nil =>
    cases refused
    exact ⟨closure, rfl⟩
  | cons assumed others ih =>
    unfold settle at refused
    split at refused
    · split at refused
      · cases refused
      · exact ih refused
    · split at refused
      · exact ih refused
      · cases refused
        exact ⟨_, rfl⟩
    · cases refused

/-- A refused request leaves the entries that were there, up to their marks. -/
theorem specialize_refused {program : Program} {closure after : Closure}
    (refused : specialize program fuel name kinds span closure = .refused refusal after) :
    after.unmarked = closure.unmarked := by
  apply ((specialize_moves fuel name kinds span closure).refused refused).grows.unmarked
  unfold specialize at refused
  split at refused
  · cases refused
  · cases refused
  · split at refused
    · cases refused
      exact Nat.le_refl _
    · split at refused
      · cases refused
      · obtain ⟨last, rfl⟩ := settle_refused refused
        exact List.length_take_le _ _

end Refusals

/-- Specialization of a function with all that it calls ends. With a record of the keys under way,
which no specialization in a chain may repeat, and of the results assumed for one, which it may try
once, it does the same. Keys lead to the places of their entries from the first request on, whatever
becomes of a request, and one that is refused leaves the entries, up to their marks, and the keys
that were there before. -/
theorem specialization_ends (program : Program) (candidate : Candidate) (kinds : List Kind) :
    (specializeRoot program candidate kinds {}).Ends (fun _ => True) ∧
    specializeRootOnce program candidate kinds {} = specializeRoot program candidate kinds {} ∧
    (∀ refusal after, specializeRoot program candidate kinds {} = .refused refusal after →
      after.entries = [] ∧ after.keys = []) ∧
    Closure.Indexed {} ∧
    ∀ fuel name kinds span closure, closure.Indexed →
      (specialize program fuel name kinds span closure).Leaves True Closure.Indexed ∧
      ∀ refusal after, specialize program fuel name kinds span closure = .refused refusal after →
        after.unmarked = closure.unmarked ∧ after.keys = closure.keys := by
  obtain ⟨ends, same⟩ := specializeRootOnce_eq program candidate kinds
  refine ⟨ends, same, fun refusal after refused => ?_, Closure.indexed_empty,
    fun fuel name kinds span closure keyed => ⟨?_, fun refusal after refused => ?_⟩⟩
  · unfold specializeRoot at refused
    split at refused
    · obtain ⟨last, rfl⟩ := settle_refused refused
      simp [Closure.truncate]
    · cases refused
      exact ⟨rfl, rfl⟩
  · exact ((specializes fuel name kinds span).leaves closure).mono fun evolves =>
      evolves.indexed keyed
  · have unmarked := specialize_refused refused
    have evolves := (specialize_moves fuel name kinds span closure).refused refused
    exact ⟨unmarked, keyed.keys_eq (evolves.indexed keyed) unmarked⟩

end TwoTier.Eligibility
