import TwoTier.Proofs.Eligibility.Steps

/-! Specialization keeps what was requested, and every settled routine was typed from its
function. -/

namespace TwoTier.Eligibility

open Attempt (Moves)

open Interp (Program)

open Typed (Routine RoutineIndex)

variable {result : ReturnKind}

namespace Closure

variable {program : Program} {closure start after : Closure} {index : Nat} {name : String}
  {kinds : List Kind}

theorem find?_eq_some (found : closure.find? name kinds = some (index, progress)) :
    ∃ entry, closure.entries[index]? = some entry ∧ entry.progress = progress ∧
      ((name, kinds), index) ∈ closure.keys := by
  obtain ⟨⟨key, place⟩, chosen, found⟩ := Option.bind_eq_some_iff.1 found
  obtain ⟨entry, present, same⟩ := Option.bind_eq_some_iff.1 found
  cases same
  have keyed : key = (name, kinds) := by simpa using List.find?_some chosen
  exact ⟨entry, present, rfl, keyed ▸ List.mem_of_find?_eq_some chosen⟩

theorem getElem?_setProgress (closure : Closure) (index other : Nat) (progress : Progress) :
    (closure.setProgress index progress).entries[other]? =
      if index = other then (closure.entries[other]?).map ({ · with progress })
      else closure.entries[other]? := by
  unfold setProgress
  rw [List.getElem?_modify]
  split <;> simp

theorem requested_setProgress (closure : Closure) (index : Nat) (progress : Progress) :
    (closure.setProgress index progress).requested = closure.requested := by
  unfold requested
  apply List.ext_getElem?
  intro other
  rw [List.getElem?_map, List.getElem?_map, getElem?_setProgress]
  split
  · cases closure.entries[other]? <;> rfl
  · rfl

theorem requested_truncate (closure : Closure) (count : Nat) :
    (closure.truncate count).requested = closure.requested.take count :=
  List.map_take

theorem requested_enter (closure : Closure) (name : String) (kinds : List Kind) :
    (closure.enter name kinds).requested = closure.requested ++ [(name, kinds)] :=
  List.map_append

private theorem filter_zipIdx_lt (items : List α) (count : Nat) :
    items.zipIdx.filter (fun place => place.2 < count) = (items.take count).zipIdx := by
  suffices ∀ first, (items.zipIdx first).filter (fun place => place.2 < first + count) =
      (items.take count).zipIdx first by simpa using this 0
  induction items generalizing count with
  | nil => simp
  | cons item rest ih =>
    intro first
    cases count with
    | zero =>
      apply List.filter_eq_nil_iff.2
      intro place member
      have := List.le_snd_of_mem_zipIdx member
      simp only [decide_eq_true_eq]
      omega
    | succ count =>
      have later := ih count (first + 1)
      rw [Nat.add_right_comm, Nat.add_assoc] at later
      simp [List.zipIdx_cons, later]

section

variable (keyed : closure.Indexed)

include keyed

theorem Indexed.find?_eq_some (found : closure.find? name kinds = some (index, progress)) :
    closure.entries[index]? = some ⟨name, kinds, progress⟩ := by
  obtain ⟨⟨other, given, _⟩, present, rfl, listed⟩ := Closure.find?_eq_some found
  rw [keyed.places, List.mem_zipIdx_iff_getElem?, requested, List.getElem?_map, present] at listed
  cases listed
  exact present

theorem Indexed.not_mem_requested (absent : closure.find? name kinds = none) :
    (name, kinds) ∉ closure.requested := by
  intro member
  obtain ⟨index, found⟩ := List.mem_iff_getElem?.1 member
  have listed : ((name, kinds), index) ∈ closure.keys := by
    rw [keyed.places]
    exact List.mem_zipIdx_iff_getElem?.2 found
  cases chosen : closure.keys.find? fun place => place.1 = (name, kinds) with
  | none => simpa using List.find?_eq_none.1 chosen _ listed
  | some place =>
    have among := List.mem_of_find?_eq_some chosen
    rw [keyed.places, List.mem_zipIdx_iff_getElem?, requested, List.getElem?_map] at among
    obtain ⟨entry, present, -⟩ := Option.map_eq_some_iff.1 among
    simp [find?, chosen, present] at absent

theorem Indexed.setProgress (index : Nat) (progress : Progress) :
    (closure.setProgress index progress).Indexed := by
  have same := closure.requested_setProgress index progress
  exact ⟨by rw [same]; exact keyed.places, by rw [same]; exact keyed.once⟩

theorem Indexed.truncate (count : Nat) : (closure.truncate count).Indexed := by
  have kept := closure.requested_truncate count
  refine ⟨?_, by rw [kept]; exact keyed.once.sublist (List.take_sublist _ _)⟩
  rw [kept, ← filter_zipIdx_lt, ← keyed.places]
  rfl

theorem Indexed.enter (absent : closure.find? name kinds = none) :
    (closure.enter name kinds).Indexed := by
  have fresh := keyed.not_mem_requested absent
  have more := closure.requested_enter name kinds
  have others : closure.keys.filter (fun place => place.1 ≠ (name, kinds)) = closure.keys := by
    apply List.filter_eq_self.2
    rw [keyed.places]
    intro place member
    apply decide_eq_true
    intro same
    exact fresh (same ▸ List.mem_of_getElem? (List.mem_zipIdx_iff_getElem?.1 member))
  refine ⟨?_, more ▸ List.nodup_append.2 ⟨keyed.once, by simp, ?_⟩⟩
  · rw [more, List.zipIdx_append, ← keyed.places, requested, List.length_map, Nat.zero_add]
    exact congrArg (· ++ [((name, kinds), closure.entries.length)]) others
  · intro key member other last same
    exact fresh (List.mem_singleton.1 last ▸ same ▸ member)

end

theorem along_setProgress (refl : ∀ progress, rel progress progress)
    (moves : ∀ entry, closure.entries[index]? = some entry → rel entry.progress progress) :
    closure.Along rel (closure.setProgress index progress) := by
  intro other entry found
  rw [getElem?_setProgress]
  split
  · rename_i same
    subst same
    rw [found]
    exact ⟨progress, rfl, moves entry found⟩
  · exact ⟨entry.progress, found, refl _⟩

theorem getElem?_truncate (closure : Closure) (count other : Nat) :
    (closure.truncate count).entries[other]? =
      if other < count then closure.entries[other]? else none :=
  List.getElem?_take

/-- A specialization that is under way at the end of a closure. -/
structure Opened (start closure : Closure) (index : Nat) (name : String) (kinds : List Kind) :
    Prop where
  before : start.entries.length = index
  grows : start.Grows closure
  entry : ∃ result used, closure.entries[index]? = some ⟨name, kinds, .assumed result used⟩
  last : ∀ later, index < later → closure.entries[later]? = none
  indexed : start.Indexed → closure.Indexed

theorem Grows.sound (grows : start.Grows after) (sound : start.Sound program)
    (old : ∀ {other} {entry : Entry} {routine}, after.entries[other]? = some entry →
      entry.progress = .settled routine → other < start.entries.length) :
    after.Sound program := by
  intro other entry routine found settled
  obtain ⟨⟨oldName, oldKinds, progress⟩, present⟩ : ∃ entry, start.entries[other]? = some entry :=
    ⟨_, List.getElem?_eq_getElem (old found settled)⟩
  obtain ⟨later, still, goes⟩ := grows other _ present
  rw [found] at still
  cases still
  subst settled
  -- what is under way stays so, hence the entry was settled before
  cases goes
  exact stems_mono (sound other _ routine present rfl) grows.leads

section

variable (opened : start.Opened closure index name kinds)

include opened

theorem Opened.inside {other : Nat}
    {entry : Entry} (found : start.entries[other]? = some entry) : other < index := by
  rw [← opened.before]
  exact (List.getElem?_eq_some_iff.1 found).1

theorem Opened.sound (sound : start.Sound program) : closure.Sound program := by
  apply opened.grows.sound sound
  intro other entry routine found settled
  rw [opened.before]
  rcases Nat.lt_trichotomy other index with inside | same | outside
  · exact inside
  · subst same
    obtain ⟨result, used, assumed⟩ := opened.entry
    rw [found] at assumed
    cases assumed
    cases settled
  · rw [opened.last other outside] at found
    cases found

theorem Opened.assume (result : ReturnKind) :
    start.Opened (closure.setProgress index (.assumed result false)) index name kinds where
  before := opened.before
  grows := by
    intro other entry found
    obtain ⟨later, still, goes⟩ := opened.grows other entry found
    have inside := opened.inside found
    rw [getElem?_setProgress, if_neg (by omega)]
    exact ⟨later, still, goes⟩
  entry := by
    obtain ⟨other, used, found⟩ := opened.entry
    rw [getElem?_setProgress, if_pos rfl, found]
    exact ⟨result, false, rfl⟩
  last later beyond := by
    rw [getElem?_setProgress, if_neg (by omega), opened.last later beyond]
  indexed keyed := (opened.indexed keyed).setProgress _ _

end

theorem Evolves.assumed (evolves : closure.Evolves program after)
    {used : Bool} (found : closure.entries[index]? = some ⟨name, kinds, .assumed result used⟩) :
    after.entries[index]? = some ⟨name, kinds, .assumed result (after.isUsed index)⟩ := by
  obtain ⟨later, still, goes⟩ := evolves.grows index _ found
  cases goes with
  | assumed _ kept => simp only [isUsed, still]

section

variable (opened : start.Opened closure index name kinds)

include opened

theorem Opened.retry (evolves : closure.Evolves program after) :
    start.Opened (after.truncate (index + 1)) index name kinds where
  before := opened.before
  grows := by
    intro other entry found
    have inside := opened.inside found
    rw [getElem?_truncate, if_pos (by omega)]
    exact opened.grows.trans evolves.grows other entry found
  entry := by
    obtain ⟨result, used, found⟩ := opened.entry
    rw [getElem?_truncate, if_pos (by omega)]
    exact ⟨result, _, evolves.assumed found⟩
  last later beyond := by
    rw [getElem?_truncate, if_neg (by omega)]
  indexed keyed := (evolves.indexed (opened.indexed keyed)).truncate _

theorem Opened.forget
    (evolves : closure.Evolves program after) : start.Evolves program (after.truncate index) := by
  have grows : start.Grows (after.truncate index) := by
    intro other entry found
    rw [getElem?_truncate, if_pos (opened.inside found)]
    exact opened.grows.trans evolves.grows other entry found
  refine ⟨grows, fun keyed => (evolves.indexed (opened.indexed keyed)).truncate _,
    fun _ holds => grows.sound holds ?_⟩
  intro other entry routine found _
  rw [getElem?_truncate] at found
  split at found
  · rw [opened.before]
    assumption
  · cases found

theorem Opened.settle (evolves : closure.Evolves program after) {routine : Routine}
    (assumed : closure.entries[index]? = some ⟨name, kinds, .assumed result false⟩)
    (confirmed : after.isUsed index → routine.result = result)
    (stems : closure.Indexed → Stems program after name kinds routine) :
    start.Evolves program (after.setProgress index (.settled routine)) := by
  have still := evolves.assumed assumed
  have leads : after.Leads (after.setProgress index (.settled routine)) := by
    apply along_setProgress (fun progress => .uses (.refl progress))
    intro entry found
    rw [still] at found
    cases found
    exact .settled confirmed
  refine ⟨?_, fun keyed => (evolves.indexed (opened.indexed keyed)).setProgress _ _,
    fun keyed holds => ?_⟩
  · intro other entry found
    rw [getElem?_setProgress, if_neg (Nat.ne_of_gt (opened.inside found))]
    exact opened.grows.trans evolves.grows other entry found
  · have keyed := opened.indexed keyed
    have sound := evolves.sound keyed (opened.sound holds)
    intro other entry body found settled
    rw [getElem?_setProgress] at found
    split at found
    · rename_i same
      subst same
      rw [still] at found
      cases found
      cases settled
      exact stems_mono (stems keyed) leads
    · exact stems_mono (sound other entry body found settled) leads

end

end Closure

variable {closure : Closure}

section Requests

variable {program : Program} {subject : Subject} {name : String} {kinds : List Kind}

/-- An answer to a request: the entry under the key, settled or relied on. -/
inductive Closure.Answers (closure : Closure) (name : String) (kinds : List Kind)
    (index : RoutineIndex) : ReturnKind → Prop where
  | settled {routine : Routine}
      (found : closure.entries[index]? = some ⟨name, kinds, .settled routine⟩) :
      Answers closure name kinds index routine.result
  | assumed {result : ReturnKind}
      (found : closure.entries[index]? = some ⟨name, kinds, .assumed result true⟩) :
      Answers closure name kinds index result

variable {index : RoutineIndex}

theorem Closure.Answers.found (answers : closure.Answers name kinds index result) :
    ∃ progress, closure.entries[index]? = some ⟨name, kinds, progress⟩ := by
  cases answers with
  | settled found => exact ⟨_, found⟩
  | assumed found => exact ⟨_, found⟩

/-- The result and the closure that settling a specialization gives. -/
theorem settle_moves {start : Closure} {index : Nat} {attempt : Attempt Closure Routine}
    (moves : Moves (Closure.Evolves program) attempt)
    (stems : ∀ {before routine after}, before.Indexed → attempt before = .ok routine after →
      Stems program after name kinds routine) (undecided : Refusal)
    (assumptions : List ReturnKind) (first : Option Refusal)
    (opened : start.Opened closure index name kinds) :
    (settle index attempt undecided assumptions first closure).Meets True
      (fun answer after => start.Evolves program after ∧ answer.1 = index ∧
        after.Answers name kinds answer.1 answer.2)
      (start.Evolves program) := by
  induction assumptions generalizing first closure with
  | nil => exact opened.forget (.refl _)
  | cons result others ih =>
    have assumes := opened.assume result
    have assumed : (closure.setProgress index (.assumed result false)).entries[index]? =
        some ⟨name, kinds, .assumed result false⟩ := by
      obtain ⟨other, used, found⟩ := opened.entry
      rw [Closure.getElem?_setProgress, if_pos rfl, found]
      rfl
    unfold settle
    cases tried : attempt (closure.setProgress index (.assumed result false)) with
    | ok routine between =>
      have evolves := moves.ok tried
      dsimp only
      split
      · rename_i stands
        have confirmed : between.isUsed index → routine.result = result := by
          intro relied
          simpa [relied] using stands
        refine ⟨assumes.settle evolves assumed confirmed fun keyed => stems keyed tried, rfl,
          .settled ?_⟩
        rw [Closure.getElem?_setProgress, if_pos rfl, evolves.assumed assumed]
        rfl
      · exact ih first (assumes.retry evolves)
    | refused refusal between =>
      have evolves := moves.refused tried
      dsimp only
      split
      · exact ih _ (assumes.retry evolves)
      · exact assumes.forget evolves
    | exhausted => trivial

theorem build_moves (directives : DirectiveSet)
    (specializes : ∀ name kinds span, Moves (Closure.Evolves program) (specialize program fuel name
      kinds span)) (compilable : Compilable program name kinds definition)
    (absent : closure.find? name kinds = none) :
    (build ⟨program, name, specialize program fuel⟩ definition kinds directives closure).Meets True
      (fun answer after => closure.Evolves program after ∧ answer.1 = closure.entries.length ∧
        after.Answers name kinds answer.1 answer.2)
      (closure.Evolves program) := by
  apply settle_moves (Subject.evolves_typeFunction ⟨program, name, specialize program fuel⟩
    specializes definition kinds directives)
  · intro before routine after keyed typed
    exact ⟨fuel, definition, directives, before, after, compilable, keyed, typed,
      (Closure.Grows.refl _).leads⟩
  · refine ⟨rfl, ?_, ?_, ?_, fun keyed => keyed.enter absent⟩
    · intro index entry found
      refine ⟨entry.progress, ?_, .refl _⟩
      exact List.getElem?_append_left (List.getElem?_eq_some_iff.1 found).1 ▸ found
    · exact ⟨.nothing, false, List.getElem?_concat_length⟩
    · intro later beyond
      apply List.getElem?_eq_none
      rw [Closure.enter, List.length_append]
      exact beyond

theorem compilable_eq_ok {given : Nat} {directives : DirectiveSet}
    (accepted : compilable program name given span = .ok (definition, directives)) :
    (∃ info, program.function? name = some info ∧ info.definition = definition) ∧
      screen? definition = none ∧ definition.params.length = given := by
  unfold compilable at accepted
  split at accepted
  · cases accepted
  · rename_i info found
    dsimp only at accepted
    split at accepted
    · cases accepted
    split at accepted
    · cases accepted
    split at accepted
    · cases accepted
    · cases accepted
      rename_i arity _ screened
      exact ⟨⟨_, found, rfl⟩, screened, Decidable.not_not.1 arity⟩

theorem answers_assumed {used : Bool}
    (found : closure.find? name kinds = some (index, .assumed result used)) :
    closure.Evolves program (closure.setProgress index (.assumed result true)) ∧
      (closure.Indexed →
        (closure.setProgress index (.assumed result true)).Answers name kinds index result) := by
  obtain ⟨⟨_, _, _⟩, present, rfl, -⟩ := Closure.find?_eq_some found
  have grows : closure.Grows (closure.setProgress index (.assumed result true)) := by
    apply Closure.along_setProgress Progress.Uses.refl
    intro entry here
    rw [present] at here
    cases here
    exact .assumed result fun _ => rfl
  refine ⟨⟨grows, fun keyed => keyed.setProgress _ _, fun _ holds => ?_⟩, fun keyed => .assumed ?_⟩
  · intro other entry routine here settled
    rw [Closure.getElem?_setProgress] at here
    split at here
    · rename_i same
      subst same
      rw [present] at here
      cases here
      cases settled
    · exact Closure.stems_mono (holds other entry routine here settled) grows.leads
  · rw [Closure.getElem?_setProgress, if_pos rfl, keyed.find?_eq_some found]
    rfl

theorem specialize_moves (fuel : Nat) (name : String) (kinds : List Kind) (span : Span)
    (closure : Closure) :
    (specialize program fuel name kinds span closure).Meets True
      (fun answer after => closure.Evolves program after ∧
        (closure.Indexed → after.Answers name kinds answer.1 answer.2))
      (closure.Evolves program) := by
  induction fuel generalizing name kinds span closure
  all_goals
    unfold specialize
    split
    · rename_i found
      exact ⟨.refl _, fun keyed => .settled (keyed.find?_eq_some found)⟩
    · rename_i found
      exact answers_assumed found
    rename_i absent
    split
    · exact .refl _
  · trivial
  · rename_i fuel ih _ _ definition directives accepted
    obtain ⟨found, screened, arity⟩ := compilable_eq_ok accepted
    have specializes (name kinds span) :
        Moves (Closure.Evolves program) (specialize program fuel name kinds span) :=
      ⟨fun closure => (ih name kinds span closure).imp And.left id⟩
    exact (build_moves directives specializes ⟨found, screened, arity⟩ absent).imp
      (fun built => ⟨built.1, fun _ => built.2.2⟩) id

theorem specializes (fuel : Nat) (name : String) (kinds : List Kind) (span : Span) :
    Moves (Closure.Evolves program) (specialize program fuel name kinds span) :=
  ⟨fun closure => (specialize_moves fuel name kinds span closure).imp And.left id⟩

end Requests

/-- The routines of an eligible body: each was typed from its function, then folded. -/
structure Settled (program : Program) (closure : Closure) (body : Typed.Body) : Prop where
  sound : closure.Sound program
  routine : ∀ {index : Nat} {entry : Entry}, closure.entries[index]? = some entry →
    ∃ routine, entry.progress = .settled routine ∧ body.routines[index]? = some routine.folded.2
  length : body.routines.length = closure.entries.length

private theorem getElem?_of_mapM {step : α → Option β} {items : List α} {results : List β}
    (mapped : items.mapM step = some results) :
    results.length = items.length ∧
      ∀ {index : Nat} {item}, items[index]? = some item →
        ∃ result, step item = some result ∧ results[index]? = some result := by
  induction items generalizing results with
  | nil =>
    cases mapped
    exact ⟨rfl, nofun⟩
  | cons first rest ih =>
    rw [List.mapM_cons] at mapped
    obtain ⟨head, stepped, mapped⟩ := Option.bind_eq_some_iff.1 mapped
    obtain ⟨tail, others, same⟩ := Option.bind_eq_some_iff.1 mapped
    cases same
    obtain ⟨length, each⟩ := ih others
    refine ⟨by simp [length], ?_⟩
    intro index item found
    cases index with
    | zero =>
      cases found
      exact ⟨head, stepped, rfl⟩
    | succ index => exact each found

theorem settled_of_body? {body : Typed.Body} (sound : closure.Sound program)
    (complete : closure.body? = some body) :
    Settled program closure ⟨body.routines.map (·.folded.2)⟩ := by
  obtain ⟨routines, mapped, rfl⟩ := Option.map_eq_some_iff.1 complete
  obtain ⟨length, each⟩ := getElem?_of_mapM mapped
  refine ⟨sound, ?_, by simp [length]⟩
  intro index entry found
  obtain ⟨routine, settled, present⟩ := each found
  refine ⟨routine, ?_, by simp [present]⟩
  split at settled
  · rename_i progress
    cases settled
    exact progress
  · cases settled

/-- An eligible function comes with a closure all of whose routines are settled, its own first. -/
theorem settled_of_eligible {program : Program} {candidate : Candidate} {body : Typed.Body}
    (eligible : (analyze program candidate kinds).verdict = .eligible body)
    (listed : ∃ info, program.function? candidate.name = some info ∧
      info.definition = candidate.definition) :
    ∃ closure : Closure, Settled program closure body ∧
      ∃ progress, closure.entries[0]? = some ⟨candidate.name, kinds, progress⟩ := by
  unfold analyze at eligible
  split at eligible
  · cases eligible
  · rename_i screened
    split at eligible
    · rename_i answer closure built
      have rooted : specializeRoot program candidate kinds {} = .ok answer closure := built
      unfold specializeRoot at rooted
      split at rooted
      · rename_i arity
        have unscreened : screen? candidate.definition = none := by
          unfold screenCandidate? at screened
          split at screened
          · simpa using screened
          · cases screened
        obtain ⟨evolves, place, answers⟩ := (build_moves candidate.directives
          (specializes (keyCount program)) ⟨listed, unscreened, arity⟩ rfl).ok rooted
        have sound : closure.Sound program :=
          evolves.sound Closure.indexed_empty fun _ _ _ found => by cases found
        unfold verdictOf at eligible
        split at eligible
        · rename_i complete
          cases eligible
          refine ⟨closure, settled_of_body? sound complete, ?_⟩
          obtain ⟨progress, found⟩ := answers.found
          rw [place] at found
          exact ⟨progress, found⟩
        · cases eligible
      · cases rooted
    · cases eligible
    · cases eligible

end TwoTier.Eligibility
