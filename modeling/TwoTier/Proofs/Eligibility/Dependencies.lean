import Mathlib.Algebra.Order.Ring.Int
import Mathlib.Data.List.Basic
import TwoTier.Proofs.Eligibility.Specialization
import TwoTier.Proofs.Eligibility.Compared

namespace TwoTier.Eligibility

open Interp (Program)

open Surface (FunctionDef Mention)

open Typed (Routine RoutineIndex)

variable {definition : FunctionDef} {more : Nat}

section Keys

def allKinds : List Kind :=
  [.scalar .int, .scalar .float, .scalar .bool, .array .int, .array .float, .array .bool]

theorem mem_allKinds (kind : Kind) : kind ∈ allKinds := by
  cases kind with
  | scalar type | array type => cases type <;> decide

def kindLists : Nat → List (List Kind)
  | 0 => [[]]
  | count + 1 => allKinds.flatMap fun kind => (kindLists count).map (kind :: ·)

theorem mem_kindLists (kinds : List Kind) : kinds ∈ kindLists kinds.length := by
  induction kinds with
  | nil => exact .head _
  | cons kind rest ih => exact List.mem_flatMap.2 ⟨kind, mem_allKinds kind, List.mem_map_of_mem ih⟩

theorem length_kindLists (count : Nat) : (kindLists count).length = kindCount ^ count := by
  induction count with
  | zero => rfl
  | succ count ih =>
    have each (kind : Kind) : ((kindLists count).map (kind :: ·)).length = kindCount ^ count := by
      rw [List.length_map, ih]
    simp only [kindLists, allKinds, List.flatMap_cons, List.flatMap_nil, List.length_append, each,
      List.length_nil, Nat.pow_succ, kindCount]
    omega

def programKeys (program : Program) : List (String × List Kind) :=
  program.functions.flatMap fun entry =>
    (kindLists entry.2.definition.params.length).map (entry.1, ·)

theorem length_programKeys (program : Program) :
    (programKeys program).length = keyCount program := by
  unfold programKeys keyCount
  rw [← List.sum_eq_foldl, List.length_flatMap]
  congr 1
  apply List.map_congr_left
  intro entry _
  rw [List.length_map, length_kindLists]
  rfl

theorem mem_programKeys (found : program.function? name = some info)
    (arity : info.definition.params.length = kinds.length) :
    (name, kinds) ∈ programKeys program := by
  apply List.mem_flatMap.2
  refine ⟨(name, info), Table.mem_of_get? found, List.mem_map.2 ⟨kinds, ?_, rfl⟩⟩
  rw [arity]
  exact mem_kindLists kinds

/-- How many keys of a program have not been requested. -/
def freshCount (program : Program) (keys : List Key) : Nat :=
  ((programKeys program).filter (· ∉ keys)).length

theorem freshCount_le (program : Program) (keys : List Key) :
    freshCount program keys ≤ keyCount program :=
  length_programKeys program ▸ List.length_filter_le _ _

theorem freshCount_lt {keys later : List Key} (kept : keys <+: later)
    (possible : key ∈ programKeys program) (fresh : key ∉ later) :
    freshCount program (later ++ [key]) < freshCount program keys := by
  have remaining : (programKeys program).filter (· ∉ later ++ [key]) =
      ((programKeys program).filter (· ∉ keys)).filter fun other =>
        decide (other ∉ later ++ [key]) := by
    rw [List.filter_filter]
    apply List.filter_congr
    intro other _
    by_cases held : other ∈ keys
    · simp [kept.subset held]
    · simp [held]
  unfold freshCount
  rw [remaining, List.length_filter_lt_length_iff_exists]
  refine ⟨key, List.mem_filter.2 ⟨possible, ?_⟩, by simp⟩
  simpa using fun held => fresh (kept.subset held)

end Keys

section Requests

variable {comparison : Comparison}

theorem settle_tracks {start : List Key} (keys : comparison.keys = start ++ [key])
    {attempt other : Attempt Closure Routine} (tracks : comparison.Requests attempt other)
    (undecided : Refusal) (assumptions : List ReturnKind) (first : Option Refusal)
    {closure : Closure} (keyed : closure.Indexed) (opened : closure.requested = start ++ [key])
    (listed : ∀ name ∈ closure.dependencies, comparison.listed name) :
    { comparison with keys := start }.Answers closure
      (settle start.length attempt undecided assumptions first closure)
      (settle start.length other undecided assumptions first closure) := by
  induction assumptions generalizing first closure with
  | nil =>
    refine ⟨⟨keyed.truncate _, ?_, listed⟩, fun recorded => ⟨recorded, rfl⟩⟩
    have kept : (closure.truncate start.length).requested = start := by
      rw [Closure.requested_truncate, opened, List.take_left]
    exact ⟨[], by rw [kept, List.append_nil]⟩
  | cons assumed others ih =>
    have admitted : comparison.Admits
        (closure.setProgress start.length (.assumed assumed false)) := by
      refine ⟨keyed.setProgress _ _, ⟨[], ?_⟩, listed⟩
      rw [Closure.requested_setProgress, opened, keys, List.append_nil]
    have tracked := tracks.tracked admitted
    -- what the next attempt starts from
    have retried {after : Closure} (kept : comparison.Admits after) :
        (after.truncate (start.length + 1)).requested = start ++ [key] := by
      have same := kept.keys
      rw [keys, List.prefix_iff_eq_take] at same
      rw [Closure.requested_truncate, same, List.length_append]
      rfl
    have within {after : Closure} (kept : comparison.Admits after) : start <+: after.requested :=
      (List.prefix_append start [key]).trans (keys ▸ kept.keys)
    rw [settle, settle]
    cases ran : attempt (closure.setProgress start.length (.assumed assumed false)) with
    | ok routine after =>
      rw [ran] at tracked
      simp only [ran]
      by_cases stands : (!after.isUsed start.length || decide (routine.result = assumed)) = true
      · rw [if_pos stands]
        refine ⟨⟨tracked.1.indexed.setProgress _ _, ?_, tracked.1.listed⟩, fun recorded => ?_⟩
        · rw [Closure.requested_setProgress]
          exact within tracked.1
        · refine (tracked.2 recorded).imp_right fun same => ?_
          simp only [same, if_pos stands]
      · rw [if_neg stands]
        refine (ih first (tracked.1.indexed.truncate _) (retried tracked.1)
          tracked.1.listed).mono fun later =>
          ⟨later.1, fun recorded => ?_⟩
        obtain ⟨middle, follows⟩ := later.2 recorded
        refine (tracked.2 middle).imp_right fun same => ?_
        simp only [same, if_neg stands, follows]
    | refused refusal after =>
      rw [ran] at tracked
      simp only [ran]
      by_cases used : after.isUsed start.length
      · rw [if_pos used]
        refine (ih (first.or (some refusal)) (tracked.1.indexed.truncate _) (retried tracked.1)
          tracked.1.listed).mono fun later => ⟨later.1, fun recorded => ?_⟩
        obtain ⟨middle, follows⟩ := later.2 recorded
        refine (tracked.2 middle).imp_right fun same => ?_
        simp only [same, if_pos used, follows]
      · rw [if_neg used]
        refine ⟨⟨tracked.1.indexed.truncate _, ?_, tracked.1.listed⟩, fun recorded => ?_⟩
        · rw [Closure.requested_truncate]
          exact List.prefix_take_iff.2 ⟨within tracked.1, .refl⟩
        · refine (tracked.2 recorded).imp_right fun same => ?_
          simp only [same, if_neg used]
    | exhausted =>
      rw [ran] at tracked
      exact tracked.elim

variable {program other : Program} {name : String} {kinds : List Kind}

theorem compilable_of_agree (agree : Agree program other (.called name)) (given : Nat)
    (span : Span) : compilable other name given span = compilable program name given span := by
  simp only [Agree, Program.definition?] at agree
  unfold compilable
  cases found : program.function? name with
  | none =>
    rw [found] at agree
    rw [Option.map_eq_none_iff.1 agree]
  | some info =>
    rw [found] at agree
    obtain ⟨moved, present, same⟩ := Option.map_eq_some_iff.1 agree
    rw [present]
    dsimp only
    rw [same]

/-- The names that a function mentions and does not bind stand for the same in both programs. -/
def AgreeFor (program other : Program) (definition : FunctionDef) : Prop :=
  ∀ mention ∈ definition.freeMentions, Agree program other mention

theorem AgreeFor.refl (program : Program) (definition : FunctionDef) :
    AgreeFor program program definition := by
  intro mention _
  cases mention <;> rfl

theorem AgreeFor.covers (agree : AgreeFor program other definition) (listed : String → Prop)
    (keys : List Key) (known : List String) :
    (Comparison.watch ⟨listed, definition.scopeNames, keys, known⟩ program other).Covers
      (Surface.Stmt.mentionsInAll definition.body) := by
  intro mention member free
  exact agree mention (List.mem_filter.2 ⟨member, decide_eq_true free⟩)

/-- The functions that are known mention what stands for the same in both programs. -/
def KnownAlike (program other : Program) (known : List String) : Prop :=
  ∀ name ∈ known, ∀ definition, program.definition? name = some definition →
    AgreeFor program other definition

theorem build_tracks {listed : String → Prop} {known : List String} {closure : Closure}
    {ask twin : String → List Kind → Span → Attempt Closure (RoutineIndex × ReturnKind)}
    (directives : DirectiveSet)
    (answered : ∀ asked given span, Agree program other (.called asked) → Comparison.Requests
      ⟨listed, definition.scopeNames, closure.requested ++ [(name, kinds)], known⟩
      (ask asked given span) (twin asked given span))
    (agree : AgreeFor program other definition) (own : listed name)
    (before : ∀ name ∈ closure.dependencies, listed name) (keyed : closure.Indexed)
    (absent : closure.find? name kinds = none) :
    (build ⟨program, name, ask⟩ definition kinds directives closure).Tracks False
      (Comparison.Admits ⟨listed, definition.scopeNames, closure.requested, known⟩)
      (·.dependencies ⊆ known) (name :: closure.dependencies ⊆ known)
      (build ⟨other, name, twin⟩ definition kinds directives closure) := by
  have pair : Comparison.Counterpart
      ⟨listed, definition.scopeNames, closure.requested ++ [(name, kinds)], known⟩
      ⟨program, name, ask⟩ ⟨other, name, twin⟩ :=
    ⟨rfl, answered⟩
  have typed := Subject.requests_typeFunction pair definition kinds directives rfl
    (agree.covers _ _ _)
  have settled := settle_tracks rfl typed
    (.inconsistent name "inconsistent return type: the recursive result has no consistent type"
      definition.span) assumedResults none (keyed.enter absent) (closure.requested_enter name kinds)
    (List.forall_mem_cons.2 ⟨own, before⟩)
  rw [show closure.requested.length = closure.entries.length from List.length_map _] at settled
  exact settled

/-- A request is answered from the closure or refused, or a specialization begins. -/
def request (program : Program)
    (begins : FunctionDef → DirectiveSet → Attempt Closure (RoutineIndex × ReturnKind))
    (name : String) (kinds : List Kind) (span : Span) :
    Attempt Closure (RoutineIndex × ReturnKind) := fun closure =>
  match closure.find? name kinds with
  | some (index, .settled routine) => .ok (index, routine.result) closure
  | some (index, .assumed result _) =>
    .ok (index, result) (closure.setProgress index (.assumed result true))
  | none =>
    match compilable program name kinds.length span with
    | .error refusal => .refused refusal closure
    | .ok (definition, directives) => begins definition directives closure

/-- The specialization that a request begins if there is fuel. -/
def start (program : Program) (name : String) (kinds : List Kind) :
    Nat → FunctionDef → DirectiveSet → Attempt Closure (RoutineIndex × ReturnKind)
  | 0, _, _ => fun _ => .exhausted
  | fuel + 1, definition, directives =>
    build ⟨program, name, specialize program fuel⟩ definition kinds directives

theorem specialize_eq (program : Program) (fuel : Nat) (name : String) (kinds : List Kind)
    (span : Span) :
    specialize program fuel name kinds span =
      request program (start program name kinds fuel) name kinds span := by
  unfold specialize
  cases fuel <;> rfl

theorem requests_request
    {begins twin : FunctionDef → DirectiveSet → Attempt Closure (RoutineIndex × ReturnKind)}
    {span : Span} (agree : Agree program other (.called name))
    (begun : ∀ {closure definition directives}, comparison.Admits closure →
      closure.find? name kinds = none →
      compilable program name kinds.length span = .ok (definition, directives) →
      comparison.Answers closure (begins definition directives closure)
        (twin definition directives closure)) :
    comparison.Requests (request program begins name kinds span)
      (request other twin name kinds span) := by
  constructor
  intro closure admitted
  unfold request
  cases found : closure.find? name kinds with
  | some answer =>
    obtain ⟨index, progress⟩ := answer
    cases progress with
    | settled routine => exact ⟨admitted, fun recorded => ⟨recorded, rfl⟩⟩
    | assumed result used =>
      refine ⟨⟨admitted.indexed.setProgress _ _, ?_, admitted.listed⟩, fun recorded =>
        ⟨recorded, rfl⟩⟩
      rw [Closure.requested_setProgress]
      exact admitted.keys
  | none =>
    rw [compilable_of_agree agree]
    cases accepted : compilable program name kinds.length span with
    | error refusal => exact ⟨admitted, fun recorded => ⟨recorded, rfl⟩⟩
    | ok given => exact begun admitted found accepted

theorem freshCount_of_compilable {closure : Closure} {directives : DirectiveSet}
    (admitted : comparison.Admits closure) (absent : closure.find? name kinds = none)
    (accepted : compilable program name kinds.length span = .ok (definition, directives)) :
    freshCount program (closure.requested ++ [(name, kinds)]) < freshCount program comparison.keys := by
  obtain ⟨⟨info, present, same⟩, -, arity⟩ := compilable_eq_ok accepted
  exact freshCount_lt admitted.keys (mem_programKeys present (same ▸ arity))
    (admitted.indexed.not_mem_requested absent)

/-- Requests always come to an end, and are answered alike where the names agree. -/
theorem specialize_tracks (le : fuel ≤ more) (enough : freshCount program comparison.keys ≤ fuel)
    (listed : ∀ name, (program.function? name).isSome → comparison.listed name)
    (known : KnownAlike program other comparison.known) (span : Span)
    (agree : Agree program other (.called name)) :
    comparison.Requests (specialize program fuel name kinds span)
      (specialize other more name kinds span) := by
  induction fuel using Nat.strongRecOn generalizing name kinds span more other comparison with
  | ind fuel ih =>
    rw [specialize_eq, specialize_eq]
    refine requests_request agree fun {closure definition directives} admitted absent accepted => ?_
    obtain ⟨⟨info, present, same⟩, -, -⟩ := compilable_eq_ok accepted
    have fewer := Nat.lt_of_lt_of_le (freshCount_of_compilable admitted absent accepted) enough
    cases fuel with
    | zero => exact absurd fewer (Nat.not_lt_zero _)
    | succ fuel =>
      obtain ⟨more, rfl⟩ := Nat.exists_eq_add_of_le' (Nat.lt_of_lt_of_le (Nat.succ_pos fuel) le)
      have answered {other : Program} {more : Nat} (le : fuel ≤ more)
          (known : KnownAlike program other comparison.known) (asked : String)
          (given : List Kind) (span : Span) (agree : Agree program other (.called asked)) :
          Comparison.Requests ⟨comparison.listed, definition.scopeNames,
            closure.requested ++ [(name, kinds)], comparison.known⟩
            (specialize program fuel asked given span)
            (specialize other more asked given span) := by
        refine ih fuel (Nat.lt_succ_self fuel) le ?_ ?_ ?_ span agree
        · exact Nat.le_of_lt_succ fewer
        · exact listed
        · exact known
      have own : comparison.listed name := listed name (Option.isSome_iff_exists.2 ⟨info, present⟩)
      by_cases recorded : name ∈ comparison.known
      · have built := build_tracks directives
          (answered (Nat.le_of_succ_le_succ le) known)
          (known name recorded definition (by rw [Program.definition?, present, ← same]; rfl))
          own admitted.listed admitted.indexed absent
        exact built.mono fun held => ⟨⟨held.1.indexed, admitted.keys.trans held.1.keys, held.1.listed⟩,
          fun later => (held.2 later).imp_left List.subset_of_cons_subset⟩
      · -- only that the request ends matters: what it leaves is not known
        have built := build_tracks directives
          (answered (Nat.le_refl fuel) fun _ _ definition _ => AgreeFor.refl program definition)
          (AgreeFor.refl program definition) own admitted.listed admitted.indexed absent
        exact built.mono fun held => ⟨⟨held.1.indexed, admitted.keys.trans held.1.keys, held.1.listed⟩,
          fun later => absurd ((held.2 later).1 (.head _)) recorded⟩

end Requests

section Analyses

variable {program other : Program} {candidate : Candidate} {kinds : List Kind}

theorem root_tracks (le : keyCount program ≤ more) (name : String) (kinds : List Kind)
    (directives : DirectiveSet) (known : List String) (own : AgreeFor program other definition)
    (alike : KnownAlike program other known) :
    (build ⟨program, name, specialize program (keyCount program)⟩ definition kinds directives
      {}).Tracks False (fun after => ∀ other ∈ after.dependencies,
        other = name ∨ (program.function? other).isSome) (·.dependencies ⊆ known) True
      (build ⟨other, name, specialize other more⟩ definition kinds directives {}) := by
  have answered (asked : String) (given : List Kind) (span : Span)
      (called : Agree program other (.called asked)) :
      Comparison.Requests ⟨fun other => other = name ∨ (program.function? other).isSome,
        definition.scopeNames, Closure.requested {} ++ [(name, kinds)], known⟩
        (specialize program (keyCount program) asked given span)
        (specialize other more asked given span) := by
    refine specialize_tracks le (freshCount_le program _) ?_ ?_ span called
    · exact fun _ => .inr
    · exact alike
  have built := build_tracks directives answered own (.inl rfl)
    (fun _ none => absurd none List.not_mem_nil) Closure.indexed_empty rfl
  exact built.mono fun held => ⟨held.1.listed, fun recorded => ⟨trivial, (held.2 recorded).2⟩⟩

theorem Trial.eq_of_tracks {inv : List String → Closure → Prop} {earlier : List String → Prop}
    {trial other : Trial Closure α}
    (tracks : ∀ known,
      trial.Tracks False (inv known) (·.dependencies ⊆ known) (earlier known) other) :
    other = trial := by
  cases trial with
  | ok _ after | refused _ after =>
    exact ((tracks after.dependencies).2 (List.Subset.refl after.dependencies)).2
  | exhausted => exact (tracks []).elim

theorem build_of_le (le : keyCount program ≤ more) (name : String) (definition : FunctionDef)
    (directives : DirectiveSet) :
    build ⟨program, name, specialize program more⟩ definition kinds directives {} =
      build ⟨program, name, specialize program (keyCount program)⟩ definition kinds directives
        {} :=
  Trial.eq_of_tracks fun known => root_tracks le name kinds directives known
    (AgreeFor.refl program definition) fun _ _ definition _ => AgreeFor.refl program definition

theorem mem_sortedNames {names : List String} : name ∈ Text.sortedNames names ↔ name ∈ names :=
  Sorted.mem_sort.trans List.mem_eraseDups

theorem specializeRoot_tracks (kinds : List Kind) (known : List String)
    (own : AgreeFor program other candidate.definition)
    (alike : KnownAlike program other known) :
    (specializeRoot program candidate kinds {}).Tracks False (fun after =>
        ∀ name ∈ after.dependencies, name = candidate.name ∨ (program.function? name).isSome)
      (·.dependencies ⊆ known) True (specializeRoot other candidate kinds {}) := by
  unfold specializeRoot
  split
  · have tracks := root_tracks (Nat.le_max_left (keyCount program) (keyCount other)) candidate.name
      kinds candidate.directives known own alike
    rw [build_of_le (Nat.le_max_right (keyCount program) (keyCount other))] at tracks
    exact tracks
  · exact ⟨fun _ none => absurd none List.not_mem_nil, fun _ => ⟨trivial, rfl⟩⟩

/-- An analysis does not depend on functions and constants that are not mentioned in the function or
in those it recorded. -/
theorem analyze_of_known (own : AgreeFor program other candidate.definition)
    (alike : KnownAlike program other (analyze program candidate kinds).dependencies) :
    analyze other candidate kinds = analyze program candidate kinds := by
  unfold analyze at alike ⊢
  cases screened : screenCandidate? candidate with
  | some rejection => rfl
  | none =>
    rw [screened] at alike
    have tracks (known : List String) := specializeRoot_tracks kinds known own
    cases ran : specializeRoot program candidate kinds {} with
    | ok _ closure | refused _ closure =>
      rw [ran] at alike tracks
      have recorded : KnownAlike program other closure.dependencies := fun name member =>
        alike name (mem_sortedNames.2 (.tail _ member))
      simp only [((tracks _ recorded).2 (List.Subset.refl _)).2]
    | exhausted =>
      rw [ran] at tracks
      exact (tracks [] fun name member => absurd member List.not_mem_nil).elim

/-- Whether a name that was looked up is among what an analysis names. -/
def Analysis.Records (analysis : Analysis) : Mention → Prop
  | .read name => name ∈ analysis.globals
  | .called name => name ∈ analysis.dependencies

/-- The functions whose definitions an analysis was derived from. -/
def Consulted (program : Program) (candidate : Candidate) (analysis : Analysis)
    (definition : FunctionDef) : Prop :=
  definition = candidate.definition ∨
    ∃ name ∈ analysis.dependencies, program.definition? name = some definition

/-- What an analysis records determines it, together with the names that its functions mention and
that it does not record: against another program that agrees on all of them it is the same. -/
theorem analyze_of_agreement (program other : Program) (candidate : Candidate) (kinds : List Kind)
    (definitions : ∀ name ∈ (analyze program candidate kinds).dependencies,
      other.definition? name = program.definition? name)
    (constants : ∀ name ∈ (analyze program candidate kinds).globals,
      other.constant? name = program.constant? name)
    (unrecorded : ∀ definition,
      Consulted program candidate (analyze program candidate kinds) definition →
        ∀ mention ∈ definition.freeMentions,
          ¬ (analyze program candidate kinds).Records mention → Agree program other mention) :
    analyze other candidate kinds = analyze program candidate kinds := by
  have alike (definition : FunctionDef)
      (consulted : Consulted program candidate (analyze program candidate kinds) definition) :
      AgreeFor program other definition := by
    intro mention member
    by_cases recorded : (analyze program candidate kinds).Records mention
    · cases mention with
      | read name => exact constants name recorded
      | called name => exact definitions name recorded
    · exact unrecorded definition consulted mention member recorded
  exact analyze_of_known (alike _ (.inl rfl)) fun name member definition found =>
    alike definition (.inr ⟨name, member, found⟩)

def sketch (name param : String) (result : Surface.Expr) : FunctionDef :=
  { name := ⟨name, .synthetic⟩
    params := [⟨⟨param, .synthetic⟩, none, none⟩]
    returns := none
    body := [.giveBack .synthetic (some result)]
    docstring := none
    leadingComments := []
    source := name
    span := .synthetic }

def callOf (name arg : String) : Surface.Expr :=
  .call .synthetic (.name .synthetic name) [.name .synthetic arg] []

/-- `def f(x): return g(x) + limit` -/
def shifted : FunctionDef :=
  sketch "f" "x" (.binary .synthetic .add (callOf "g" "x") (.name .synthetic "limit"))

/-- `def g(x): return abs(x)` -/
def magnitude : FunctionDef := sketch "g" "x" (callOf "abs" "x")

/-- `def abs(x): return x` -/
def shadow : FunctionDef := sketch "abs" "x" (.name .synthetic "x")

/-- `def h(y): return y` -/
def unrelated : FunctionDef := sketch "h" "y" (.name .synthetic "y")

/-- `limit = 3` -/
def limit : Surface.Stmt := .assign .synthetic [.name .synthetic "limit"] (.int .synthetic 3)

def shiftedModule : Surface.Module := ⟨[limit, .define magnitude, .define shifted]⟩

/-- The same functions in another order, and one more. -/
def reorderedModule : Surface.Module :=
  ⟨[.define unrelated, .define shifted, limit, .define magnitude]⟩

/-- The shifted function depends on itself, on the function it calls and on the constant; a module
with another function and another order gives the same analysis. -/
theorem analyze_of_agreement_shifted :
    (analyze (.ofModule shiftedModule) (.ofDefinition shifted) [.scalar .int]).dependencies =
        ["f", "g"] ∧
      (analyze (.ofModule shiftedModule) (.ofDefinition shifted) [.scalar .int]).globals =
        ["limit"] ∧
      analyze (.ofModule reorderedModule) (.ofDefinition shifted) [.scalar .int] =
        analyze (.ofModule shiftedModule) (.ofDefinition shifted) [.scalar .int] := by
  have dependencies : (analyze (.ofModule shiftedModule) (.ofDefinition shifted)
      [.scalar .int]).dependencies = ["f", "g"] := by decide +kernel
  have globals : (analyze (.ofModule shiftedModule) (.ofDefinition shifted)
      [.scalar .int]).globals = ["limit"] := by decide +kernel
  refine ⟨dependencies, globals, analyze_of_agreement _ _ _ _ ?_ ?_ ?_⟩
  · rw [dependencies]
    simp only [List.forall_mem_cons]
    exact ⟨rfl, rfl, fun _ member => absurd member List.not_mem_nil⟩
  · rw [globals]
    simp only [List.forall_mem_cons]
    exact ⟨rfl, fun _ member => absurd member List.not_mem_nil⟩
  · intro definition consulted mention member _
    have free : mention ∈ [.called "g", .read "limit"] ∨ mention ∈ [.called "abs"] := by
      rcases consulted with rfl | ⟨name, named, found⟩
      · exact .inl member
      · rw [dependencies] at named
        rcases List.mem_cons.1 named with rfl | named
        · cases found
          exact .inl member
        · cases List.mem_singleton.1 named
          cases found
          exact .inr member
    simp only [List.mem_cons, List.not_mem_nil, or_false] at free
    rcases free with (rfl | rfl) | rfl <;> rfl

/-- A function of the module may take the name of a builtin. What the analysis against the module
without it records stays as it is, but the call becomes one of that function. -/
theorem analyze_differs_shadowed :
    (∀ name ∈ (analyze (.ofModule ⟨[.define magnitude]⟩) (.ofDefinition magnitude)
        [.scalar .int]).dependencies,
      (Program.ofModule ⟨[.define magnitude, .define shadow]⟩).definition? name =
        (Program.ofModule ⟨[.define magnitude]⟩).definition? name) ∧
      (analyze (.ofModule ⟨[.define magnitude]⟩) (.ofDefinition magnitude) [.scalar .int]).globals = [] ∧
      (analyze (.ofModule ⟨[.define magnitude, .define shadow]⟩) (.ofDefinition magnitude)
          [.scalar .int]).dependencies ≠
        (analyze (.ofModule ⟨[.define magnitude]⟩) (.ofDefinition magnitude)
          [.scalar .int]).dependencies := by
  have dependencies : (analyze (.ofModule ⟨[.define magnitude]⟩) (.ofDefinition magnitude)
      [.scalar .int]).dependencies = ["g"] := by decide +kernel
  refine ⟨?_, by decide +kernel, by decide +kernel⟩
  rw [dependencies]
  intro name member
  cases List.mem_singleton.1 member
  rfl

end Analyses

end TwoTier.Eligibility
