import TwoTier.Proofs.Dispatch.Generations

namespace TwoTier.Dispatch

open Interp (Calls Heap Policy Program Run Value World)

open Relation (ReflTransGen)

namespace Registry

variable {entry : Entry} {name : String}

variable {registry : Registry} {program : Program} {id other : FunctionId}

theorem undecided_of_claim? (taken : entry.claim? = some claimed) :
    entry.decision = .undecided ∧ claimed = entry.decided .pending := by
  unfold Entry.claim? at taken
  split at taken
  · rename_i undecided
    refine ⟨?_, (Option.some.inj taken).symm⟩
    generalize entry.decision = decision at undecided ⊢
    cases decision with
    | undecided => rfl
    | pending | compiled | fallback => cases undecided
  · cases taken

theorem getElem?_push {entry added : Entry} (found : registry.entry? id = some entry) :
    (registry.entries.push added)[id]? = some entry := by
  have inside : id < registry.entries.size := (Array.getElem?_eq_some_iff.1 found).1
  rw [Array.getElem?_push_lt inside]
  exact found ▸ (Array.getElem?_eq_getElem inside).symm

theorem entry?_renew (candidate : Candidate) : Registry.entry? (registry.renew id candidate) other =
    if id = other then (registry.entry? other).map (·.renewed candidate)
    else registry.entry? other := by
  unfold renew
  split
  · rename_i absent
    split
    · rename_i same
      rw [← same, absent]
      rfl
    · rfl
  · rename_i entry found
    have unfolded : Registry.entry? ((registry.modifyEntry id fun _ => entry.renewed candidate).report
        (endOfGeneration entry)) other =
          Registry.entry? (registry.modifyEntry id fun _ => entry.renewed candidate) other := rfl
    rw [unfolded, entry?_modifyEntry]
    split
    · rename_i same
      rw [← same, found]
      rfl
    · rfl

theorem undecided_of_renew (found : Registry.entry? (registry.renew id candidate) id = some entry) :
    entry.decision = .undecided := by
  rw [entry?_renew, if_pos rfl] at found
  obtain ⟨old, _, rfl⟩ := Option.map_eq_some_iff.1 found
  rfl

theorem entry?_renew_ne (candidate : Candidate) (different : id ≠ other) :
    Registry.entry? (registry.renew id candidate) other = registry.entry? other := by
  rw [entry?_renew, if_neg different]

theorem entry?_schedule_ne (kinds : List Kind) (different : id ≠ other) :
    Registry.entry? (registry.schedule program id kinds) other = registry.entry? other := by
  unfold schedule
  split
  · rfl
  · split
    · rfl
    · dsimp only
      split
      · exact entry?_modifyEntry_ne different
      · rw [Workshop.entry?_finish, if_neg different, entry?_modifyEntry_ne different]

theorem entry?_prepare_ne (different : id ≠ other) :
    Registry.entry? (registry.prepare program id) other = registry.entry? other := by
  unfold prepare
  split
  · rfl
  · split
    · rfl
    · split
      · unfold reject
        split
        · rfl
        · exact entry?_modifyEntry_ne different
      · dsimp only
        split
        · split
          · exact entry?_schedule_ne _ different
          · rfl
        · rfl

theorem entry?_reset_ne (entry : Entry) (different : id ≠ other) :
    Registry.entry? (registry.reset program id entry) other = registry.entry? other :=
  (entry?_prepare_ne different).trans (entry?_renew_ne _ different)

theorem mem_dependents {skip : Option FunctionId} (found : registry.entry? id = some entry)
    (depends : entry.dependsOn name = true) (other : some id ≠ skip) :
    (id, entry) ∈ registry.dependents name skip := by
  refine List.mem_filter.2 ⟨List.mem_map.2 ⟨(entry, id), ?_, rfl⟩, ?_⟩
  · rw [List.mem_zipIdx_iff_getElem?, Array.getElem?_toList]
    exact found
  · rw [Bool.and_eq_true, bne_iff_ne]
    exact ⟨other, depends⟩

/-- A change of a name concerns the function that is called by it, and what was derived from it. -/
def Concerns (registry : Registry) (name : String) (id : FunctionId) : Prop :=
  registry.resolve? name = some id ∨
    ∃ entry, registry.entry? id = some entry ∧ entry.dependsOn name = true

end Registry

namespace Workshop

variable {registry : Registry} {underway : List Job} {program : Program} {id : FunctionId}

/-! ### The parts of an operation -/

theorem maintains_report (diagnostics : List Diagnostic) :
    Maintains ⟨registry, underway⟩ ⟨registry.report diagnostics, underway⟩ :=
  maintains_of_eq rfl (.refl _)

theorem advances_count {step : Tally → Tally}
    (same : ∀ tally, (step tally).compileAttempts = tally.compileAttempts) :
    Advances ⟨registry, underway⟩ ⟨registry.count id step, underway⟩ :=
  advances_modify fun entry _ => ⟨.refl, same entry.tally, fun _ => ⟨rfl, .refl, fun h => h⟩⟩

theorem maintains_remember (limits : Native.Limits) (calls : List Native.OpenCall) :
    Maintains ⟨registry, underway⟩ ⟨registry.remember id limits calls, underway⟩ :=
  maintains_modify fun _ _ => ⟨⟨.refl, rfl, fun _ => ⟨rfl, .refl, fun h => h⟩⟩, rfl⟩

theorem maintains_schedule (kinds : List Kind) :
    Maintains ⟨registry, underway⟩ ⟨registry.schedule program id kinds, underway⟩ := by
  unfold Registry.schedule
  split
  · exact .refl _
  · rename_i entry found
    split
    · exact .refl _
    · rename_i claimed taken
      obtain ⟨undecided, rfl⟩ := Registry.undecided_of_claim? taken
      dsimp only
      split
      · exact maintains_claim found undecided rfl ((enqueue_perm _ _).append_right underway)
      · -- the compilation is under way until it ends within the operation
        have claims : Maintains ⟨registry, underway⟩
            ⟨registry.modifyEntry id fun _ => entry.decided .pending,
              ⟨id, entry.generation, entry.candidate, kinds⟩ :: underway⟩ :=
          maintains_claim found undecided rfl List.perm_middle
        exact claims.trans (maintains_finish program List.perm_middle)

theorem maintains_scheduleAfter (args : List Value) (heap : Heap) :
    Maintains ⟨registry, underway⟩ ⟨registry.scheduleAfter program id args heap, underway⟩ := by
  unfold Registry.scheduleAfter
  split
  · exact .refl _
  · apply iteInduction (motive := fun later => Maintains ⟨registry, underway⟩ ⟨later, underway⟩)
    · intro due
      split
      · exact maintains_schedule _
      · exact .refl _
    · exact fun _ => .refl _

theorem maintains_reject (found : registry.entry? id = some entry)
    (rejection : Eligibility.Rejection) :
    Maintains ⟨registry, underway⟩ ⟨registry.reject id entry rejection, underway⟩ := by
  unfold Registry.reject
  split
  · exact .refl _
  · rename_i claimed taken
    obtain ⟨undecided, rfl⟩ := Registry.undecided_of_claim? taken
    refine (maintains_modify fun other present => ?_).trans (maintains_report _)
    obtain rfl : entry = other := Option.mem_unique found present
    unfold Entry.settle Revised
    rw [if_pos ⟨rfl, rfl⟩, undecided]
    refine ⟨⟨.refl, rfl, fun _ => ⟨rfl, ?_, fun pending => by cases pending⟩⟩, rfl⟩
    exact .tail (.single .claimed) (.fellBack _ _)

theorem maintains_prepare :
    Maintains ⟨registry, underway⟩ ⟨registry.prepare program id, underway⟩ := by
  unfold Registry.prepare
  split
  · exact .refl _
  · rename_i entry found
    split
    · exact .refl _
    · split
      · exact maintains_reject found _
      · dsimp only
        split
        · split
          · exact maintains_schedule _
          · exact .refl _
        · exact .refl _

theorem maintains_renew (id : FunctionId) (candidate : Candidate) :
    Maintains ⟨registry, underway⟩ ⟨registry.renew id candidate, underway⟩ := by
  unfold Registry.renew
  split
  · exact .refl _
  · rename_i entry found
    refine (maintains_modify fun other present => ?_).trans (maintains_report _)
    obtain rfl : entry = other := Option.mem_unique found present
    exact ⟨⟨Nat.le_succ _, rfl, fun same => absurd same (Nat.succ_ne_self _)⟩, rfl⟩

theorem maintains_reset (entry : Entry) :
    Maintains ⟨registry, underway⟩ ⟨registry.reset program id entry, underway⟩ :=
  (maintains_renew _ _).trans maintains_prepare

theorem maintains_resets (found : List (FunctionId × Entry)) :
    Maintains ⟨registry, underway⟩
      ⟨found.foldl (fun registry item => registry.reset program item.1 item.2) registry,
        underway⟩ := by
  induction found generalizing registry with
  | nil => exact .refl _
  | cons item rest ih => exact (maintains_reset item.2).trans ih

theorem maintains_resetDependents (name : String) (skip : Option FunctionId) :
    Maintains ⟨registry, underway⟩ ⟨(registry.resetDependents program name skip).2, underway⟩ :=
  maintains_resets _

theorem advances_push (candidate : Candidate) :
    Advances ⟨registry, underway⟩
      ⟨{ registry with entries := registry.entries.push (.first candidate) }, underway⟩ := by
  set after : Registry := { registry with entries := registry.entries.push (.first candidate) }
  have kept {id : FunctionId} {entry : Entry} (found : registry.entry? id = some entry) :
      after.entry? id = some entry := Registry.getElem?_push found
  have asks {id : FunctionId} {entry : Entry} (found : registry.entry? id = some entry) :
      asked ⟨after, underway⟩ id = asked ⟨registry, underway⟩ id := by
    rw [asked, kept found, asked, found]
    rfl
  refine ⟨fun sound => ⟨fun job member => ?_, sound.distinct, fun id entry found => ?_⟩, ?_⟩
  · obtain ⟨entry, found, still⟩ := sound.jobs job member
    exact ⟨entry, kept found, still⟩
  · cases old : registry.entry? id with
    | some before =>
      obtain rfl : before = entry := Option.mem_unique (kept old) found
      rw [asks old]
      exact sound.bounded id before old
    | none =>
      have unasked : (outstanding ⟨after, underway⟩).countP (·.id = id) = 0 := by
        refine List.countP_eq_zero.2 fun job member same => ?_
        obtain ⟨before, there, _⟩ := sound.jobs job member
        rw [of_decide_eq_true same, old] at there
        cases there
      have beyond : registry.entries.size ≤ id := Array.getElem?_eq_none_iff.1 old
      have pushed : id = registry.entries.size ∧ entry = .first candidate := by
        rw [Registry.entry?, Array.getElem?_push] at found
        split at found
        · rename_i last
          exact ⟨last, (Option.some.inj found).symm⟩
        · rw [Array.getElem?_eq_none_iff.2 beyond] at found
          cases found
      rw [asked, found, unasked, pushed.2]
      exact .refl
  · intro sound id entry found
    refine ⟨entry, kept found, .refl, fun _ => rfl, fun _ => .refl, ?_⟩
    exact Nat.le_of_eq (by rw [asks found])

/-! ### Operations -/

theorem maintains_register (candidate : Candidate) :
    Maintains ⟨registry, underway⟩ ⟨(registry.register program candidate).2.2, underway⟩ ∨
      Maintains ⟨{ registry with entries := registry.entries.push (.first candidate) }, underway⟩
        ⟨(registry.register program candidate).2.2, underway⟩ := by
  unfold Registry.register
  dsimp only
  split
  · rename_i id _
    refine .inl ((maintains_report (Diagnostic.ofGuidance candidate.name candidate.guidance)).trans ?_)
    refine (maintains_renew id candidate).trans ?_
    exact (maintains_resetDependents _ _).trans maintains_prepare
  · refine .inr (Maintains.trans ?_ maintains_prepare)
    exact maintains_of_eq rfl (.refl _)

theorem advances_register (candidate : Candidate) :
    Advances ⟨registry, underway⟩ ⟨(registry.register program candidate).2.2, underway⟩ := by
  obtain known | pushed := maintains_register candidate
  · exact known.toAdvances
  · exact (advances_push candidate).trans pushed.toAdvances

theorem maintains_invalidate (name : String) :
    Maintains ⟨registry, underway⟩ ⟨(registry.invalidate program name).2, underway⟩ := by
  unfold Registry.invalidate
  split
  · exact maintains_resetDependents _ _
  · split
    · exact maintains_resetDependents _ _
    · exact (maintains_reset _).trans (maintains_resetDependents _ _)

theorem maintains_retire (id : FunctionId) (candidate : Candidate) :
    Maintains ⟨registry.renew id candidate, underway⟩
      ⟨(registry.renew id candidate).modifyEntry id fun entry =>
        entry.settle entry.generation (.fallback .removed {}), underway⟩ := by
  refine maintains_modify fun next present => ?_
  have undecided := Registry.undecided_of_renew present
  unfold Entry.settle Revised
  rw [if_pos ⟨rfl, by rw [undecided]; rfl⟩, undecided]
  exact ⟨⟨.refl, rfl, fun _ => ⟨rfl, .single .removed, fun pending => by cases pending⟩⟩, rfl⟩

theorem maintains_remove (name : String) :
    Maintains ⟨registry, underway⟩ ⟨(registry.remove program name).2, underway⟩ := by
  unfold Registry.remove
  split
  · exact .refl _
  · rename_i id resolved
    have forgets : Maintains ⟨registry, underway⟩
        ⟨{ registry with names := registry.names.erase name }, underway⟩ :=
      maintains_of_eq rfl (.refl _)
    dsimp only
    split
    · exact forgets.trans (maintains_resetDependents _ _)
    · rename_i entry found
      have retires := (forgets.trans (maintains_renew id entry.candidate)).trans (maintains_retire _ _)
      exact retires.trans (maintains_resetDependents _ _)

/-! ### Resets -/

/-- A function is at a later generation, if there is one of this number. -/
def Restarts (before after : Registry) (id : FunctionId) : Prop :=
  ∀ entry, before.entry? id = some entry →
    ∃ next, after.entry? id = some next ∧ entry.generation < next.generation

variable {middle after : Registry}

theorem Restarts.maintains (restarts : Restarts registry middle id)
    (sound : Sound ⟨middle, underway⟩)
    (maintains : Maintains ⟨middle, underway⟩ ⟨after, underway⟩) : Restarts registry after id := by
  intro entry found
  obtain ⟨between, present, lt⟩ := restarts entry found
  obtain ⟨next, there, continues⟩ := maintains.entries sound present
  exact ⟨next, there, Nat.lt_of_lt_of_le lt continues.generation_le⟩

theorem Maintains.restarts (maintains : Maintains ⟨registry, underway⟩ ⟨middle, underway⟩)
    (sound : Sound ⟨registry, underway⟩) (restarts : Restarts middle after id) :
    Restarts registry after id := by
  intro entry found
  obtain ⟨between, present, continues⟩ := maintains.entries sound found
  obtain ⟨next, there, lt⟩ := restarts between present
  exact ⟨next, there, Nat.lt_of_le_of_lt continues.generation_le lt⟩

theorem restarts_absent (absent : registry.entry? id = none) : Restarts registry after id := by
  intro entry found
  cases absent.symm.trans found

theorem restarts_renew (id : FunctionId) (candidate : Candidate) :
    Restarts registry (registry.renew id candidate) id := by
  intro entry found
  refine ⟨entry.renewed candidate, ?_, Nat.lt_succ_self _⟩
  rw [Registry.entry?_renew, if_pos rfl, found]
  rfl

section

variable (sound : Sound ⟨registry, underway⟩)

include sound

theorem restarts_reset (entry : Entry) :
    Restarts registry (registry.reset program id entry) id :=
  (restarts_renew _ _).maintains ((maintains_renew _ _).sound sound) maintains_prepare

theorem restarts_resets {found : List (FunctionId × Entry)} (member : (id, entry) ∈ found) :
    Restarts registry
      (found.foldl (fun registry item => registry.reset program item.1 item.2) registry) id := by
  induction found generalizing registry with
  | nil => cases member
  | cons item rest ih =>
    have reset : Sound ⟨registry.reset program item.1 item.2, underway⟩ :=
      (maintains_reset item.2).sound sound
    cases member with
    | head => exact (restarts_reset sound entry).maintains reset (maintains_resets rest)
    | tail _ later => exact (maintains_reset item.2).restarts sound (ih reset later)

theorem restarts_resetDependents {skip : Option FunctionId}
    (found : registry.entry? id = some entry) (depends : entry.dependsOn name = true)
    (other : some id ≠ skip) :
    Restarts registry (registry.resetDependents program name skip).2 id :=
  restarts_resets sound (Registry.mem_dependents found depends other)

/-- A function is renewed, and then all else that the change of its name concerns is reset. -/
theorem restarts_renewThen {first : FunctionId} (resolved : registry.resolve? name = some first)
    (begins : Maintains ⟨registry, underway⟩ ⟨middle, underway⟩)
    (itself : Restarts registry middle first)
    (others : ∀ other, first ≠ other → middle.entry? other = registry.entry? other)
    (concerned : registry.Concerns name id) :
    Restarts registry (middle.resetDependents program name (some first)).2 id := by
  by_cases same : first = id
  · subst same
    exact itself.maintains (begins.sound sound) (maintains_resetDependents _ _)
  · obtain own | ⟨entry, found, depends⟩ := concerned
    · exact absurd (Option.mem_unique resolved own) same
    · have unchanged := (others id same).trans found
      refine begins.restarts sound
        (restarts_resetDependents (begins.sound sound) unchanged depends ?_)
      exact fun equal => same (Option.some.inj equal).symm

theorem restarts_register (known : (registry.resolve? candidate.name).isSome)
    (concerned : registry.Concerns candidate.name id) :
    Restarts registry (registry.register program candidate).2.2 id := by
  obtain ⟨first, resolved⟩ := Option.isSome_iff_exists.1 known
  set guided := registry.report (Diagnostic.ofGuidance candidate.name candidate.guidance)
  have begins : Maintains ⟨registry, underway⟩ ⟨guided.renew first candidate, underway⟩ :=
    (maintains_report _).trans (maintains_renew _ candidate)
  have others (other : FunctionId) (different : first ≠ other) :
      Registry.entry? (guided.renew first candidate) other = registry.entry? other :=
    Registry.entry?_renew_ne candidate different
  have unfolded : (registry.register program candidate).2.2 =
      ((guided.renew first candidate).resetDependents program candidate.name
        (some first)).2.prepare program first := by
    have still : guided.resolve? candidate.name = some first := resolved
    unfold Registry.register
    dsimp only
    split
    · rename_i other found
      obtain rfl : other = first := Option.mem_unique found still
      rfl
    · rename_i absent
      cases absent.symm.trans still
  rw [unfolded]
  refine Restarts.maintains ?_ ((begins.trans (maintains_resetDependents _ _)).sound sound)
    maintains_prepare
  have itself : Restarts registry (guided.renew first candidate) first :=
    (maintains_report _).restarts sound (restarts_renew first candidate)
  exact restarts_renewThen sound resolved begins itself others concerned

theorem restarts_invalidate (concerned : registry.Concerns name id) :
    Restarts registry (registry.invalidate program name).2 id := by
  unfold Registry.invalidate
  split
  · rename_i unresolved
    obtain own | ⟨entry, found, depends⟩ := concerned
    · cases unresolved.symm.trans own
    · exact restarts_resetDependents sound found depends (by intro equal; cases equal)
  · rename_i first resolved
    split
    · rename_i absent
      exact restarts_renewThen sound resolved (.refl _) (restarts_absent absent) (fun _ _ => rfl)
        concerned
    · rename_i entry found
      refine restarts_renewThen sound resolved (maintains_reset entry) (restarts_reset sound entry) ?_
        concerned
      exact fun other different => Registry.entry?_reset_ne entry different

theorem restarts_remove
    (known : (registry.resolve? name).isSome) (concerned : registry.Concerns name id) :
    Restarts registry (registry.remove program name).2 id := by
  obtain ⟨first, resolved⟩ := Option.isSome_iff_exists.1 known
  have forgets : Maintains ⟨registry, underway⟩
      ⟨{ registry with names := registry.names.erase name }, underway⟩ :=
    maintains_of_eq rfl (.refl _)
  unfold Registry.remove
  split
  · rename_i unresolved
    cases unresolved.symm.trans resolved
  · rename_i other found
    obtain rfl : other = first := Option.mem_unique found resolved
    dsimp only
    split
    · rename_i absent
      exact restarts_renewThen sound resolved forgets (restarts_absent absent) (fun _ _ => rfl)
        concerned
    · rename_i entry present
      have renews := forgets.trans (maintains_renew other entry.candidate)
      refine restarts_renewThen sound resolved (renews.trans (maintains_retire _ _)) ?_ ?_ concerned
      · have itself := forgets.restarts sound (restarts_renew other entry.candidate)
        exact itself.maintains (renews.sound sound) (maintains_retire _ _)
      · intro other different
        rw [Registry.entry?_modifyEntry_ne different, Registry.entry?_renew_ne _ different]
        rfl

end

/-! ### Calls -/

/-- Interpretation put off: the calls made by it are calls of their own. -/
def deferred (_ : String) (_ : List Value) : Run (World Registry) Value := pure .none

/-- The part of a call in which the dispatcher decides and counts comes before interpretation. -/
theorem callEntry_cases (program : Program) (remaining : Nat)
    (interpret : String → List Value → Run (World Registry) Value) (id : FunctionId)
    (args : List Value) (world : World Registry) :
    callEntry program remaining interpret id args world =
        callEntry program remaining deferred id args world ∨
      ∃ name registry,
        callEntry program remaining deferred id args world = .ok .none { world with tier := registry } ∧
          callEntry program remaining interpret id args world =
            interpret name args { world with tier := registry } := by
  unfold callEntry
  dsimp only
  split
  · exact .inl rfl
  · split
    · exact .inr ⟨_, _, rfl, rfl⟩
    · exact .inr ⟨_, _, rfl, rfl⟩
    · exact .inr ⟨_, _, rfl, rfl⟩
    · split
      · exact .inl rfl
      · exact .inr ⟨_, _, rfl, rfl⟩
      · exact .inr ⟨_, _, rfl, rfl⟩
      · exact .inl rfl

theorem eq_of_deferred_ends {args : List Value} {ended : World Registry}
    (ends : (deferred name args world).Ends ended) : ended = world := by
  cases ends
  rfl

theorem advances_callEntry {args : List Value} {ended : World Registry}
    (ends : (callEntry program remaining deferred id args world).Ends ended) :
    Advances ⟨world.tier, underway⟩ ⟨ended.tier, underway⟩ := by
  obtain ⟨heap, globals, output, registry⟩ := world
  have called : Advances ⟨registry, underway⟩ ⟨registry.count id .countCall, underway⟩ :=
    advances_count fun _ => rfl
  have interpreted (middle : Registry) {name : String}
      (advances : Advances ⟨registry, underway⟩ ⟨middle, underway⟩)
      (ends : (deferred name args
        ⟨heap, globals, output, middle.count id .countInterpreted⟩).Ends ended) :
      Advances ⟨registry, underway⟩ ⟨ended.tier, underway⟩ := by
    rw [eq_of_deferred_ends ends]
    exact advances.trans (advances_count fun _ => rfl)
  unfold callEntry at ends
  dsimp only at ends
  split at ends
  · cases ends
    exact .refl _
  · split at ends
    · exact interpreted _ (called.trans (maintains_scheduleAfter args heap).toAdvances) ends
    · exact interpreted _ called ends
    · exact interpreted _ called ends
    · split at ends
      · cases ends
        exact called.trans (advances_count fun _ => rfl)
      · have left : Advances ⟨registry, underway⟩
            ⟨(registry.count id .countCall).count id .countDeopt, underway⟩ :=
          called.trans (advances_count fun _ => rfl)
        exact interpreted _ (left.trans (maintains_remember ..).toAdvances) ends
      · exact interpreted _ called ends
      · cases ends

/-- What can happen next: an operation of a caller, or the work of one of the workers. -/
inductive Step : Workshop → Workshop → Prop where
  /-- a new function, or a new version of one -/
  | registers {registry : Registry} {underway : List Job} (program : Program)
      (candidate : Candidate) :
      Step ⟨registry, underway⟩ ⟨(registry.register program candidate).2.2, underway⟩
  | invalidates {registry : Registry} {underway : List Job} (program : Program) (name : String) :
      Step ⟨registry, underway⟩ ⟨(registry.invalidate program name).2, underway⟩
  | removes {registry : Registry} {underway : List Job} (program : Program) (name : String) :
      Step ⟨registry, underway⟩ ⟨(registry.remove program name).2, underway⟩
  /-- a call, up to the interpretation of its body -/
  | calls {underway : List Job} {program : Program} {remaining : Nat} {id : FunctionId}
      {args : List Value} {world ended : World Registry}
      (ends : (callEntry program remaining deferred id args world).Ends ended) :
      Step ⟨world.tier, underway⟩ ⟨ended.tier, underway⟩
  /-- a worker takes the compilation that waits at the head of the queue -/
  | takes {registry : Registry} {underway queue : List Job} {job : Job}
      (waits : registry.queue = job :: queue) :
      Step ⟨registry, underway⟩ ⟨{ registry with queue }, job :: underway⟩
  /-- a compilation that some worker has taken ends -/
  | finishes {registry : Registry} {before after : List Job} (program : Program) (job : Job) :
      Step ⟨registry, before ++ job :: after⟩ ⟨registry.finish program job, before ++ after⟩

theorem maintains_finishes {before after : List Job} (program : Program) (job : Job) :
    Maintains ⟨registry, before ++ job :: after⟩ ⟨registry.finish program job, before ++ after⟩ := by
  refine maintains_finish program ?_
  rw [outstanding, ← List.append_assoc, ← List.append_assoc]
  exact List.perm_middle

theorem Step.advances {next : Workshop} (step : Step shop next) : Advances shop next := by
  cases step with
  | registers program candidate => exact advances_register candidate
  | invalidates program name => exact (maintains_invalidate name).toAdvances
  | removes program name => exact (maintains_remove name).toAdvances
  | calls ends => exact advances_callEntry ends
  | takes waits =>
    refine Maintains.toAdvances (maintains_of_eq rfl ?_)
    rw [outstanding, outstanding, waits]
    exact List.perm_middle
  | finishes program job => exact (maintains_finishes program job).toAdvances

theorem advances_of_steps {last : Workshop} (steps : ReflTransGen Step shop last) :
    Advances shop last := by
  induction steps with
  | refl => exact .refl _
  | tail _ step ih => exact ih.trans step.advances

theorem sound_start (settings : Settings) : Sound ⟨{ settings }, []⟩ where
  jobs _ member := absurd member List.not_mem_nil
  distinct := List.nodup_nil
  bounded id _ found := by
    have absent : Registry.entry? ({ settings } : Registry) id = none := Array.getElem?_empty
    cases absent.symm.trans found

section Calls

variable {shop : Workshop} {engine : Engine} {args : List Value} {world : World Registry}

/-- The registries that a workshop can come to have while its workers stand still. -/
def reached (shop : Workshop) : Policy Registry Registry :=
  .relating fun registry other =>
    registry = other ∧ ReflTransGen Step shop ⟨registry, shop.underway⟩

theorem pairs_reached {other : World Registry} :
    World.Pairs shop.reached world other ↔
      world = other ∧ ReflTransGen Step shop ⟨world.tier, shop.underway⟩ := by
  constructor
  · rintro ⟨_, rfl, steps⟩
    exact ⟨rfl, steps⟩
  · rintro ⟨rfl, steps⟩
    exact .intro ⟨trivial, trivial, trivial⟩ ⟨rfl, steps⟩

theorem pairs_reached_self (world : World Registry) :
    World.Pairs shop.reached world world ↔ ReflTransGen Step shop ⟨world.tier, shop.underway⟩ := by
  rw [pairs_reached, eq_self, true_and]

theorem runs_callEntry (program : Program) (interprets : shop.reached.Serves interpret interpret)
    (remaining : Nat) (id : FunctionId) (args : List Value) :
    shop.reached.Runs shop.reached.admits (callEntry program remaining interpret id args)
      (callEntry program remaining interpret id args) := by
  constructor
  intro world other pairs
  obtain ⟨rfl, steps⟩ := pairs_reached.1 pairs
  have stepped {ended : World Registry}
      (ends : (callEntry program remaining deferred id args world).Ends ended) :
      World.Pairs shop.reached ended ended :=
    pairs_reached.2 ⟨rfl, steps.tail (.calls ends)⟩
  obtain same | ⟨name, registry, begins, continues⟩ :=
    callEntry_cases program remaining interpret id args world
  · rw [same]
    generalize callEntry program remaining deferred id args world = result at stepped
    cases result with
    | ok value ended => exact .ok trivial (stepped .ok)
    | raised exception ended => exact .raised (stepped .raised)
    | exhausted => exact .exhausted
  · rw [continues]
    exact (interprets name fun _ _ => trivial).agrees (stepped (begins ▸ .ok))

theorem obeys_route (program : Program) (fuel maxDepth : Nat) :
    (route program).Obeys shop.reached program fuel maxDepth (route program) := by
  intro remaining _ interprets callee args all
  constructor
  intro world other pairs
  obtain ⟨rfl, _⟩ := pairs_reached.1 pairs
  unfold route
  split
  · exact (runs_callEntry program interprets remaining _ args).agrees pairs
  · exact (interprets callee all).agrees pairs

/-- A whole call by number, with all calls that its body makes, is a sequence of steps. -/
theorem steps_invoke (same : engine.registry = shop.registry)
    (ends : (engine.invoke id args).Ends world) :
    ReflTransGen Step shop ⟨world.tier, shop.underway⟩ := by
  have sound : shop.reached.Sound := Policy.sound_relating _
  have interprets := sound.serves_interpretAt
    (obeys_route engine.program Interp.loopAllowance engine.maxDepth) (fun _ _ _ _ _ => trivial)
    engine.maxDepth .refl
  have start : ReflTransGen Step shop ⟨engine.world.tier, shop.underway⟩ :=
    (congrArg (ReflTransGen Step shop ⟨·, shop.underway⟩) same).mpr .refl
  have kept := Run.Keeps.of_matches pairs_reached_self
    (runs_callEntry engine.program interprets engine.maxDepth id args)
  exact (kept.leaves start).ends ends

end Calls

theorem steps_foldl {step : σ → α → σ} (registry : σ → Registry)
    (each : ∀ state item, ReflTransGen Step ⟨registry state, underway⟩
      ⟨registry (step state item), underway⟩) (items : List α) (state : σ) :
    ReflTransGen Step ⟨registry state, underway⟩ ⟨registry (items.foldl step state), underway⟩ := by
  induction items generalizing state with
  | nil => exact .refl
  | cons item rest ih => exact (each state item).trans (ih _)

theorem steps_registerAll (program : Program) :
    ReflTransGen Step ⟨registry, underway⟩ ⟨registry.registerAll program, underway⟩ :=
  steps_foldl id (fun _ candidate => .single (.registers program candidate)) _ registry

/-- From the first registration on, whatever callers and workers do in whatever order: an entry stays
under its number, and its generations only grow. Within a generation its function is the same, its
decision moves on as stated and never changes once it is final, and no compilation is asked for after
the first; there are never more of them than generations. Registering a known name, invalidating
and removing begin a new generation of all that they concern. A compilation that ends for an older
generation is counted and changes nothing else. Whole calls are made of these steps too. -/
theorem generations_settle_once (settings : Settings) {shop last : Workshop}
    (reached : ReflTransGen Step ⟨{ settings }, []⟩ shop) (follows : ReflTransGen Step shop last) :
    (∀ id entry, shop.registry.entry? id = some entry →
      ∃ next, last.registry.entry? id = some next ∧
        entry.generation ≤ next.generation ∧
        (next.generation = entry.generation →
          next.candidate = entry.candidate ∧
          ReflTransGen Decision.Follows entry.decision next.decision ∧
          (entry.decision.isFinal = true → next.decision = entry.decision) ∧
          last.asked id + next.decision.chances ≤ shop.asked id + entry.decision.chances) ∧
        last.asked id + next.decision.chances ≤ next.generation + 1) ∧
    (shop.outstanding.map fun job => (job.id, job.generation)).Nodup ∧
    (∀ program name id, shop.registry.Concerns name id →
      Restarts shop.registry (shop.registry.invalidate program name).2 id ∧
      ((shop.registry.resolve? name).isSome →
        Restarts shop.registry (shop.registry.remove program name).2 id ∧
        ∀ candidate : Candidate, candidate.name = name →
          Restarts shop.registry (shop.registry.register program candidate).2.2 id)) ∧
    (∀ program job entry, shop.registry.entry? job.id = some entry →
      job.generation < entry.generation →
        Registry.entry? (shop.registry.finish program job) job.id =
          some { entry with tally := entry.tally.countAttempt } ∧
        ∀ other, other ≠ job.id →
          Registry.entry? (shop.registry.finish program job) other = shop.registry.entry? other) ∧
    ∀ (engine : Engine) id args world, engine.registry = shop.registry →
      (engine.invoke id args).Ends world →
        ReflTransGen Step shop ⟨world.tier, shop.underway⟩ := by
  have sound := (advances_of_steps reached).sound (sound_start settings)
  refine ⟨fun id entry found => ?_, sound.distinct, fun program name id concerned => ?_,
    fun program job entry found older => ?_, fun engine id args world => steps_invoke⟩
  · have advances := advances_of_steps follows
    obtain ⟨next, there, continues⟩ := advances.entries sound found
    refine ⟨next, there, continues.generation_le, fun same => ?_,
      (advances.sound sound).bounded id next there⟩
    have moves := continues.moves same
    have asks := continues.asked_le
    exact ⟨continues.candidate_eq same, moves, Decision.eq_of_final moves, by omega⟩
  · refine ⟨restarts_invalidate sound concerned, fun known => ?_⟩
    refine ⟨restarts_remove sound known concerned, fun candidate named => ?_⟩
    subst named
    exact restarts_register sound known concerned
  · refine ⟨?_, fun other different => ?_⟩
    · rw [entry?_finish, if_pos rfl, found]
      have dropped (decision : Decision) :
          ({ entry with tally := entry.tally.countAttempt } : Entry).settle job.generation decision =
            { entry with tally := entry.tally.countAttempt } :=
        if_neg fun guarded => Nat.ne_of_gt older guarded.1
      exact congrArg some (dropped _)
    · rw [entry?_finish, if_neg different.symm]

def tickSource : String := "def tick(n: int):\n    return n + 1\n"

/-- Compilation is asked for as soon as a function is registered. -/
def tickSettings : Settings := { executionOverride := some .compileAll }

/-- A worker takes the compilation of the first generation, the function is invalidated, and the
compilation ends: the second generation is still pending, with a compilation of its own. -/
theorem generations_settle_once_tick :
    ∃ shop last : Workshop, ∃ next, ReflTransGen Step ⟨{ settings := tickSettings }, []⟩ shop ∧
      ReflTransGen Step shop last ∧ (shop.registry.entry? 0).map (·.generation) = some 0 ∧
      last.registry.entry? 0 = some next ∧ next.generation = 1 ∧
      next.decision.name = "eligible_pending" ∧ next.tally.compileAttempts = 1 ∧
      last.asked 0 + next.decision.chances ≤ 2 := by
  have evaluated : ((Interp.Image.load tickSource 8 .empty "").toOption.any fun image =>
      let registry := Registry.registerAll { settings := tickSettings } image.program
      registry.queue.head?.any fun job =>
        let waiting := { registry with queue := registry.queue.tail }
        let finished := (waiting.invalidate image.program "tick").2.finish image.program job
        finished.entries[0]?.any fun next =>
          (registry.entry? 0).map (·.generation) == some 0 && next.generation == 1 &&
            next.decision.name == "eligible_pending" && next.tally.compileAttempts == 1) = true := by
    decide +kernel
  obtain ⟨image, -, evaluated⟩ := (Option.any_eq_true _ _).1 evaluated
  obtain ⟨job, head, evaluated⟩ := (Option.any_eq_true _ _).1 evaluated
  obtain ⟨next, there, evaluated⟩ := (Option.any_eq_true _ _).1 evaluated
  simp only [Bool.and_eq_true, beq_iff_eq] at evaluated
  obtain ⟨⟨⟨first, second⟩, pending⟩, attempts⟩ := evaluated
  have registered : ReflTransGen Step ⟨{ settings := tickSettings }, []⟩
      ⟨Registry.registerAll { settings := tickSettings } image.program, []⟩ :=
    steps_registerAll image.program
  generalize Registry.registerAll { settings := tickSettings } image.program = registry
    at registered head there first
  have waits := (List.cons_head?_tail head).symm
  have follows : ReflTransGen Step ⟨registry, []⟩
      ⟨({ registry with queue := registry.queue.tail }.invalidate image.program "tick").2.finish
        image.program job, []⟩ :=
    .tail (.tail (.single (.takes waits)) (.invalidates image.program "tick"))
      (@Step.finishes _ [] [] image.program job)
  obtain ⟨entry, found, -⟩ := Option.map_eq_some_iff.1 first
  have settled := generations_settle_once tickSettings registered follows
  obtain ⟨same, present, -, -, bounded⟩ := settled.1 0 entry found
  refine ⟨_, _, next, registered, follows, first, there, second, pending, attempts, ?_⟩
  obtain rfl : next = same := Option.some.inj (there.symm.trans present)
  rw [second] at bounded
  exact bounded

end Workshop
end TwoTier.Dispatch
