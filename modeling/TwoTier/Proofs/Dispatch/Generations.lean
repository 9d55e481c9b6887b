import Mathlib.Data.List.Nodup
import Mathlib.Logic.Relation
import TwoTier.Proofs.Names.Later

namespace TwoTier.Dispatch

open Interp (Program)

open Relation (ReflTransGen)

/-- The ways in which a generation moves on. -/
inductive Decision.Follows : Decision → Decision → Prop where
  | claimed : Follows .undecided .pending
  | compiled (artifact : Artifact) : Follows .pending (.compiled artifact)
  | fellBack (reason : FallbackReason) (basis : Basis) : Follows .pending (.fallback reason basis)
  | removed : Follows .undecided (.fallback .removed {})

/-- How often a generation can still be claimed for compilation. -/
def Decision.chances (decision : Decision) : Nat := if decision.isUndecided then 1 else 0

theorem Decision.eq_of_final {first last : Decision} (moves : ReflTransGen Follows first last)
    (final : first.isFinal = true) : last = first := by
  induction moves with
  | refl => rfl
  | tail _ step ih =>
    subst ih
    cases step <;> cases final

theorem Decision.chances_le {first last : Decision} (moves : ReflTransGen Follows first last) :
    last.chances ≤ first.chances := by
  induction moves with
  | refl => exact .refl
  | tail _ step ih =>
    cases step <;> exact Nat.zero_le _

theorem build_isFinal (settings : Settings) (program : Program) (candidate : Candidate)
    (kinds : List Kind) : (build settings program candidate kinds).decision.isFinal = true := by
  unfold build buildBody
  dsimp only
  split
  · rfl
  · split <;> rfl

theorem Decision.follows_of_pending {decision : Decision} (final : decision.isFinal = true) :
    Follows .pending decision := by
  cases decision with
  | undecided | pending => cases final
  | compiled artifact => exact .compiled artifact
  | fallback reason basis => exact .fellBack reason basis

/-- A registry and the compilations that workers have taken from its queue and not finished. -/
structure Workshop where
  registry : Registry
  underway : List Job := []

variable {later middle : Workshop}

namespace Workshop

def outstanding (shop : Workshop) : List Job := shop.registry.queue ++ shop.underway

/-- How many compilations of a function were carried out or are still to be. -/
def asked (shop : Workshop) (id : FunctionId) : Nat :=
  ((shop.registry.entry? id).map (·.tally.compileAttempts)).getD 0 +
    shop.outstanding.countP (·.id = id)

/-- What is true of a workshop at every moment. -/
structure Sound (shop : Workshop) : Prop where
  /-- work is for a generation that is pending, or for an older one -/
  jobs : ∀ job ∈ shop.outstanding, ∃ entry, shop.registry.entry? job.id = some entry ∧
    job.generation ≤ entry.generation ∧
      (job.generation = entry.generation → entry.decision = .pending)
  distinct : (shop.outstanding.map fun job => (job.id, job.generation)).Nodup
  /-- no more compilations than generations -/
  bounded : ∀ id entry, shop.registry.entry? id = some entry →
    shop.asked id + entry.decision.chances ≤ entry.generation + 1

/-- What can become of an entry: within a generation it keeps its function, is decided once and is
compiled at most once. -/
structure Continues (shop later : Workshop) (id : FunctionId) (entry next : Entry) : Prop where
  generation_le : entry.generation ≤ next.generation
  candidate_eq : next.generation = entry.generation → next.candidate = entry.candidate
  moves : next.generation = entry.generation →
    ReflTransGen Decision.Follows entry.decision next.decision
  asked_le : later.asked id + next.decision.chances + entry.generation ≤
    shop.asked id + entry.decision.chances + next.generation

/-- A sound workshop stays sound, and its entries continue. -/
structure Advances (shop later : Workshop) : Prop where
  sound : shop.Sound → later.Sound
  entries : shop.Sound → ∀ {id entry}, shop.registry.entry? id = some entry →
    ∃ next, later.registry.entry? id = some next ∧ Continues shop later id entry next

theorem Continues.refl (shop : Workshop) (id : FunctionId) (entry : Entry) :
    Continues shop shop id entry entry :=
  ⟨.refl, fun _ => rfl, fun _ => .refl, .refl⟩

theorem Continues.trans {id : FunctionId} {between next : Entry}
    (first : Continues shop middle id entry between)
    (second : Continues middle later id between next) : Continues shop later id entry next := by
  have same (equal : next.generation = entry.generation) :
      between.generation = entry.generation ∧ next.generation = between.generation := by
    have := first.generation_le
    have := second.generation_le
    omega
  refine ⟨Nat.le_trans first.generation_le second.generation_le, fun equal => ?_, fun equal => ?_, ?_⟩
  · exact (second.candidate_eq (same equal).2).trans (first.candidate_eq (same equal).1)
  · exact (first.moves (same equal).1).trans (second.moves (same equal).2)
  · have := first.asked_le
    have := second.asked_le
    omega

theorem Advances.refl (shop : Workshop) : Advances shop shop :=
  ⟨id, fun _ _ _ found => ⟨_, found, .refl ..⟩⟩

theorem Advances.trans (first : Advances shop middle)
    (second : Advances middle later) : Advances shop later where
  sound before := second.sound (first.sound before)
  entries before {id entry} found := by
    obtain ⟨between, present, continues⟩ := first.entries before found
    obtain ⟨next, there, goes⟩ := second.entries (first.sound before) present
    exact ⟨next, there, continues.trans goes⟩

end Workshop

namespace Registry

/-- Every tally is one that fits its function. -/
def Tallied (fits : FunctionId → Tally → Prop) (registry : Registry) : Prop :=
  ∀ id entry, registry.entry? id = some entry → fits id entry.tally

variable {registry : Registry} {id other : FunctionId} {change : Entry → Entry}

theorem entry?_modifyEntry : Registry.entry? (registry.modifyEntry id change) other =
    if id = other then (registry.entry? other).map change else registry.entry? other :=
  Array.getElem?_modify

theorem entry?_modifyEntry_self :
    Registry.entry? (registry.modifyEntry id change) id = (registry.entry? id).map change := by
  rw [entry?_modifyEntry, if_pos rfl]

theorem entry?_modifyEntry_ne (different : id ≠ other) :
    Registry.entry? (registry.modifyEntry id change) other = registry.entry? other := by
  rw [entry?_modifyEntry, if_neg different]

theorem Tallied.modify {fits fitsThen : FunctionId → Tally → Prop} (tallied : registry.Tallied fits)
    (here : ∀ entry, registry.entry? id = some entry → fits id entry.tally →
      fitsThen id (change entry).tally)
    (elsewhere : ∀ other tally, id ≠ other → fits other tally → fitsThen other tally) :
    (registry.modifyEntry id change).Tallied fitsThen := by
  intro other next found
  rw [entry?_modifyEntry] at found
  split at found
  · rename_i same
    subst same
    obtain ⟨entry, there, rfl⟩ := Option.map_eq_some_iff.1 found
    exact here entry there (tallied id entry there)
  · rename_i different
    exact elsewhere other next.tally different (tallied other next found)

end Registry

theorem enqueue_perm (job : Job) (queue : List Job) : (enqueue job queue).Perm (job :: queue) := by
  unfold enqueue
  split
  · refine List.perm_middle.trans (.cons job ?_)
    exact List.filter_append_perm (·.isHot) queue
  · exact List.perm_append_singleton job queue

namespace Workshop

/-- An advance in which no calls are counted. -/
structure Maintains (shop later : Workshop) : Prop extends Advances shop later where
  tallied : ∀ {fits : FunctionId → Tally → Prop},
    (∀ id tally, fits id tally → fits id tally.countAttempt) →
      shop.registry.Tallied fits → later.registry.Tallied fits

theorem Maintains.refl (shop : Workshop) : Maintains shop shop := ⟨.refl shop, fun _ held => held⟩

theorem Maintains.trans (first : Maintains shop middle)
    (second : Maintains middle later) : Maintains shop later :=
  ⟨first.toAdvances.trans second.toAdvances,
    fun closed held => second.tallied closed (first.tallied closed held)⟩

variable {registry after : Registry} {underway remaining : List Job} {id : FunctionId}

/-! ### Single changes -/

theorem maintains_of_eq (entries : later.registry.entries = shop.registry.entries)
    (jobs : later.outstanding.Perm shop.outstanding) : Maintains shop later := by
  have same (id : FunctionId) : later.registry.entry? id = shop.registry.entry? id := by
    rw [Registry.entry?, entries, Registry.entry?]
  have asks (id : FunctionId) : later.asked id = shop.asked id := by
    rw [asked, same, jobs.countP_eq, asked]
  refine ⟨⟨fun sound => ⟨fun job member => ?_, ?_, fun id entry found => ?_⟩, ?_⟩,
    fun _ held id entry found => held id entry (same id ▸ found)⟩
  · rw [same]
    exact sound.jobs job (jobs.mem_iff.1 member)
  · exact (jobs.map _).nodup_iff.2 sound.distinct
  · rw [asks]
    exact sound.bounded id entry (same id ▸ found)
  · intro sound id entry found
    refine ⟨entry, (same id).trans found, .refl, fun _ => rfl, fun _ => .refl, ?_⟩
    exact Nat.le_of_eq (by rw [asks])

/-- What can become of an entry by a change that asks for no compilation. -/
def Revised (entry next : Entry) : Prop :=
  entry.generation ≤ next.generation ∧
  next.tally.compileAttempts = entry.tally.compileAttempts ∧
  (next.generation = entry.generation → next.candidate = entry.candidate ∧
    ReflTransGen Decision.Follows entry.decision next.decision ∧
    (entry.decision = .pending → next.decision = .pending))

theorem advances_modify {change : Entry → Entry}
    (later : ∀ entry, registry.entry? id = some entry → Revised entry (change entry)) :
    Advances ⟨registry, underway⟩ ⟨registry.modifyEntry id change, underway⟩ := by
  have elsewhere {other : FunctionId} (different : id ≠ other) :
      asked ⟨registry.modifyEntry id change, underway⟩ other = asked ⟨registry, underway⟩ other := by
    rw [asked, Registry.entry?_modifyEntry_ne different]
    rfl
  have here {entry : Entry} (found : registry.entry? id = some entry) :
      asked ⟨registry.modifyEntry id change, underway⟩ id = asked ⟨registry, underway⟩ id := by
    rw [asked, asked, Registry.entry?_modifyEntry_self, found]
    exact congrArg (· + _) (later entry found).2.1
  have chances {entry : Entry} (found : registry.entry? id = some entry) :
      (change entry).decision.chances + entry.generation ≤
        entry.decision.chances + (change entry).generation := by
    obtain ⟨le, _, within⟩ := later entry found
    rcases Nat.eq_or_lt_of_le le with same | lt
    · have := Decision.chances_le (within same.symm).2.1
      omega
    · have : (change entry).decision.chances ≤ 1 := by
        unfold Decision.chances
        split <;> omega
      omega
  refine ⟨fun sound => ⟨fun job member => ?_, sound.distinct, fun other next found => ?_⟩, ?_⟩
  · obtain ⟨entry, found, le, pending⟩ := sound.jobs job member
    by_cases same : id = job.id
    · obtain ⟨more, _, within⟩ := later entry (same ▸ found)
      refine ⟨change entry, ?_, Nat.le_trans le more, fun equal => ?_⟩
      · rw [← same, Registry.entry?_modifyEntry_self, same, found]
        rfl
      · have unmoved : (change entry).generation = entry.generation := by omega
        exact (within unmoved).2.2 (pending (equal.trans unmoved))
    · exact ⟨entry, (Registry.entry?_modifyEntry_ne same).trans found, le, pending⟩
  · by_cases same : id = other
    · subst same
      rw [Registry.entry?_modifyEntry_self] at found
      obtain ⟨entry, present, rfl⟩ := Option.map_eq_some_iff.1 found
      have := sound.bounded id entry present
      have := chances present
      rw [here present]
      omega
    · rw [elsewhere same]
      exact sound.bounded other next ((Registry.entry?_modifyEntry_ne same).symm.trans found)
  · intro sound other entry found
    by_cases same : id = other
    · subst same
      obtain ⟨le, _, within⟩ := later entry found
      refine ⟨change entry, ?_, le, fun equal => (within equal).1, fun equal => (within equal).2.1, ?_⟩
      · rw [Registry.entry?_modifyEntry_self, found]
        rfl
      · have := chances found
        rw [here found]
        omega
    · refine ⟨entry, (Registry.entry?_modifyEntry_ne same).trans found, .refl, fun _ => rfl,
        fun _ => .refl, ?_⟩
      exact Nat.le_of_eq (by rw [elsewhere same])

theorem maintains_modify {change : Entry → Entry}
    (later : ∀ entry, registry.entry? id = some entry →
      Revised entry (change entry) ∧ (change entry).tally = entry.tally) :
    Maintains ⟨registry, underway⟩ ⟨registry.modifyEntry id change, underway⟩ where
  toAdvances := advances_modify fun entry found => (later entry found).1
  tallied _ held := by
    refine held.modify (fun entry found fits => ?_) fun _ _ _ fits => fits
    rwa [(later entry found).2]

/-- An entry for which nothing is decided is claimed, and its compilation is asked for. -/
theorem maintains_claim (found : registry.entry? id = some entry)
    (undecided : entry.decision = .undecided)
    (entries : later.registry.entries =
      (registry.modifyEntry id fun _ => entry.decided .pending).entries)
    (jobs : later.outstanding.Perm (⟨id, entry.generation, entry.candidate, kinds⟩ :: outstanding
      ⟨registry, underway⟩)) : Maintains ⟨registry, underway⟩ later := by
  have lookup (other : FunctionId) : later.registry.entry? other =
      if id = other then some (entry.decided .pending) else registry.entry? other := by
    rw [Registry.entry?, entries, ← Registry.entry?, Registry.entry?_modifyEntry]
    split
    · rename_i same
      rw [← same, found]
      rfl
    · rfl
  have asks (other : FunctionId) : later.asked other =
      asked ⟨registry, underway⟩ other + if id = other then 1 else 0 := by
    rw [asked, jobs.countP_eq, lookup, asked]
    by_cases same : id = other
    · subst same
      simp [found, Entry.decided, Nat.add_assoc]
    · simp [same]
  have unasked (sound : Sound ⟨registry, underway⟩) :
      ∀ job ∈ outstanding ⟨registry, underway⟩, job.id = id → job.generation < entry.generation := by
    intro job member same
    obtain ⟨current, present, le, pending⟩ := sound.jobs job member
    rw [same] at present
    obtain rfl : entry = current := Option.mem_unique found present
    refine Nat.lt_of_le_of_ne le fun equal => ?_
    rw [pending equal] at undecided
    cases undecided
  refine ⟨⟨fun sound => ⟨fun job member => ?_, ?_, fun other next present => ?_⟩, ?_⟩,
    fun _ held other next present => ?_⟩
  · obtain rfl | old := List.mem_cons.1 (jobs.mem_iff.1 member)
    · exact ⟨_, (lookup id).trans (if_pos rfl), .refl, fun _ => rfl⟩
    · obtain ⟨current, present, le, pending⟩ := sound.jobs job old
      by_cases same : id = job.id
      · refine ⟨_, (lookup job.id).trans (if_pos same), ?_, fun _ => rfl⟩
        exact Nat.le_of_lt (unasked sound job old same.symm)
      · exact ⟨current, (lookup job.id).trans ((if_neg same).trans present), le, pending⟩
  · rw [(jobs.map _).nodup_iff, List.map_cons, List.nodup_cons]
    refine ⟨fun member => ?_, sound.distinct⟩
    obtain ⟨job, old, same⟩ := List.mem_map.1 member
    obtain ⟨sameId, sameGeneration⟩ := Prod.mk.inj same
    exact Nat.ne_of_lt (unasked sound job old sameId) sameGeneration
  · rw [lookup] at present
    rw [asks]
    split at present
    · rename_i same
      cases present
      have := sound.bounded id entry found
      rw [if_pos same, ← same]
      rw [undecided] at this
      exact this
    · rename_i different
      rw [if_neg different]
      exact sound.bounded other next present
  · intro sound other current present
    by_cases same : id = other
    · subst same
      obtain rfl : entry = current := Option.mem_unique found present
      refine ⟨_, (lookup id).trans (if_pos rfl), .refl, fun _ => rfl, fun _ => ?_, ?_⟩
      · rw [undecided]
        exact .single .claimed
      · rw [asks, if_pos rfl, undecided]
        exact .refl
    · refine ⟨current, (lookup other).trans ((if_neg same).trans present), .refl,
        fun _ => rfl, fun _ => .refl, ?_⟩
      rw [asks, if_neg same]
      exact .refl
  · rw [lookup] at present
    split at present
    · rename_i same
      cases present
      exact same ▸ held id entry found
    · exact held other next present

theorem tally_settle (entry : Entry) (generation : Nat) (decision : Decision) :
    (entry.settle generation decision).tally = entry.tally := by
  unfold Entry.settle
  split <;> rfl

theorem entry?_finish (program : Program) (job : Job) (other : FunctionId) :
    Registry.entry? (registry.finish program job) other =
      if job.id = other then
        (registry.entry? other).map fun entry =>
          { entry with tally := entry.tally.countAttempt }.settle job.generation
            (build registry.settings program job.candidate job.kinds).decision
      else registry.entry? other := by
  have unfolded : Registry.entry? (registry.finish program job) other =
      Registry.entry? ((registry.count job.id .countAttempt).modifyEntry job.id (·.settle job.generation
        (build registry.settings program job.candidate job.kinds).decision)) other := rfl
  rw [unfolded, Registry.entry?_modifyEntry, Registry.count, Registry.entry?_modifyEntry]
  split
  · rw [Option.map_map]
    rfl
  · rfl

theorem maintains_finish (program : Program) {job : Job}
    (jobs : (outstanding ⟨registry, underway⟩).Perm (job :: (registry.queue ++ remaining))) :
    Maintains ⟨registry, underway⟩ ⟨registry.finish program job, remaining⟩ := by
  set decision := (build registry.settings program job.candidate job.kinds).decision
    with decision_eq
  have final : decision.isFinal = true := build_isFinal ..
  have rest : outstanding ⟨registry.finish program job, remaining⟩ = registry.queue ++ remaining := rfl
  have lookup := @entry?_finish registry program job
  rw [← decision_eq] at lookup
  have asks {other : FunctionId} {entry : Entry} (found : registry.entry? other = some entry) :
      asked ⟨registry.finish program job, remaining⟩ other = asked ⟨registry, underway⟩ other := by
    rw [asked, asked, rest, jobs.countP_eq, lookup, List.countP_cons, found]
    by_cases same : job.id = other
    · simp only [same, if_true, Option.map_some]
      rw [tally_settle]
      exact Nat.add_right_comm ..
    · simp [same]
  have member (sound : Sound ⟨registry, underway⟩) := sound.jobs job (jobs.mem_iff.2 (.head _))
  have distinct (sound : Sound ⟨registry, underway⟩) :
      ((job :: (registry.queue ++ remaining)).map fun job => (job.id, job.generation)).Nodup :=
    (jobs.map _).nodup_iff.1 sound.distinct
  have continues (sound : Sound ⟨registry, underway⟩) {entry : Entry}
      (found : registry.entry? job.id = some entry) :
      let next := ({ entry with tally := entry.tally.countAttempt } : Entry).settle job.generation
        decision
      next.generation = entry.generation ∧ next.candidate = entry.candidate ∧
        ReflTransGen Decision.Follows entry.decision next.decision ∧
        (entry.generation ≠ job.generation → next.decision = entry.decision) := by
    obtain ⟨current, present, _, pending⟩ := member sound
    obtain rfl : entry = current := Option.mem_unique found present
    unfold Entry.settle
    split
    · rename_i guarded
      refine ⟨rfl, rfl, ?_, fun different => absurd guarded.1 different⟩
      change ReflTransGen Decision.Follows entry.decision decision
      rw [pending guarded.1.symm]
      exact .single (Decision.follows_of_pending final)
    · exact ⟨rfl, rfl, .refl, fun _ => rfl⟩
  refine ⟨⟨fun sound => ⟨fun other old => ?_, ?_, fun other next present => ?_⟩, ?_⟩,
    fun closed held other next present => ?_⟩
  · have waiting := jobs.mem_iff.2 (List.mem_cons_of_mem job old)
    obtain ⟨entry, found, le, pending⟩ := sound.jobs other waiting
    rw [lookup]
    by_cases same : job.id = other.id
    · obtain ⟨generation, _, _, kept⟩ := continues sound (same ▸ found)
      rw [if_pos same, found]
      refine ⟨_, rfl, generation ▸ le, fun equal => ?_⟩
      rw [generation] at equal
      rw [kept, pending equal]
      -- two compilations of one generation would be one
      rintro older
      have twice := (List.nodup_cons.1 (distinct sound)).1
      exact twice (List.mem_map.2 ⟨other, old, Prod.ext same.symm (equal.trans older)⟩)
    · rw [if_neg same]
      exact ⟨entry, found, le, pending⟩
  · exact (List.nodup_cons.1 (distinct sound)).2
  · rw [lookup] at present
    split at present
    · rename_i same
      obtain ⟨entry, found, rfl⟩ := Option.map_eq_some_iff.1 present
      obtain ⟨generation, _, moves, _⟩ := continues sound (same ▸ found)
      have := sound.bounded other entry found
      have := Decision.chances_le moves
      rw [asks found]
      omega
    · rw [asks present]
      exact sound.bounded other next present
  · intro sound other entry found
    by_cases same : job.id = other
    · obtain ⟨generation, candidate, moves, _⟩ := continues sound (same ▸ found)
      refine ⟨_, (lookup other).trans ((if_pos same).trans (congrArg _ found)), Nat.le_of_eq generation.symm,
        fun _ => candidate, fun _ => moves, ?_⟩
      have fewer := Decision.chances_le moves
      rw [asks found]
      dsimp only at fewer generation ⊢
      omega
    · refine ⟨entry, (lookup other).trans ((if_neg same).trans found), .refl, fun _ => rfl,
        fun _ => .refl, ?_⟩
      exact Nat.le_of_eq (by rw [asks found])
  · rw [lookup] at present
    split at present
    · obtain ⟨entry, found, rfl⟩ := Option.map_eq_some_iff.1 present
      rw [tally_settle]
      exact closed other entry.tally (held other entry found)
    · exact held other next present

end Workshop
end TwoTier.Dispatch
