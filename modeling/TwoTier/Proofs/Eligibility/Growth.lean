import TwoTier.Eligibility.Specialize
import TwoTier.Proofs.Eligibility.Attempt
import TwoTier.Proofs.Purity

/-! Typing only adds: what was declared, requested or found to be returned stays. -/

namespace TwoTier.Eligibility

open Interp (Program)

open Surface (FunctionDef)

open Typed (LocalDecl LocalId LocalOrigin Routine)

/-- A name leads to its local, arrays are parameters, and parameters come first. -/
structure Scope.Sound (scope : Scope) : Prop where
  named : ∀ {name id}, scope.lookup? name = some id →
    ∃ decl, scope.locals[id]? = some decl ∧ decl.name = name ∧ decl.origin ≠ .temp
  arrays : ∀ {name id} {decl : LocalDecl}, scope.lookup? name = some id →
    scope.locals[id]? = some decl → decl.kind.isArray →
      name ∈ scope.localNames ∧ ∃ position, decl.origin = .param position
  params : ∀ {id} {decl : LocalDecl} {position}, scope.locals[id]? = some decl →
    decl.origin = .param position → id = position

/-- Locals stay under their names, and no parameter is added. -/
structure Scope.Grows (before after : Scope) : Prop where
  localNames : after.localNames = before.localNames
  locals : ∀ {id : LocalId} {decl}, before.locals[id]? = some decl → after.locals[id]? = some decl
  lookup : ∀ {name id}, before.lookup? name = some id → after.lookup? name = some id
  params : ∀ {id : LocalId} {decl : LocalDecl} {position}, after.locals[id]? = some decl →
    decl.origin = .param position → before.locals[id]? = some decl
  sound : before.Sound → after.Sound

private theorem getElem?_concat {last : α} {index : Nat} :
    (items ++ [last])[index]? = some item ↔
      items[index]? = some item ∨ index = items.length ∧ last = item := by
  rcases Nat.lt_trichotomy index items.length with inside | same | outside
  · rw [List.getElem?_append_left inside]
    simp [Nat.ne_of_lt inside]
  · subst same
    simp
  · rw [List.getElem?_eq_none (by simp; omega), List.getElem?_eq_none (by omega)]
    simp [Nat.ne_of_gt outside]

namespace Scope

variable {before middle after scope : Scope}

theorem Grows.refl (scope : Scope) : scope.Grows scope := ⟨rfl, id, id, fun found _ => found, id⟩

theorem Grows.trans (first : before.Grows middle) (second : middle.Grows after) :
    before.Grows after where
  localNames := second.localNames.trans first.localNames
  locals found := second.locals (first.locals found)
  lookup found := second.lookup (first.lookup found)
  params found origin := first.params (second.params found origin) origin
  sound holds := second.sound (first.sound holds)

theorem locals_of_isArray {id : LocalId} (array : (scope.decl id).kind.isArray) :
    scope.locals[id]? = some (scope.decl id) := by
  unfold decl at array ⊢
  rw [List.getD_eq_getElem?_getD] at array ⊢
  cases present : scope.locals[id]? with
  | none =>
    rw [present] at array
    cases array
  | some decl => rfl

theorem Grows.array? {expr : Surface.Expr} {id : LocalId} (grows : before.Grows after)
    (found : before.array? expr = some id) : after.array? expr = some id := by
  obtain ⟨name, named, found⟩ := Option.bind_eq_some_iff.1 found
  obtain ⟨other, led, found⟩ := Option.bind_eq_some_iff.1 found
  split at found
  · rename_i array
    cases found
    have same : after.decl id = before.decl id := by
      conv => lhs; rw [decl, List.getD_eq_getElem?_getD, grows.locals (locals_of_isArray array)]
      rfl
    rw [Scope.array?, named, Option.bind_some, grows.lookup led, Option.bind_some, same,
      if_pos array]
  · cases found

theorem grows_definite (scope : Scope) (definite : Definite) :
    scope.Grows { scope with definite } :=
  ⟨rfl, id, id, fun found _ => found, fun sound => ⟨sound.named, sound.arrays, sound.params⟩⟩

theorem grows_temp (scope : Scope) (hint : String) (type : NumType) :
    scope.Grows (scope.temp hint (.scalar type)).2 where
  localNames := rfl
  locals found := getElem?_concat.2 (.inl found)
  lookup := id
  params found origin := by
    rcases getElem?_concat.1 found with old | ⟨-, rfl⟩
    · exact old
    · cases origin
  sound holds := by
    refine ⟨?_, ?_, ?_⟩
    · intro name id found
      obtain ⟨decl, present, same, kept⟩ := holds.named found
      exact ⟨decl, getElem?_concat.2 (.inl present), same, kept⟩
    · intro name id decl found present array
      rcases getElem?_concat.1 present with old | ⟨-, rfl⟩
      · exact holds.arrays found old array
      · cases array
    · intro id decl position present origin
      rcases getElem?_concat.1 present with old | ⟨-, rfl⟩
      · exact holds.params old origin
      · cases origin

theorem lookup?_declare (scope : Scope) (name asked : String) (kind : Kind) (origin : LocalOrigin) :
    (scope.declare name kind origin).2.lookup? asked =
      if name = asked then some scope.locals.length else scope.lookup? asked :=
  Table.get?_set name asked scope.locals.length scope.ids

theorem sound_declare (sound : scope.Sound) (kept : origin ≠ .temp)
    (array : kind.isArray → name ∈ scope.localNames ∧ ∃ position, origin = .param position)
    (param : ∀ {position}, origin = .param position → scope.locals.length = position) :
    (scope.declare name kind origin).2.Sound := by
  refine ⟨?_, ?_, ?_⟩
  · intro asked id found
    rw [lookup?_declare] at found
    split at found
    · rename_i same
      obtain rfl := Option.some.inj found
      exact ⟨_, getElem?_concat.2 (.inr ⟨rfl, rfl⟩), same, kept⟩
    · obtain ⟨decl, present, same, kept⟩ := sound.named found
      exact ⟨decl, getElem?_concat.2 (.inl present), same, kept⟩
  · intro asked id decl found present isArray
    rw [lookup?_declare] at found
    rcases getElem?_concat.1 present with old | ⟨rfl, rfl⟩
    · split at found
      · obtain rfl := Option.some.inj found
        simp at old
      · exact sound.arrays found old isArray
    · split at found
      · rename_i same
        exact same ▸ array isArray
      · obtain ⟨decl, present, -, -⟩ := sound.named found
        simp at present
  · intro id decl position present origin
    rcases getElem?_concat.1 present with old | ⟨rfl, rfl⟩
    · exact sound.params old origin
    · exact param origin

theorem grows_declare (fresh : scope.lookup? name = none) (type : NumType) :
    scope.Grows (scope.declare name (.scalar type) .user).2 where
  localNames := rfl
  locals found := getElem?_concat.2 (.inl found)
  lookup {asked id} found := by
    rw [lookup?_declare, if_neg]
    · exact found
    · rintro rfl
      rw [fresh] at found
      cases found
  params found origin := by
    rcases getElem?_concat.1 found with old | ⟨-, rfl⟩
    · exact old
    · cases origin
  sound holds := sound_declare holds nofun nofun nofun

def declareParam (state : List LocalId × Scope) (param : (String × Kind) × Nat) :
    List LocalId × Scope :=
  let declared := state.2.declare param.1.1 param.1.2 (.param param.2)
  (state.1 ++ [declared.1], declared.2.assign declared.1)

theorem foldl_declareParam (params : List (String × Kind)) (ids : List LocalId) (scope : Scope)
    (isLocal : ∀ param ∈ params, param.1 ∈ scope.localNames) (sound : scope.Sound) :
    ∃ after, (params.zipIdx scope.locals.length).foldl declareParam (ids, scope) =
        (ids ++ List.range' scope.locals.length params.length, after) ∧
      after.localNames = scope.localNames ∧
      after.locals = scope.locals ++ (params.zipIdx scope.locals.length).map
        (fun param => ⟨param.1.1, param.1.2, .param param.2⟩) ∧
      after.definite = ⟨(List.range' scope.locals.length params.length).reverse ++
        scope.definite.assigned, scope.definite.dead⟩ ∧
      after.Sound := by
  induction params generalizing ids scope with
  | nil => exact ⟨scope, by simp, rfl, by simp, rfl, sound⟩
  | cons param rest ih =>
    have here := isLocal param (.head _)
    let next := (scope.declare param.1 param.2 (.param scope.locals.length)).2.assign
      scope.locals.length
    have declared : next.Sound :=
      (grows_definite _ _).sound
        (sound_declare sound nofun (fun _ => ⟨here, _, rfl⟩) LocalOrigin.param.inj)
    have length : next.locals.length = scope.locals.length + 1 := List.length_append
    obtain ⟨after, folded, names, locals, definite, sound⟩ := ih (ids ++ [scope.locals.length]) next
      (fun other member => isLocal other (.tail _ member)) declared
    rw [length] at folded locals definite
    refine ⟨after, ?_, names, ?_, ?_, sound⟩
    · rw [List.zipIdx_cons, List.foldl_cons, List.length_cons, List.range'_succ,
        List.append_cons]
      exact folded
    · rw [locals, List.zipIdx_cons, List.map_cons, List.append_cons]
      rfl
    · rw [definite, List.length_cons, List.range'_succ, List.reverse_cons, List.append_assoc]
      rfl

end Scope

/-- How a specialization goes on while others are typed. -/
inductive Progress.Uses : Progress → Progress → Prop where
  | settled (routine : Routine) : Uses (.settled routine) (.settled routine)
  | assumed (result : ReturnKind) {used later : Bool} (kept : used → later) :
    Uses (.assumed result used) (.assumed result later)

/-- How a specialization may go on until all are done: a result that was relied on is confirmed. -/
inductive Progress.Becomes : Progress → Progress → Prop where
  | uses {before after : Progress} (goes : before.Uses after) : Becomes before after
  | settled {result : ReturnKind} {used : Bool} {routine : Routine}
      (confirmed : used → routine.result = result) : Becomes (.assumed result used) (.settled routine)

namespace Progress

variable {before middle after : Progress}

theorem Uses.refl : ∀ progress : Progress, progress.Uses progress
  | .assumed result _ => .assumed result id
  | .settled routine => .settled routine

theorem Uses.trans (first : before.Uses middle) (second : middle.Uses after) :
    before.Uses after := by
  cases first with
  | settled => exact second
  | assumed result kept =>
    cases second with
    | assumed _ still => exact .assumed result fun used => still (kept used)

theorem Becomes.trans (first : before.Becomes middle) (second : middle.Becomes after) :
    before.Becomes after := by
  cases first with
  | uses goes =>
    cases goes with
    | settled => exact second
    | assumed result kept =>
      cases second with
      | uses next => exact .uses (.trans (.assumed result kept) next)
      | settled confirmed => exact .settled fun used => confirmed (kept used)
  | settled confirmed =>
    cases second with
    | uses next =>
      cases next
      exact .settled confirmed

end Progress

namespace Closure

variable {rel other : Progress → Progress → Prop} {before middle after : Closure}

/-- Specializations keep their places and keys and go on in a certain way. -/
def Along (rel : Progress → Progress → Prop) (before after : Closure) : Prop :=
  ∀ (index : Nat) (entry : Entry), before.entries[index]? = some entry →
    ∃ later, after.entries[index]? = some { entry with progress := later } ∧
      rel entry.progress later

theorem Along.mono (along : before.Along rel after)
    (weaker : ∀ {progress later}, rel progress later → other progress later) :
    before.Along other after := by
  intro index entry found
  obtain ⟨later, present, goes⟩ := along index entry found
  exact ⟨later, present, weaker goes⟩

theorem Along.trans (transitive : ∀ {a b c}, rel a b → rel b c → rel a c)
    (first : before.Along rel middle) (second : middle.Along rel after) :
    before.Along rel after := by
  intro index entry found
  obtain ⟨between, present, goes⟩ := first index entry found
  obtain ⟨later, still, next⟩ := second index _ present
  exact ⟨later, still, transitive goes next⟩

def Grows : Closure → Closure → Prop := Along Progress.Uses

def Leads : Closure → Closure → Prop := Along Progress.Becomes

theorem Grows.refl (closure : Closure) : closure.Grows closure :=
  fun _ entry found => ⟨entry.progress, found, .refl _⟩

theorem Grows.trans (first : before.Grows middle) (second : middle.Grows after) :
    before.Grows after :=
  Along.trans Progress.Uses.trans first second

theorem Grows.leads (grows : before.Grows after) : before.Leads after := Along.mono grows .uses

theorem Leads.trans (first : before.Leads middle) (second : middle.Leads after) :
    before.Leads after :=
  Along.trans Progress.Becomes.trans first second

theorem grows_of_entries (same : after.entries = before.entries) : before.Grows after := by
  intro index entry found
  exact ⟨entry.progress, same ▸ found, .refl _⟩

/-- The keys that specializations were requested under, in the order of their places. -/
def requested (closure : Closure) : List Key :=
  closure.entries.map fun entry => (entry.name, entry.kinds)

/-- The keys lead to the places of their specializations, and no two of these have one key. -/
structure Indexed (closure : Closure) : Prop where
  places : closure.keys = closure.requested.zipIdx
  once : closure.requested.Nodup

theorem indexed_empty : Indexed {} := ⟨rfl, List.nodup_nil⟩

end Closure

/-- A function of the program that passes the screen, for so many arguments. -/
structure Compilable (program : Program) (name : String) (kinds : List Kind)
    (definition : FunctionDef) : Prop where
  found : ∃ info, program.function? name = some info ∧ info.definition = definition
  screened : screen? definition = none
  arity : definition.params.length = kinds.length

/-- A routine that was typed from a function of the program, with all that it requested. -/
def Stems (program : Program) (closure : Closure) (name : String) (kinds : List Kind)
    (routine : Routine) : Prop :=
  ∃ fuel definition directives start finish, Compilable program name kinds definition ∧
    start.Indexed ∧ Subject.typeFunction ⟨program, name, specialize program fuel⟩ definition kinds directives
      start = .ok routine finish ∧ finish.Leads closure

namespace Closure

variable {program : Program} {before middle after : Closure}

/-- Every routine of a closure was typed from a function of the program. -/
def Sound (program : Program) (closure : Closure) : Prop :=
  ∀ (index : Nat) (entry : Entry) (routine : Routine), closure.entries[index]? = some entry →
    entry.progress = .settled routine → Stems program closure entry.name entry.kinds routine

theorem stems_mono (stems : Stems program before name kinds routine) (leads : before.Leads after) :
    Stems program after name kinds routine := by
  obtain ⟨fuel, definition, directives, start, finish, compilable, indexed, typed, led⟩ := stems
  exact ⟨fuel, definition, directives, start, finish, compilable, indexed, typed, led.trans leads⟩

/-- A step of typing, seen from the closure. -/
structure Evolves (program : Program) (before after : Closure) : Prop where
  grows : before.Grows after
  indexed : before.Indexed → after.Indexed
  sound : before.Indexed → before.Sound program → after.Sound program

theorem Evolves.refl (closure : Closure) : closure.Evolves program closure :=
  ⟨.refl _, id, fun _ => id⟩

theorem Evolves.trans (first : before.Evolves program middle)
    (second : middle.Evolves program after) : before.Evolves program after :=
  ⟨first.grows.trans second.grows, fun keyed => second.indexed (first.indexed keyed),
    fun keyed holds => second.sound (first.indexed keyed) (first.sound keyed holds)⟩

theorem evolves_of_entries (same : after.entries = before.entries)
    (keys : after.keys = before.keys) : before.Evolves program after where
  grows := grows_of_entries same
  indexed keyed := by
    obtain ⟨places, once⟩ := keyed
    refine ⟨?_, ?_⟩
    · rw [keys, places, requested, requested, same]
    · rwa [requested, same]
  sound _ holds := by
    intro index entry routine found settled
    rw [same] at found
    exact stems_mono (holds index entry routine found settled) (grows_of_entries same).leads

end Closure

/-- A step of typing an expression may only request specializations and find effects. -/
structure Draft.Requests (program : Program) (before after : Draft) : Prop where
  closure : before.closure.Evolves program after.closure
  scope : after.scope = before.scope
  result : after.result = before.result
  effects : before.purity = .mutatesContainer → after.purity = .mutatesContainer

structure Draft.Grows (program : Program) (before after : Draft) : Prop where
  closure : before.closure.Evolves program after.closure
  scope : before.scope.Grows after.scope
  result : ∀ {result}, before.result = some result → after.result = some result
  effects : before.purity = .mutatesContainer → after.purity = .mutatesContainer

namespace Draft

variable {program : Program} {before middle after : Draft}

instance : IsPreorder Draft (Requests program) where
  refl _ := ⟨.refl _, rfl, rfl, id⟩
  trans _ _ _ first second := ⟨first.closure.trans second.closure,
    second.scope.trans first.scope, second.result.trans first.result,
    fun stores => second.effects (first.effects stores)⟩

instance : IsPreorder Draft (Grows program) where
  refl _ := ⟨.refl _, .refl _, id, id⟩
  trans _ _ _ first second := ⟨first.closure.trans second.closure, first.scope.trans second.scope,
    fun found => second.result (first.result found),
    fun stores => second.effects (first.effects stores)⟩

theorem Requests.grows (requests : before.Requests program after) : before.Grows program after where
  closure := requests.closure
  scope := requests.scope ▸ .refl _
  result found := requests.result ▸ found
  effects := requests.effects

end Draft

end TwoTier.Eligibility
