import TwoTier.Proofs.Surface.Placement
import TwoTier.Proofs.Worlds.Objects

set_option linter.unusedSectionVars false

namespace TwoTier

theorem Table.mem_set {value : α} {table : Table α} {entry : String × α}
    (member : entry ∈ table.set name value) : entry ∈ table ∨ entry.2 = value := by
  induction table with
  | nil => exact .inr (by simp_all [Table.set])
  | cons first rest ih =>
    rw [Table.set] at member
    split at member
    · obtain _ | ⟨_, member⟩ := member
      · exact .inr rfl
      · exact .inl (.tail _ member)
    · obtain _ | ⟨_, member⟩ := member
      · exact .inl (.head _)
      · exact (ih member).imp (List.mem_cons_of_mem _) id

namespace Surface

theorem Expr.targetNamesAll_eq (targets : List Expr) :
    targetNamesAll targets = targets.flatMap targetNames := by
  induction targets with
  | nil => rfl
  | cons target rest ih => rw [targetNamesAll, ih, List.flatMap_cons]

namespace Stmt

/-- The names that a statement itself binds when it is run. A definition binds none then. -/
def storedNames : Stmt → List String
  | .define _ => []
  | stmt => stmt.boundNames

/-- A statement that binds only allowed names, itself and in the statements inside it. -/
def Binds (allowed : String → Prop) (stmt : Stmt) : Prop :=
  ∀ inner ∈ stmt.within, ∀ name ∈ inner.storedNames, allowed name

/-- A block in which every statement, however deep, binds only allowed names. -/
def AllBind (allowed : String → Prop) (body : List Stmt) : Prop :=
  ∀ stmt ∈ withinAll body, ∀ name ∈ stmt.storedNames, allowed name

/-- Handlers that bind only allowed names, for the exception and in their bodies. -/
def HandlersBind (allowed : String → Prop) (handlers : List (HandlerOf Stmt)) : Prop :=
  (∀ handler ∈ handlers, ∀ ident ∈ handler.name, allowed ident.name) ∧
    ∀ stmt ∈ withinHandlers handlers, ∀ name ∈ stmt.storedNames, allowed name

variable {allowed : String → Prop}

theorem allBind_cons {rest : List Stmt} :
    AllBind allowed (stmt :: rest) ↔ stmt.Binds allowed ∧ AllBind allowed rest := by
  simp only [AllBind, Binds, withinAll, List.mem_append, or_imp, forall_and]

theorem Binds.own {stmt : Stmt} (binds : stmt.Binds allowed) : ∀ name ∈ stmt.storedNames,
    allowed name :=
  binds stmt stmt.self_mem_within

variable {span : Span} {cond : Expr}

theorem binds_branch {yes no : List Stmt} :
    (Stmt.branch span cond yes no).Binds allowed ↔ AllBind allowed yes ∧ AllBind allowed no := by
  simp [AllBind, Binds, within, or_imp, forall_and, storedNames, boundNames]

variable {body : List Stmt}

theorem binds_whileLoop :
    (Stmt.whileLoop span cond body).Binds allowed ↔ AllBind allowed body := by
  simp [AllBind, Binds, within, storedNames, boundNames]

theorem binds_forLoop {target iter : Expr} :
    (Stmt.forLoop span target iter body).Binds allowed ↔
      (∀ name ∈ target.targetNames, allowed name) ∧ AllBind allowed body := by
  simp [AllBind, Binds, within, storedNames, boundNames]

theorem binds_attempt {cleanup : List Stmt} {handlers : List (HandlerOf Stmt)} :
    (Stmt.attempt span body handlers cleanup).Binds allowed ↔
      AllBind allowed body ∧ HandlersBind allowed handlers ∧ AllBind allowed cleanup := by
  simp only [AllBind, HandlersBind, Binds, within, storedNames, boundNames, List.mem_cons,
    List.mem_append, or_imp, forall_and, forall_eq, List.mem_filterMap, Option.map_eq_some_iff,
    Option.mem_def]
  constructor
  · rintro ⟨named, ⟨first, handled⟩, last⟩
    refine ⟨first, ⟨fun handler member ident found => ?_, handled⟩, last⟩
    exact named ident.name ⟨handler, member, ident, found, rfl⟩
  · rintro ⟨first, ⟨named, handled⟩, last⟩
    refine ⟨?_, ⟨first, handled⟩, last⟩
    rintro _ ⟨handler, member, ident, found, rfl⟩
    exact named handler member ident found

theorem handlersBind_cons {kind : Option Expr} {caught : Option Ident}
    {rest : List (HandlerOf Stmt)} :
    HandlersBind allowed (⟨kind, caught, body, span⟩ :: rest) ↔
      (∀ ident ∈ caught, allowed ident.name) ∧ AllBind allowed body ∧
        HandlersBind allowed rest := by
  simp only [HandlersBind, AllBind, withinHandlers, List.mem_cons, List.mem_append, or_imp,
    forall_and, forall_eq]
  constructor
  · rintro ⟨⟨here, later⟩, inside, others⟩
    exact ⟨here, inside, later, others⟩
  · rintro ⟨here, inside, later, others⟩
    exact ⟨⟨here, later⟩, inside, others⟩

end Stmt
end Surface

namespace Interp

open Surface (Enclosure Expr HandlerOf Ident Stmt)

variable {value : Value} {keywords : Table Value} {args : List Value} {scope : Scope}

def Scope.isGlobal : Scope → String → Bool
  | .module, _ => true
  | .function _ globalNames, name => globalNames.contains name
  | .closure, _ => false

variable {τ υ α : Type}

theorem store_apply (scope : Scope) (asked : String) (value : Value) (frame : Frame τ) :
    store scope asked value frame =
      .ok () (if scope.isGlobal asked then { frame with world := frame.world.setGlobal asked value }
        else { frame with locals := frame.locals.set asked value }) := by
  cases scope <;> rfl

/-- The keyword that is taken is the first of its name, and the others are left as they are. -/
theorem of_takeKeyword? {others : Table Value}
    (taken : takeKeyword? name keywords = some (value, others)) :
    keywords.Perm ((name, value) :: others) ∧ keywords.get? name = some value ∧
      ∀ other ≠ name, keywords.get? other = others.get? other := by
  induction keywords generalizing others with
  | nil => cases taken
  | cons entry rest ih =>
    obtain ⟨key, first⟩ := entry
    rw [takeKeyword?] at taken
    split at taken
    · subst key
      cases taken
      exact ⟨.refl _, if_pos rfl, fun other differs => if_neg (Ne.symm differs)⟩
    · rename_i differs
      obtain ⟨⟨found, left⟩, inner, same⟩ := Option.map_eq_some_iff.1 taken
      cases same
      obtain ⟨moved, got, kept⟩ := ih inner
      refine ⟨(moved.cons _).trans (.swap _ _ _), (if_neg differs).trans got, fun other apart => ?_⟩
      simp only [Table.get?, kept other apart]

/-- Runs of two worlds of a policy that agree and give a good result. -/
abbrev Policy.Runs (policy : Policy τ υ) (good : α → Prop) (run : Run (World τ) α)
    (plain : Run (World υ) α) : Prop :=
  Run.Matches (World.Pairs policy) good run plain

abbrev Policy.Lists (policy : Policy τ υ) (table : Table Value) : Prop :=
  ∀ entry ∈ table, policy.admits entry.2

abbrev Policy.AdmitsAll (policy : Policy τ υ) (values : List Value) : Prop :=
  ∀ value ∈ values, policy.admits value

/-- Two frames with the same local values, which are admitted, in two worlds of a policy. -/
inductive Frame.Pairs (policy : Policy τ υ) : Frame τ → Frame υ → Prop where
  | intro {locals : Table Value} {world : World τ} {other : World υ} (listed : policy.Lists locals)
      (pairs : World.Pairs policy world other) :
    Pairs policy ⟨locals, world⟩ ⟨locals, other⟩

/-- Runs of two frames of a policy that agree and give a good result. -/
abbrev Policy.RunsFrame (policy : Policy τ υ) (good : α → Prop) (run : Run (Frame τ) α)
    (plain : Run (Frame υ) α) : Prop :=
  Run.Matches (Frame.Pairs policy) good run plain

/-- How a statement may end: a value that it gives back is admitted and, if `strict`, a jump has
around it what it leaves. -/
def Policy.Ends (policy : Policy τ υ) (strict : Prop) (enclosure : Enclosure) : Flow → Prop
  | .giveBack value => policy.admits value ∧ (strict → enclosure.function = true)
  | .next => True
  | .leave | .skip => strict → enclosure.loop = true

/-- Calls that agree and obey a policy when they are given admitted values. -/
structure Calls.Obey (policy : Policy τ υ) (calls : Calls τ) (plain : Calls υ) : Prop where
  function : ∀ callee {args}, policy.AdmitsAll args →
    policy.Runs policy.admits (calls.function callee args) (plain.function callee args)
  closure : ∀ {made args}, policy.Lists made.captured → policy.AdmitsAll args →
    policy.Runs policy.admits (calls.closure made args) (plain.closure made args)
  default : ∀ expr, policy.Runs policy.admits (calls.default expr) (plain.default expr)

def Context.withCalls (ctx : Context τ) (plain : Calls υ) : Context υ :=
  ⟨ctx.program, plain, ctx.scope, ctx.fuel⟩

namespace Policy

variable {policy : Policy τ υ}

theorem lists_set {table : Table Value} (all : policy.Lists table) (name : String)
    (admitted : policy.admits value) : policy.Lists (table.set name value) := by
  intro entry member
  obtain old | new := Table.mem_set member
  · exact all entry old
  · exact new ▸ admitted

theorem ends_afterBody {flow ended : Flow}
    (ends : policy.Ends strict { enclosure with loop := true } flow)
    (same : afterBody flow = some ended) : policy.Ends strict enclosure ended := by
  cases flow with
  | next | skip => cases same
  | leave =>
    cases same
    trivial
  | giveBack value =>
    cases same
    exact ends

end Policy

/-! ### Loops -/

section Loops

variable {σ ρ : Type} {policy : Policy τ υ} {related : σ → ρ → Prop}

/-- What a step of a loop gives: nothing to go on, or how the loop ends. -/
abbrev Policy.EndsLoop (policy : Policy τ υ) (strict : Prop) (enclosure : Enclosure)
    (ended : Option Flow) : Prop :=
  ∀ flow, ended = some flow → policy.Ends strict enclosure flow

variable {again : Run σ Flow} {plain : Run ρ Flow}

theorem Run.Matches.proceed
    (rest : Run.Matches related (policy.Ends strict enclosure) again plain) (ended : Option Flow)
    (ends : policy.EndsLoop strict enclosure ended) :
    Run.Matches related (policy.Ends strict enclosure) (proceed again ended)
      (proceed plain ended) := by
  cases ended with
  | none => exact rest
  | some flow => exact .pure (ends flow rfl)

theorem Run.Matches.proceedBlock
    (rest : Run.Matches related (policy.Ends strict enclosure) again plain) (flow : Flow)
    (ends : policy.Ends strict enclosure flow) :
    Run.Matches related (policy.Ends strict enclosure) (proceedBlock again flow)
      (proceedBlock plain flow) := by
  cases flow with
  | next => exact rest
  | leave | skip | giveBack => exact .pure ends

theorem Run.Matches.repeatStep {step : Run σ (Option Flow)} {plain : Run ρ (Option Flow)}
    (each : Run.Matches related (policy.EndsLoop strict enclosure) step plain) (fuel : Nat) :
    Run.Matches related (policy.Ends strict enclosure) (repeatStep step fuel)
      (repeatStep plain fuel) := by
  induction fuel with
  | zero => exact ⟨fun _ => .exhausted⟩
  | succ fuel ih =>
    rw [repeatStep_succ, repeatStep_succ]
    exact each.bind fun ended ends => ih.proceed ended ends

variable {step : Value → Run σ (Option Flow)} {plain : Value → Run ρ (Option Flow)}
  (each : ∀ item, policy.admits item →
    Run.Matches related (policy.EndsLoop strict enclosure) (step item) (plain item))

include each

theorem Run.Matches.overRange (sound : policy.Sound) (range : RangeValue) (count k : Nat) :
    Run.Matches related (policy.Ends strict enclosure) (overRange step range count k)
      (overRange plain range count k) := by
  induction count generalizing k with
  | zero => exact .pure (α := Flow) trivial
  | succ count ih =>
    rw [overRange_succ, overRange_succ]
    exact (each _ (sound.plain rfl)).bind fun ended ends => (ih (k + 1)).proceed ended ends

theorem Run.Matches.overItems {items : List Value} (all : policy.AdmitsAll items) :
    Run.Matches related (policy.Ends strict enclosure) (overItems step items)
      (overItems plain items) := by
  induction items with
  | nil => exact .pure (α := Flow) trivial
  | cons item rest ih =>
    rw [overItems_cons, overItems_cons]
    refine (each item (all item (.head _))).bind fun ended ends => ?_
    exact (ih fun other member => all other (.tail _ member)).proceed ended ends

end Loops

/-! ### Expressions -/

namespace Policy.Sound

variable {policy : Policy τ υ} (sound : policy.Sound) {run : Run Heap α}

theorem runs_onHeap (gives : policy.Gives good run) :
    policy.Runs good (World.onHeap run) (World.onHeap run) := by
  constructor
  rintro world _ ⟨obeys, linked⟩
  have met := gives.meets obeys.heap
  unfold World.onHeap
  dsimp only
  generalize run world.heap = result at met ⊢
  cases result with
  | ok value heap => exact .ok met.1 (.intro ⟨met.2, obeys.globals, obeys.output⟩ linked)
  | raised exception heap => exact .raised (.intro ⟨met, obeys.globals, obeys.output⟩ linked)
  | exhausted => exact .exhausted

theorem runs_inspect {next : World τ → Run (World τ) α} {plainNext : World υ → Run (World υ) α}
    (rest : ∀ (world : World τ) (tier : υ), world.Obeys policy → policy.Runs good (next world)
      (plainNext ⟨world.heap, world.globals, world.output, tier⟩)) :
    policy.Runs good (Run.get >>= next) (Run.get >>= plainNext) := by
  apply Run.Matches.inspect
  rintro world _ ⟨obeys, _⟩
  exact rest world _ obeys

theorem runs_truth (value : Value) : policy.Runs (fun _ => True) (truth value) (truth value) :=
  runs_inspect fun _ _ _ => .pure trivial

include sound

theorem runs_loadGlobal (program : Program) (asked : String) :
    policy.Runs policy.admits (loadGlobal program asked) (loadGlobal program asked) := by
  refine runs_inspect fun world _ obeys => ?_
  dsimp only
  split
  · rename_i found
    exact .pure (sound.named obeys.globals found)
  · split
    · exact .pure (sound.plain rfl)
    · split
      · exact .pure (sound.plain rfl)
      · exact .raise _

theorem runs_load (ctx : Context τ) (plain : Calls υ) (all : policy.Lists locals) (asked : String) :
    policy.Runs policy.admits (load ctx locals asked) (load (ctx.withCalls plain) locals asked) := by
  have here {value : Value} (found : locals.get? asked = some value) : policy.admits value :=
    all _ (Table.mem_of_get? found)
  unfold load
  dsimp only [Context.withCalls]
  split
  · exact sound.runs_loadGlobal _ _
  · split
    · exact sound.runs_loadGlobal _ _
    · split
      · rename_i found
        exact .pure (here found)
      · exact .raise _
  · split
    · rename_i found
      exact .pure (here found)
    · exact sound.runs_loadGlobal _ _

theorem runs_print (text : String) :
    policy.Runs (fun _ => True) (World.print text) (World.print text) := by
  constructor
  rintro world _ ⟨obeys, linked⟩
  exact .ok trivial (.intro ⟨obeys.heap, obeys.globals, sound.printed _ obeys.output⟩ linked)

theorem runs_printCall (args : List Value) (keywords : Table Value) :
    policy.Runs policy.admits (printCall args keywords) (printCall args keywords) := by
  refine runs_inspect fun world _ _ => .bind (.ofExcept fun _ _ => trivial) fun marks _ => ?_
  exact (sound.runs_print _).bind fun _ _ => .pure (sound.plain rfl)

section Arguments

variable {evalDefault : Expr → Run (World τ) Value} {plainDefault : Expr → Run (World υ) Value}
  (defaults : ∀ expr, policy.Runs policy.admits (evalDefault expr) (plainDefault expr))

include defaults

omit sound in
theorem runs_bindParams (callee : String) (params : List Surface.Param)
    (all : policy.AdmitsAll args) (named : policy.Lists keywords) :
    policy.Runs (fun bound => policy.AdmitsAll bound.1)
      (bindParams callee evalDefault params args keywords)
      (bindParams callee plainDefault params args keywords) := by
  induction params generalizing args keywords with
  | nil => exact .pure nofun
  | cons param params ih =>
    unfold bindParams
    split
    · exact .raise _
    · refine (ih (fun value member => all value (.tail _ member)) named).bind ?_
      intro bound admitted
      exact .pure (List.forall_mem_cons.2 ⟨all _ (.head _), admitted⟩)
    · rename_i taken
      have among := fun entry member => named entry ((of_takeKeyword? taken).1.mem_iff.2 member)
      obtain ⟨first, others⟩ := List.forall_mem_cons.1 among
      refine (ih all others).bind fun bound admitted => ?_
      exact .pure (List.forall_mem_cons.2 ⟨first, admitted⟩)
    · split
      · exact .raise _
      · refine (defaults _).bind fun value first => (ih all named).bind fun bound admitted => ?_
        exact .pure (List.forall_mem_cons.2 ⟨first, admitted⟩)

omit sound in
theorem runs_completeArguments (definition : Surface.FunctionDef) (all : policy.AdmitsAll args)
    (named : policy.Lists keywords) :
    policy.Runs policy.AdmitsAll (completeArguments evalDefault definition args keywords)
      (completeArguments plainDefault definition args keywords) := by
  unfold completeArguments
  dsimp only
  split
  · exact .raise _
  · refine (runs_bindParams defaults _ _ all named).bind fun bound admitted => ?_
    split
    · exact .pure admitted
    · exact .raise _

end Arguments

variable {ctx : Context τ} {plain : Calls υ} (calls : ctx.calls.Obey policy plain)

include calls

theorem runs_callValue {callee : Value} (called : policy.admits callee)
    (all : policy.AdmitsAll args) (named : policy.Lists keywords) :
    policy.Runs policy.admits (callValue ctx callee args keywords)
      (callValue (ctx.withCalls plain) callee args keywords) := by
  unfold callValue
  dsimp only [Context.withCalls]
  split
  · split
    · exact calls.function _ all
    · split
      · exact .raise _
      · refine (runs_completeArguments calls.default _ all named).bind fun _ admitted => ?_
        exact calls.function _ admitted
  · exact sound.runs_printCall _ _
  · split
    · exact .raise _
    · exact runs_onHeap (sound.gives_callBuiltin _ all)
  · refine runs_inspect fun world _ obeys => ?_
    dsimp only
    split
    · exact .raise _
    · rename_i found
      split
      · exact .raise _
      · exact calls.closure (sound.captured obeys.heap called found) all
  · exact .raise _

omit calls in
theorem plain_of_getMember {object : Value} (found : getMember object name = .ok value) :
    policy.admits value := by
  refine sound.plain ?_
  unfold getMember at found
  split at found
  · unfold mathAttribute at found
    split at found
    · rename_i asked
      cases found
      unfold mathAttribute? at asked
      split at asked
      iterate 4
        · cases asked
          rfl
      · obtain ⟨function, _, rfl⟩ := Option.map_eq_some_iff.1 asked
        rfl
    · cases found
  · cases found

private theorem runs_callOrMethod {func : Run (World τ) Value} {plainFunc : Run (World υ) Value}
    (callees : policy.Runs policy.admits func plainFunc) {args : Run (World τ) (List Value)}
    {plainArgs : Run (World υ) (List Value)} (arguments : policy.Runs policy.AdmitsAll args plainArgs)
    {keywords : Run (World τ) (Table Value)} {plainKeywords : Run (World υ) (Table Value)}
    (named : policy.Runs policy.Lists keywords plainKeywords) (method : Option (Value × String)) :
    (∀ receiver, method = some receiver → policy.admits receiver.1) → policy.Runs policy.admits
      (match method with
      | some (receiver, name) => do
        let values ← args
        World.onHeap (callMethod receiver name values)
      | none => do
        let callee ← func
        let values ← args
        let named ← keywords
        callValue ctx callee values named)
      (match method with
      | some (receiver, name) => do
        let values ← plainArgs
        World.onHeap (callMethod receiver name values)
      | none => do
        let callee ← plainFunc
        let values ← plainArgs
        let named ← plainKeywords
        callValue (ctx.withCalls plain) callee values named) := by
  intro received
  cases method with
  | some receiver =>
    refine arguments.bind fun values given => ?_
    exact runs_onHeap (sound.gives_callMethod (received _ rfl) _ given)
  | none =>
    refine callees.bind fun callee called => arguments.bind fun values given => ?_
    exact named.bind fun named listed => sound.runs_callValue calls called given listed

variable {locals : Table Value} (all : policy.Lists locals)

include all

mutual

/-- An expression has the same value in two worlds that a policy pairs, and the policy admits it. -/
theorem runs_eval (expr : Expr) :
    policy.Runs policy.admits (eval ctx locals expr) (eval (ctx.withCalls plain) locals expr) := by
  unfold eval
  match expr with
  | .int _ _ | .float _ _ | .bool _ _ | .none _ | .str _ _ => exact .pure (sound.plain rfl)
  | .name _ asked => exact sound.runs_load ctx plain all asked
  | .binary _ op left right =>
    refine (runs_eval left).bind fun a first => (runs_eval right).bind fun b second => ?_
    exact runs_onHeap (sound.gives_binary op first second)
  | .unary _ op operand =>
    exact (runs_eval operand).bind fun value _ => runs_onHeap (sound.gives_unary op value)
  | .boolOp _ op left right =>
    refine (runs_eval left).bind fun value admitted => (runs_truth value).bind fun holds _ => ?_
    split
    · exact .pure admitted
    · exact runs_eval right
  | .compare _ left rest =>
    refine (runs_eval left).bind fun first _ => ?_
    exact (runs_evalChain first rest).bind fun holds _ => .pure (sound.plain rfl)
  | .call _ func args keywords =>
    have rest := sound.runs_callOrMethod calls (runs_eval func) (runs_evalAll args)
      (runs_evalKeywords keywords)
    dsimp only
    split
    · rename_i value attr
      refine (runs_eval value).bind fun receiver admitted => rest _ fun found same => ?_
      split at same
      · cases same
      · cases same
        exact admitted
    · exact rest none fun found same => by cases same
  | .member _ value attr =>
    refine (runs_eval value).bind fun object _ => ?_
    exact .ofExcept fun value found => sound.plain_of_getMember found
  | .subscript _ value index =>
    refine (runs_eval value).bind fun container admitted => (runs_eval index).bind fun place _ => ?_
    exact runs_onHeap (sound.gives_getItem admitted)
  | .list _ items | .tuple _ items =>
    refine (runs_evalAll items).bind fun values given => ?_
    have made := fun item member => given item (List.mem_toArray.1 member)
    first | exact runs_onHeap (sound.gives_newList made) | exact runs_onHeap (sound.gives_newTuple made)
  | .dict _ entries =>
    refine (runs_evalEntries (by simp) entries).bind fun entries made => ?_
    exact runs_onHeap (sound.gives_newDict made)
  | .lambda _ params body =>
    exact runs_onHeap (sound.gives_alloc (.closure _) .closure all fun _ => rfl)
  | .conditional _ cond yes no =>
    refine (runs_eval cond).bind fun chosen _ => (runs_truth chosen).bind fun holds _ => ?_
    split
    · exact runs_eval yes
    · exact runs_eval no

theorem runs_evalAll (exprs : List Expr) :
    policy.Runs policy.AdmitsAll (evalAll ctx locals exprs)
      (evalAll (ctx.withCalls plain) locals exprs) := by
  unfold evalAll
  match exprs with
  | [] => exact .pure nofun
  | expr :: rest =>
    refine (runs_eval expr).bind fun value first => (runs_evalAll rest).bind fun values others => ?_
    exact .pure (List.forall_mem_cons.2 ⟨first, others⟩)

theorem runs_evalKeywords (keywords : List (Ident × Expr)) :
    policy.Runs policy.Lists (evalKeywords ctx locals keywords)
      (evalKeywords (ctx.withCalls plain) locals keywords) := by
  unfold evalKeywords
  match keywords with
  | [] => exact .pure nofun
  | (_, expr) :: rest =>
    refine (runs_eval expr).bind fun value first => ?_
    refine (runs_evalKeywords rest).bind fun values others => .pure ?_
    exact List.forall_mem_cons.2 ⟨first, others⟩

theorem runs_evalChain (left : Value) (rest : List (Surface.CmpOp × Expr)) :
    policy.Runs (fun _ => True) (evalChain ctx locals left rest)
      (evalChain (ctx.withCalls plain) locals left rest) := by
  unfold evalChain
  match rest with
  | [] => exact .pure trivial
  | (op, expr) :: rest =>
    refine (runs_eval expr).bind fun right _ => ?_
    refine (runs_onHeap (keeps_compareValues op left right)).bind fun holds _ => ?_
    split
    · exact runs_evalChain right rest
    · exact .pure trivial

theorem runs_evalEntries {before : Array (Value × Value)}
    (made : ∀ entry ∈ before, policy.admits entry.1 ∧ policy.admits entry.2)
    (entries : List (Expr × Expr)) :
    policy.Runs (fun entries => ∀ entry ∈ entries, policy.admits entry.1 ∧ policy.admits entry.2)
      (evalEntries ctx locals before entries)
      (evalEntries (ctx.withCalls plain) locals before entries) := by
  unfold evalEntries
  match entries with
  | [] => exact .pure made
  | (key, item) :: rest =>
    refine (runs_eval key).bind fun key keyed => .bind (.ofExcept fun _ _ => trivial) fun _ _ => ?_
    refine (runs_eval item).bind fun item admitted => runs_inspect fun world _ _ => ?_
    exact runs_evalEntries (all_putAt keyed admitted made) rest

end

/-! ### Statements -/

omit sound calls all

theorem runs_amongLocals {run : Table Value → Run (World τ) α}
    {plain : Table Value → Run (World υ) α}
    (each : ∀ locals, policy.Lists locals → policy.Runs good (run locals) (plain locals)) :
    policy.RunsFrame good (amongLocals run) (amongLocals plain) := by
  constructor
  rintro _ _ ⟨listed, pairs⟩
  rename_i locals world other
  have agreed := (each locals listed).agrees pairs
  unfold amongLocals
  dsimp only
  generalize run locals world = result at agreed ⊢
  generalize plain locals other = plainResult at agreed ⊢
  cases agreed with
  | ok held between => exact .ok held ⟨listed, between⟩
  | raised between => exact .raised ⟨listed, between⟩
  | exhausted => exact .exhausted
  | unfinished => exact .unfinished

theorem runs_onWorld (gives : policy.Gives good run) :
    policy.RunsFrame good (onWorld (World.onHeap run)) (onWorld (World.onHeap run)) :=
  runs_amongLocals fun _ _ => runs_onHeap gives

theorem runs_truthHere (value : Value) :
    policy.RunsFrame (fun _ => True) (onWorld (truth value)) (onWorld (truth value)) :=
  runs_amongLocals fun _ _ => runs_truth value

include sound

theorem runs_store {asked : String} (admitted : policy.admits value)
    (allowed : scope.isGlobal asked = true → policy.binds asked) :
    policy.RunsFrame (fun _ => True) (store scope asked value) (store scope asked value) := by
  constructor
  rintro _ _ ⟨listed, ⟨obeys, linked⟩⟩
  rw [store_apply, store_apply]
  split
  · rename_i isGlobal
    refine .ok trivial ⟨listed, .intro ⟨obeys.heap, ?_, obeys.output⟩ linked⟩
    exact sound.bound obeys.globals (allowed isGlobal) admitted
  · exact .ok trivial ⟨lists_set listed asked admitted, .intro obeys linked⟩

include calls

theorem runs_evalHere (expr : Expr) :
    policy.RunsFrame policy.admits (evalHere ctx expr) (evalHere (ctx.withCalls plain) expr) :=
  runs_amongLocals fun _ all => sound.runs_eval calls all expr

omit calls sound in
/-- The names that a statement may bind in this scope. -/
abbrev Allows (policy : Policy τ υ) (scope : Scope) (name : String) : Prop :=
  scope.isGlobal name = true → policy.binds name

mutual

theorem runs_assign (target : Expr) {value : Value} (admitted : policy.admits value)
    (allowed : ∀ name ∈ target.targetNames, Allows policy ctx.scope name) :
    policy.RunsFrame (fun _ => True) (assign ctx target value)
      (assign (ctx.withCalls plain) target value) := by
  unfold assign
  match target with
  | .name _ asked => exact sound.runs_store admitted (allowed asked (by simp [Expr.targetNames]))
  | .tuple _ targets | .list _ targets =>
    have parts := fun {values} (given : policy.AdmitsAll values) =>
      runs_assignAll targets given (by simpa only [Expr.targetNames] using allowed)
    refine (runs_onWorld (sound.gives_iterate admitted)).bind fun items inside => ?_
    split
    · exact parts fun item member => inside item (Array.mem_toList_iff.1 member)
    · exact .raise _
  | .subscript _ container index =>
    refine (sound.runs_evalHere calls container).bind fun object holds => ?_
    refine (sound.runs_evalHere calls index).bind fun place indexed => ?_
    exact runs_onWorld (sound.keeps_setItem holds indexed admitted)
  | .member _ _ _ => exact .raise _
  | .int _ _ | .float _ _ | .bool _ _ | .none _ | .str _ _ | .binary _ _ _ _ | .unary _ _ _
  | .boolOp _ _ _ _ | .compare _ _ _ | .call _ _ _ _ | .dict _ _ | .lambda _ _ _
  | .conditional _ _ _ _ => exact .raise _

theorem runs_assignAll (targets : List Expr) {values : List Value} (all : policy.AdmitsAll values)
    (allowed : ∀ name ∈ Expr.targetNamesAll targets, Allows policy ctx.scope name) :
    policy.RunsFrame (fun _ => True) (assignAll ctx targets values)
      (assignAll (ctx.withCalls plain) targets values) := by
  match targets, values with
  | target :: targets, value :: values =>
    have first := runs_assign target (all value (.head _)) fun name member =>
      allowed name (by simp [Expr.targetNamesAll, member])
    have rest := runs_assignAll targets
      (fun other member => all other (.tail _ member)) fun name member =>
      allowed name (by simp [Expr.targetNamesAll, member])
    rw [assignAll, assignAll]
    exact first.bind fun _ _ => rest
  | [], _ | _ :: _, [] =>
    simp only [assignAll]
    exact .pure trivial

end

theorem runs_update (target : Expr) (op : Surface.BinOp) (value : Expr)
    (allowed : ∀ name ∈ target.targetNames, Allows policy ctx.scope name) :
    policy.RunsFrame (fun _ => True) (update ctx target op value)
      (update (ctx.withCalls plain) target op value) := by
  unfold update
  split
  · rename_i asked
    refine (runs_amongLocals fun _ all => sound.runs_load ctx plain all asked).bind ?_
    intro current admitted
    refine (sound.runs_evalHere calls value).bind fun other second => ?_
    split
    · refine runs_onWorld ((sound.gives_iterate second).bind fun items inside => ?_)
      exact sound.keeps_extendList admitted inside
    · refine (runs_onWorld (sound.gives_binary op admitted second)).bind fun result made => ?_
      exact sound.runs_store made (allowed asked (by simp [Expr.targetNames]))
  · rename_i container index
    refine (sound.runs_evalHere calls container).bind fun object holds => ?_
    refine (sound.runs_evalHere calls index).bind fun place indexed => ?_
    refine (runs_onWorld (sound.gives_getItem holds)).bind fun current first => ?_
    refine (sound.runs_evalHere calls value).bind fun other second => ?_
    refine runs_onWorld ((sound.gives_binary op first second).bind fun result made => ?_)
    exact sound.keeps_setItem holds indexed made
  · exact .raise _

omit calls in
theorem runs_importModules (allowed : ∀ name ∈ names.map (·.boundName), Allows policy scope name) :
    policy.RunsFrame (fun _ => True) (importModules scope names) (importModules scope names) := by
  induction names with
  | nil => exact .pure trivial
  | cons imported rest ih =>
    have rest := ih fun name member => allowed name (.tail _ member)
    unfold importModules
    dsimp only
    split
    · refine (sound.runs_store (sound.plain rfl) ?_).bind fun _ _ => rest
      exact allowed _ (.head _)
    · exact .raiseThen _ _ _

omit calls in
theorem runs_importMembers (allowed : ∀ name ∈ names.map (·.boundName), Allows policy scope name) :
    policy.RunsFrame (fun _ => True) (importMembers scope names) (importMembers scope names) := by
  induction names with
  | nil => exact .pure trivial
  | cons imported rest ih =>
    have rest := ih fun name member => allowed name (.tail _ member)
    unfold importMembers
    dsimp only
    split
    · rename_i value found
      refine (sound.runs_store ?_ (allowed _ (.head _))).bind fun _ _ => rest
      have member : getMember (.module "math") imported.path = .ok value := by
        rw [getMember, mathAttribute, found]
      exact sound.plain_of_getMember member
    · exact .raiseThen _ _ _

theorem runs_raiseNamed (exception : Option Expr) :
    policy.RunsFrame (policy.Ends strict enclosure) (raiseNamed ctx exception)
      (raiseNamed (ctx.withCalls plain) exception) := by
  unfold raiseNamed
  split
  · exact .raise _
  · exact .raise _
  · split
    · exact .raise _
    · refine (sound.runs_evalHere calls _).bind fun value _ => .inspect ?_
      rintro _ _ ⟨_, ⟨_, _⟩⟩
      exact .raise _
  · exact .raise _

section Iteration

variable {step : Value → Run (Frame τ) (Option Flow)} {plainStep : Value → Run (Frame υ) (Option Flow)}
  (each : ∀ item, policy.admits item →
    policy.RunsFrame (policy.EndsLoop strict enclosure) (step item) (plainStep item))

include each

omit calls in
theorem runs_overList (admitted : policy.admits (.list address)) (fuel k : Nat) :
    policy.RunsFrame (policy.Ends strict enclosure) (overList step address fuel k)
      (overList plainStep address fuel k) := by
  induction fuel generalizing k with
  | zero => exact ⟨fun _ => .exhausted⟩
  | succ fuel ih =>
    constructor
    rintro _ _ ⟨listed, ⟨obeys, linked⟩⟩
    rw [overList_succ, overList_succ]
    dsimp only
    split
    · exact .ok (α := Flow) trivial ⟨listed, .intro obeys linked⟩
    · rename_i item found
      have inside := sound.items obeys.heap admitted rfl item (Array.mem_of_getElem? found)
      exact ((each item inside).bind fun ended ends => (ih (k + 1)).proceed ended ends).agrees
        ⟨listed, .intro obeys linked⟩

omit calls in
theorem runs_overValue {iterable : Value} (admitted : policy.admits iterable) :
    policy.RunsFrame (policy.Ends strict enclosure) (overValue ctx step iterable)
      (overValue (ctx.withCalls plain) plainStep iterable) := by
  unfold overValue
  split
  · exact .overRange each sound _ _ _
  · exact sound.runs_overList each admitted _ _
  · refine (runs_onWorld (sound.gives_iterate admitted)).bind fun items inside => ?_
    exact .overItems each fun item member => inside item (Array.mem_toList_iff.1 member)

end Iteration

omit calls sound in
theorem agrees_afterCleanup {plainCleanup : Run (Frame υ) Flow}
    (cleans : policy.RunsFrame (policy.Ends strict enclosure) cleanup plainCleanup)
    {outcome : Result (Frame τ) Flow} {plainOutcome : Result (Frame υ) Flow}
    (agreed : outcome.Agrees (Frame.Pairs policy) (policy.Ends strict enclosure) plainOutcome) :
    (afterCleanup cleanup outcome).Agrees (Frame.Pairs policy) (policy.Ends strict enclosure)
      (afterCleanup plainCleanup plainOutcome) := by
  cases agreed
  case exhausted => exact .exhausted
  case unfinished => exact .unfinished
  all_goals
    have cleaned := cleans.agrees ‹Frame.Pairs policy _ _›
    unfold afterCleanup
    dsimp only
    generalize cleanup _ = result at cleaned ⊢
    generalize plainCleanup _ = plainResult at cleaned ⊢
    cases cleaned with
    | @ok ended _ _ good linked =>
      cases ended with
      | next => constructor <;> assumption
      | leave | skip | giveBack => exact .ok good linked
    | raised linked => exact .raised linked
    | exhausted => exact .exhausted
    | unfinished => exact .unfinished

mutual

/-- A statement obeys a policy if it binds only names that the policy lets it bind. -/
theorem runs_exec (statement : Stmt) (allowed : statement.Binds (Allows policy ctx.scope))
    (enclosed : strict → statement.Enclosed enclosure) :
    policy.RunsFrame (policy.Ends strict enclosure) (exec ctx statement)
      (exec (ctx.withCalls plain) statement) := by
  unfold exec
  match statement with
  | .expr _ value =>
    have done : policy.RunsFrame (fun _ => True) (discard (evalHere ctx value))
        (discard (evalHere (ctx.withCalls plain) value)) :=
      (sound.runs_evalHere calls value).map fun _ _ => trivial
    exact done.bind fun _ _ => .pure (α := Flow) trivial
  | .assign _ targets value =>
    have stores := fun {values} (given : policy.AdmitsAll values) =>
      sound.runs_assignAll calls targets given (by
        have own := allowed.own
        simpa only [Stmt.storedNames, Stmt.boundNames, ← Expr.targetNamesAll_eq] using own)
    refine (sound.runs_evalHere calls value).bind fun result admitted => ?_
    refine (stores fun other member => ?_).bind fun _ _ => .pure (α := Flow) trivial
    exact (List.mem_replicate.1 member).2 ▸ admitted
  | .update _ target op value =>
    have stores := sound.runs_update calls target op value allowed.own
    exact stores.bind fun _ _ => .pure (α := Flow) trivial
  | .giveBack _ none => exact .pure ⟨sound.plain rfl, enclosed⟩
  | .giveBack _ (some value) =>
    exact (sound.runs_evalHere calls value).bind fun value admitted => .pure ⟨admitted, enclosed⟩
  | .branch _ cond yes no =>
    have whenYes := runs_execBlock yes (Stmt.binds_branch.1 allowed).1 fun s => (enclosed s).1
    have whenNo := runs_execBlock no (Stmt.binds_branch.1 allowed).2 fun s => (enclosed s).2
    refine (sound.runs_evalHere calls cond).bind fun chosen _ => ?_
    refine (runs_truthHere chosen).bind fun holds _ => ?_
    split
    · exact whenYes
    · exact whenNo
  | .whileLoop _ cond body =>
    have rest := runs_execBlock body (Stmt.binds_whileLoop.1 allowed) enclosed
    apply Run.Matches.repeatStep
    refine (sound.runs_evalHere calls cond).bind fun chosen _ => ?_
    refine (runs_truthHere chosen).bind fun holds _ => ?_
    split
    · exact rest.map fun flow ends ended same => ends_afterBody ends same
    · refine .pure fun flow same => ?_
      cases same
      trivial
  | .forLoop _ target iter body =>
    have rest := runs_execBlock body (Stmt.binds_forLoop.1 allowed).2 enclosed
    have stores := fun {item} (admitted : policy.admits item) =>
      sound.runs_assign calls target admitted (Stmt.binds_forLoop.1 allowed).1
    refine (sound.runs_evalHere calls iter).bind fun iterable admitted => ?_
    refine sound.runs_overValue (fun item inside => ?_) admitted
    refine (stores inside).bind fun _ _ => ?_
    exact rest.map fun flow ends ended same => ends_afterBody ends same
  | .leave _ | .skip _ => exact .pure enclosed
  | .pass _ | .globals _ _ | .define _ => exact .pure (α := Flow) trivial
  | .nonlocals _ _ => exact .raise _
  | .importNames _ names =>
    exact (sound.runs_importModules allowed.own).bind fun _ _ => .pure (α := Flow) trivial
  | .importFrom _ module names =>
    dsimp only
    split
    · exact (sound.runs_importMembers allowed.own).bind fun _ _ => .pure (α := Flow) trivial
    · exact .raiseThen _ _ _
  | .attempt _ body handlers cleanup =>
    have rest := runs_execBlock body (Stmt.binds_attempt.1 allowed).1 fun s => (enclosed s).1
    have cleans := runs_execBlock cleanup (Stmt.binds_attempt.1 allowed).2.2
      fun s => (enclosed s).2.2
    have handles := fun exception => runs_execHandlers exception handlers
      (Stmt.binds_attempt.1 allowed).2.1 fun s => (enclosed s).2.1
    constructor
    intro frame other pairs
    have agreed := rest.agrees pairs
    apply agrees_afterCleanup cleans
    generalize execBlock ctx body frame = result at agreed ⊢
    generalize execBlock (ctx.withCalls plain) body other = plainResult at agreed ⊢
    cases agreed with
    | ok held between => exact .ok held between
    | raised between => exact (handles _).agrees between
    | exhausted => exact .exhausted
    | unfinished =>
      cases result with
      | ok | raised | exhausted => exact .unfinished
  | .raise _ value => exact sound.runs_raiseNamed calls value

theorem runs_execBlock (body : List Stmt) (allowed : Stmt.AllBind (Allows policy ctx.scope) body)
    (enclosed : strict → Stmt.AllEnclosed enclosure body) :
    policy.RunsFrame (policy.Ends strict enclosure) (execBlock ctx body)
      (execBlock (ctx.withCalls plain) body) := by
  match body with
  | [] =>
    rw [execBlock, execBlock]
    exact .pure (α := Flow) trivial
  | statement :: rest =>
    have first := runs_exec statement (Stmt.allBind_cons.1 allowed).1 fun s => (enclosed s).1
    have others := runs_execBlock rest (Stmt.allBind_cons.1 allowed).2 fun s => (enclosed s).2
    rw [execBlock_cons, execBlock_cons]
    exact first.bind fun flow ends => others.proceedBlock flow ends

theorem runs_execHandlers (exception : Exception) (handlers : List (HandlerOf Stmt))
    (allowed : Stmt.HandlersBind (Allows policy ctx.scope) handlers)
    (enclosed : strict → Stmt.HandlersEnclosed enclosure handlers) :
    policy.RunsFrame (policy.Ends strict enclosure) (execHandlers ctx exception handlers)
      (execHandlers (ctx.withCalls plain) exception handlers) := by
  match handlers with
  | [] =>
    rw [execHandlers, execHandlers]
    exact .raise _
  | ⟨kind, caught, body, _⟩ :: rest =>
    have handles := runs_execBlock body (Stmt.handlersBind_cons.1 allowed).2.1
      fun s => (enclosed s).1
    have others := runs_execHandlers exception rest (Stmt.handlersBind_cons.1 allowed).2.2
      fun s => (enclosed s).2
    have named := (Stmt.handlersBind_cons.1 allowed).1
    rw [execHandlers, execHandlers]
    split
    · cases caught with
      | none => exact handles
      | some ident =>
        exact (sound.runs_store (sound.plain rfl) (named ident rfl)).bind fun _ _ => handles
    · exact others

end

end Policy.Sound
end Interp
end TwoTier
