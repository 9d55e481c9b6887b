import TwoTier.Proofs.Eligibility.Samples
import TwoTier.Proofs.Eligibility.Typing
import TwoTier.Proofs.Names.Constants

namespace TwoTier.Surface.Stmt

/-- Statements among which is all that stands within one of them. -/
def Closed (nodes : List Stmt) : Prop :=
  ∀ nested ∈ nodes, ∀ inner ∈ nested.within, inner ∈ nodes

theorem closed_nil : Closed [] := fun _ absent => absurd absent List.not_mem_nil

theorem Closed.append (first : Closed nodes) (second : Closed others) :
    Closed (nodes ++ others) := by
  intro nested member inner inside
  rw [List.mem_append] at member ⊢
  exact member.imp (first nested · inner inside) (second nested · inner inside)

theorem Closed.around {stmt : Stmt} (closed : Closed below) (same : stmt.within = stmt :: below) :
    Closed stmt.within := by
  intro nested member inner inside
  rw [same] at member ⊢
  obtain rfl | later := List.mem_cons.1 member
  · exact same ▸ inside
  · exact .tail _ (closed nested later inner inside)

mutual

theorem closed_within (stmt : Stmt) : Closed stmt.within := by
  match stmt with
  | .expr _ _ | .assign _ _ _ | .update _ _ _ _ | .giveBack _ _ | .leave _ | .skip _ | .pass _
  | .importNames _ _ | .importFrom _ _ _ | .globals _ _ | .nonlocals _ _ | .raise _ _
  | .define _ => exact closed_nil.around (by simp [within])
  | .branch _ _ yes no =>
    exact ((closed_withinAll yes).append (closed_withinAll no)).around (by rw [within])
  | .whileLoop _ _ body | .forLoop _ _ _ body =>
    exact (closed_withinAll body).around (by rw [within])
  | .attempt _ body handlers cleanup =>
    have tried := (closed_withinAll body).append (closed_withinHandlers handlers)
    exact (tried.append (closed_withinAll cleanup)).around (by rw [within])

theorem closed_withinAll (body : List Stmt) : Closed (withinAll body) := by
  match body with
  | [] =>
    exact closed_nil
  | stmt :: rest =>
    exact (closed_within stmt).append (closed_withinAll rest)

theorem closed_withinHandlers (handlers : List (HandlerOf Stmt)) :
    Closed (withinHandlers handlers) := by
  match handlers with
  | [] =>
    exact closed_nil
  | ⟨_, _, body, _⟩ :: rest =>
    exact (closed_withinAll body).append (closed_withinHandlers rest)

end

end TwoTier.Surface.Stmt

namespace TwoTier.Interp

open Surface (Expr Module Stmt)

variable {τ : Type} {name : String}

/-- The names that a program may bind in its module. -/
def Program.boundNames (program : Program) : List String :=
  "__name__" :: (Stmt.withinAll program.module.body).flatMap Stmt.storedNames ++
    declaredGlobals program.module

/-- A statement of a program, however deep, and the scope that it is run in. -/
inductive Program.Holds (program : Program) : Scope → Stmt → Prop where
  | module {stmt : Stmt} (inside : stmt ∈ Stmt.withinAll program.module.body) :
      Holds program .module stmt
  | function {callee : String} {info : FunctionInfo} {stmt : Stmt}
      (found : program.function? callee = some info)
      (inside : stmt ∈ Stmt.withinAll info.definition.body) :
      Holds program (.function info.localNames info.globalNames) stmt

/-- A context in which a part of a program is run, with calls of some depth. -/
structure Context.Runs (program : Program) (route : Route τ) (ctx : Context τ) : Prop where
  program_eq : ctx.program = program
  calls : ∃ remaining depth, ctx.calls =
    let calls := callsAt program loopAllowance route remaining
    ⟨calls.function, calls.closure,
      defaultValue program loopAllowance calls.function calls.closure depth⟩

/-- The worlds that a program passes through, in the middle of calls as well. -/
inductive Moment (program : Program) (route : Route τ) (rests : World τ → Prop) :
    World τ → Prop where
  | rest {world : World τ} (rested : rests world) : Moment program route rests world
  /-- objects, output and what is kept for routing calls change -/
  | changed {world after : World τ} (earlier : Moment program route rests world)
      (same : after.globals = world.globals) : Moment program route rests after
  /-- a run of the main program begins -/
  | renamed {world : World τ} (earlier : Moment program route rests world) :
      Moment program route rests (world.setGlobal "__name__" (.str mainName))
  | evaluated {world after : World τ} {ctx : Context τ} {locals : Table Value} {expr : Expr}
      (earlier : Moment program route rests world) (runs : ctx.Runs program route)
      (ends : (eval ctx locals expr world).Ends after) : Moment program route rests after
  | executed {frame after : Frame τ} {ctx : Context τ} {stmt : Stmt}
      (earlier : Moment program route rests frame.world) (runs : ctx.Runs program route)
      (held : program.Holds ctx.scope stmt) (ends : (exec ctx stmt frame).Ends after) :
      Moment program route rests after.world
  /-- a statement that goes on has bound one of its names -/
  | bound {frame after : Frame τ} {scope : Scope} {stmt : Stmt} {asked : String} {value : Value}
      (earlier : Moment program route rests frame.world) (held : program.Holds scope stmt)
      (binds : asked ∈ stmt.storedNames) (ends : (store scope asked value frame).Ends after) :
      Moment program route rests after.world

section Unbound

variable {module : Module} (unbound : name ∉ (Program.ofModule module).boundNames)
include unbound

theorem functionsSpare_of_unbound : (Program.ofModule module).FunctionsSpare name := by
  refine Program.functionsSpare_of_not_mem fun declared => unbound ?_
  exact List.mem_append_right _ declared

theorem spares_of_unbound (held : (Program.ofModule module).Holds scope stmt)
    (isGlobal : scope.isGlobal name = true) : stmt.Spares name := by
  cases held with
  | module inside =>
    intro inner nested stored
    have within := Stmt.closed_withinAll _ stmt inside inner nested
    refine unbound (List.mem_append_left _ (.tail _ ?_))
    exact List.mem_flatMap.2 ⟨inner, within, stored⟩
  | function found inside =>
    exact absurd (List.contains_iff_mem.1 isGlobal) (functionsSpare_of_unbound unbound _ _ found)

theorem unreserved_of_unbound : "__name__" ≠ name := by
  rintro rfl
  exact unbound (List.mem_append_left _ (.head _))

theorem spares_none_of_unbound : (Program.ofModule module).Spares name none where
  unreserved := unreserved_of_unbound unbound
  functions := functionsSpare_of_unbound unbound
  body _ calls := FrameSpared.execBlock calls _ fun _ stmt inside stored =>
    unbound (List.mem_append_left _ (List.mem_cons_of_mem _
      (List.mem_flatMap.2 ⟨stmt, inside, stored⟩)))

theorem Moment.binds_none (neutral : route.Neutral) {rests : World τ → Prop}
    (rested : ∀ {world}, rests world → world.Binds name none)
    (moment : Moment (Program.ofModule module) route rests world) : world.Binds name none := by
  have functions := functionsSpare_of_unbound unbound
  have calls {ctx : Context τ} (runs : ctx.Runs (Program.ofModule module) route) :
      ctx.calls.Spare name none := by
    obtain ⟨remaining, depth, same⟩ := runs.calls
    have inner : Calls.Spare name none
        (callsAt (Program.ofModule module) loopAllowance route remaining) :=
      .callsAt neutral functions remaining
    rw [same]
    exact ⟨inner.function, inner.closure, Spared.defaultValue inner.function inner.closure depth⟩
  induction moment with
  | rest here => exact rested here
  | changed _ same ih => exact (congrArg (Table.get? name) same).trans ih
  | renamed _ ih => exact World.binds_setGlobal (unreserved_of_unbound unbound) _ ih
  | @evaluated world after ctx locals expr _ runs ends ih =>
    exact ((Spared.eval (calls runs) locals expr).leaves ih).ends ends
  | @executed frame after ctx stmt _ runs held ends ih =>
    have spares := spares_of_unbound unbound held
    exact ((FrameSpared.exec (calls runs) stmt spares).leaves ih).ends ends
  | @bound frame after scope stmt asked value _ held binds ends ih =>
    have other (isGlobal : scope.isGlobal name = true) : asked ≠ name := by
      rintro rfl
      exact (spares_of_unbound unbound held isGlobal).own binds
    exact ((FrameSpared.store value other).leaves ih).ends ends

theorem binds_none_of_load (loaded : Image.load source maxDepth heap output = .ok image)
    (same : image.program = Program.ofModule module) : image.globals.get? name = none := by
  obtain ⟨loadedModule, _, again, after, globals, ran⟩ := Image.of_load loaded
  obtain rfl : loadedModule = module := congrArg Program.module (again.symm.trans same)
  have spares := spares_none_of_unbound unbound
  rw [same] at ran
  let ctx : Context Unit := ⟨.ofModule loadedModule,
    callsAt (.ofModule loadedModule) loopAllowance .direct maxDepth, .module, loopAllowance⟩
  have calls : ctx.calls.Spare name none := .callsAt Route.neutral_direct spares.functions maxDepth
  let start : Frame Unit := ⟨[], heap, [("__name__", .str libraryName)], output, ()⟩
  have unset : start.world.Binds name none := if_neg spares.unreserved
  have kept : FrameSpared name none (execBlock ctx loadedModule.body) := spares.body rfl calls
  have left := kept.leaves unset
  rw [ran] at left
  exact globals ▸ left

end Unbound

def FunctionInfo.scope (info : FunctionInfo) : Scope :=
  .function info.localNames info.globalNames

/-- Whatever the locals, a frame of a function finds this value under a name. -/
def FunctionInfo.Finds (info : FunctionInfo) (program : Program) (name : String) (value : Value)
    (world : World τ) : Prop :=
  ∀ (calls : Calls τ) (fuel : Nat) (locals : Table Value),
    load ⟨program, calls, info.scope, fuel⟩ locals name world = .ok value world

section Finding

variable {info : FunctionInfo} {program : Program} {world : World τ}

theorem load_of_not_local (isGlobal : name ∉ info.localNames) (calls : Calls τ) (fuel : Nat)
    (locals : Table Value) :
    load ⟨program, calls, info.scope, fuel⟩ locals name = loadGlobal program name := by
  have missing : info.localNames.contains name = false := by simpa using isGlobal
  unfold load
  simp only [FunctionInfo.scope]
  rw [missing, Bool.not_false, Bool.or_true]
  rfl

theorem FunctionInfo.finds_function (isGlobal : name ∉ info.localNames)
    (defined : (program.function? name).isSome) (unbound : world.Binds name none) :
    info.Finds program name (.function name) world := by
  intro calls fuel locals
  rw [load_of_not_local isGlobal, loadGlobal, Run.bind_apply]
  simp only [Run.get]
  rw [show world.globals.get? name = none from unbound]
  simp only [defined]
  rfl

theorem FunctionInfo.finds_builtin {builtin : Builtin} (isGlobal : name ∉ info.localNames)
    (undefined : program.function? name = none) (known : Builtin.ofName? name = some builtin)
    (unbound : world.Binds name none) : info.Finds program name (.builtin builtin) world := by
  intro calls fuel locals
  rw [load_of_not_local isGlobal, loadGlobal, Run.bind_apply]
  simp only [Run.get]
  rw [show world.globals.get? name = none from unbound]
  simp only [undefined, known]
  rfl

end Finding

/-- A value is found under a name in a frame of a function at every moment after loading. -/
structure Image.AlwaysFinds (image : Image) (info : FunctionInfo) (name : String) (value : Value) :
    Prop where
  interpreted : ∀ (maxDepth : Nat) (world : World Unit),
    Moment image.program .direct
      (fun world => ∃ later, (Session.ofImage image maxDepth).Later later ∧ later.world = world)
      world → info.Finds image.program name value world
  dispatched : ∀ (registry : Dispatch.Registry) (world : World Dispatch.Registry),
    Moment image.program (Dispatch.route image.program)
      (fun world => ∃ later, (Dispatch.Engine.ofImage image registry).Later later ∧
        later.world = world)
      world → info.Finds image.program name value world

theorem Image.alwaysFinds {source : String} {maxDepth : Nat} {heap : Heap} {output : String}
    {image : Image} {info : FunctionInfo} {value : Value}
    (loaded : Image.load source maxDepth heap output = .ok image)
    (unbound : name ∉ image.program.boundNames)
    (finds : ∀ {τ : Type} {world : World τ}, world.Binds name none →
      info.Finds image.program name value world) : image.AlwaysFinds info name value := by
  obtain ⟨module, _, same, _⟩ := Image.of_load loaded
  rw [same] at unbound
  have absent := binds_none_of_load unbound loaded same
  have spares : image.program.Spares name none := same ▸ spares_none_of_unbound unbound
  constructor
  · intro depth world moment
    refine finds ((same ▸ moment).binds_none unbound Route.neutral_direct ?_)
    rintro _ ⟨later, follows, rfl⟩
    exact follows.binds spares absent
  · intro registry world moment
    refine finds ((same ▸ moment).binds_none unbound (Dispatch.neutral_route _) ?_)
    rintro _ ⟨later, follows, rfl⟩
    exact follows.binds spares absent

end TwoTier.Interp

namespace TwoTier.Eligibility

open Interp (Builtin FunctionInfo Heap Image Value)

open Typed (LocalId)

/-- The typed code of a call of a known function or operation with some arguments. -/
inductive CallsValue (layout : Layout) (assigned : List LocalId) :
    Value → List Surface.Expr → Typed.Expr → Prop where
  | function {name : String} {args : List Surface.Expr} {kinds : List Kind} {result : ReturnKind}
      {callee : Typed.RoutineIndex} {type : NumType} {values : List Typed.Arg}
      (inner : RendersArgs layout assigned args kinds values)
      (known : layout.signature? callee = some ⟨name, kinds, result⟩) :
      CallsValue layout assigned (.function name) args (.call callee type values)
  | len {arg : Surface.Expr} {id : LocalId} {element : NumType}
      (array : layout.HasArray arg id element) :
      CallsValue layout assigned (.builtin .len) [arg] (.len id)
  | abs {arg : Surface.Expr} {x : Typed.Expr} (inner : Renders layout assigned arg x) :
      CallsValue layout assigned (.builtin .abs) [arg] (.abs x)
  | min {left right : Surface.Expr} {x y : Typed.Expr} (first : Renders layout assigned left x)
      (second : Renders layout assigned right y) :
      CallsValue layout assigned (.builtin .min) [left, right] (.extremum .min x y)
  | max {left right : Surface.Expr} {x y : Typed.Expr} (first : Renders layout assigned left x)
      (second : Renders layout assigned right y) :
      CallsValue layout assigned (.builtin .max) [left, right] (.extremum .max x y)
  | int {arg : Surface.Expr} {x : Typed.Expr} (inner : Renders layout assigned arg x) :
      CallsValue layout assigned (.builtin .int) [arg] (Subject.convert "int" x)
  | float {arg : Surface.Expr} {x : Typed.Expr} (inner : Renders layout assigned arg x) :
      CallsValue layout assigned (.builtin .float) [arg] (Subject.convert "float" x)

section Resolving

variable {layout : Layout} {assigned : List LocalId}

/-- What is rendered as a call calls a function of the program or a builtin, by its own name. -/
theorem resolved_of_renders {args : List Surface.Expr}
    (rendered : RendersEffect layout assigned (.call span func args keywords) typed) :
    ∃ place name value, func = .name place name ∧ CallsValue layout assigned value args typed ∧
      name ∉ layout.localNames ∧
      (value = .function name ∧ (layout.program.function? name).isSome ∨
        ∃ builtin, value = .builtin builtin ∧ Builtin.ofName? name = some builtin ∧
          layout.program.function? name = none) := by
  cases rendered with
  | call isGlobal defined inner known =>
    exact ⟨_, _, _, rfl, .function inner known, isGlobal, .inl ⟨rfl, defined⟩⟩
  | value inner =>
    cases inner with
    | call isGlobal defined inner known =>
      exact ⟨_, _, _, rfl, .function inner known, isGlobal, .inl ⟨rfl, defined⟩⟩
    | len builtin array =>
      exact ⟨_, _, _, rfl, .len array, builtin.1, .inr ⟨.len, rfl, rfl, builtin.2⟩⟩
    | abs builtin inner =>
      exact ⟨_, _, _, rfl, .abs inner, builtin.1, .inr ⟨.abs, rfl, rfl, builtin.2⟩⟩
    | min builtin first second =>
      exact ⟨_, _, _, rfl, .min first second, builtin.1, .inr ⟨.min, rfl, rfl, builtin.2⟩⟩
    | max builtin first second =>
      exact ⟨_, _, _, rfl, .max first second, builtin.1, .inr ⟨.max, rfl, rfl, builtin.2⟩⟩
    | convert conversion builtin inner =>
      obtain rfl | rfl := conversion
      · exact ⟨_, _, _, rfl, .int inner, builtin.1, .inr ⟨.int, rfl, rfl, builtin.2⟩⟩
      · exact ⟨_, _, _, rfl, .float inner, builtin.1, .inr ⟨.float, rfl, rfl, builtin.2⟩⟩

theorem range_of_writes {known after : Definite} {origin : Span} {bounds : List Surface.Expr}
    {body : List Surface.Stmt} {typed : List Typed.Stmt}
    (writes : Writes layout known (.forLoop span target (.call origin func bounds keywords) body)
      typed after) : (∃ place, func = .name place "range") ∧ "range" ∉ layout.localNames := by
  cases writes with
  | forRange isGlobal => exact ⟨⟨_, rfl⟩, isGlobal⟩
  | forArray listed => cases listed

/-- Every name that is rendered as called means in frames of a function what its code calls, unless
the module binds the name; the range of a loop moreover unless the module defines a function of that
name. -/
structure Layout.ResolvesAlike (layout : Layout) (image : Image) (info : FunctionInfo) : Prop where
  call : ∀ {assigned : List LocalId} {span : Span} {func : Surface.Expr} {args : List Surface.Expr}
    {keywords : List (Surface.Ident × Surface.Expr)} {typed : Typed.Expr},
    RendersEffect layout assigned (.call span func args keywords) typed →
      ∃ place name value, func = .name place name ∧ CallsValue layout assigned value args typed ∧
        (name ∉ image.program.boundNames → image.AlwaysFinds info name value)
  range : ∀ {known after : Definite} {span origin : Span} {target func : Surface.Expr}
    {bounds : List Surface.Expr} {keywords : List (Surface.Ident × Surface.Expr)}
    {body : List Surface.Stmt} {typed : List Typed.Stmt},
    Writes layout known (.forLoop span target (.call origin func bounds keywords) body) typed
      after → ∃ place, func = .name place "range" ∧
        ("range" ∉ image.program.boundNames → image.program.function? "range" = none →
          image.AlwaysFinds info "range" (.builtin .range))

theorem Rendition.resolvesAlike {function : String}
    (rendition : Rendition layout info.definition kinds routine)
    (loaded : Image.load source maxDepth heap output = .ok image)
    (program : layout.program = image.program)
    (found : image.program.function? function = some info) : layout.ResolvesAlike image info := by
  have locals {name : String} (isGlobal : name ∉ layout.localNames) : name ∉ info.localNames := by
    obtain ⟨module, _, ofModule, _⟩ := Image.of_load loaded
    rw [ofModule] at found
    obtain ⟨definition, _, _, rfl⟩ := Interp.Program.info_of_function? found
    rw [rendition.localNames] at isGlobal
    exact fun member => isGlobal (List.mem_filter.1 member).1
  constructor
  · intro assigned span func args keywords typed rendered
    obtain ⟨place, name, value, rfl, calls, isGlobal, resolved⟩ := resolved_of_renders rendered
    refine ⟨place, name, value, rfl, calls, fun unbound => ?_⟩
    rw [program] at resolved
    obtain ⟨rfl, defined⟩ | ⟨builtin, rfl, known, undefined⟩ := resolved
    · exact Image.alwaysFinds loaded unbound (FunctionInfo.finds_function (locals isGlobal) defined)
    · exact Image.alwaysFinds loaded unbound
        (FunctionInfo.finds_builtin (locals isGlobal) undefined known)
  · intro known after span origin target func bounds keywords body typed writes
    obtain ⟨⟨place, rfl⟩, isGlobal⟩ := range_of_writes writes
    refine ⟨place, rfl, fun unbound undefined => ?_⟩
    exact Image.alwaysFinds loaded unbound
      (FunctionInfo.finds_builtin (locals isGlobal) undefined rfl)

end Resolving

theorem name_of_folded {program : Interp.Program} {closure : Closure} {name : String}
    {kinds : List Kind} {routine : Typed.Routine}
    (stems : Stems program closure name kinds routine) : routine.folded.2.name = name := by
  obtain ⟨_, _, _, _, _, _, _, _, _, _, _, _, _, _, _, rfl⟩ := typed_of_stems stems
  rfl

/-- In a loaded program each routine of an eligible function renders the function of its name, and
the names that it calls mean in frames of that function, at every moment after loading, what the
routine calls. -/
theorem callees_resolve_alike {source : String} {maxDepth : Nat} {heap : Heap} {output : String}
    {image : Image} {candidate : Candidate} {kinds : List Kind} {body : Typed.Body}
    (loaded : Image.load source maxDepth heap output = .ok image)
    (eligible : (analyze image.program candidate kinds).verdict = .eligible body)
    (listed : ∃ info, image.program.function? candidate.name = some info ∧
      info.definition = candidate.definition) {routine : Typed.Routine}
    (member : routine ∈ body.routines) :
    ∃ info written layout kinds, image.program.function? routine.name = some info ∧
      routine = written.folded.2 ∧ Rendition layout info.definition kinds written ∧
      (∀ {callee signature}, layout.signature? callee = some signature →
        ∃ called, body.routines[callee]? = some called ∧ called.name = signature.name) ∧
      layout.ResolvesAlike image info := by
  obtain ⟨closure, settled, _⟩ := settled_of_eligible eligible listed
  obtain ⟨index, here, rfl⟩ := List.getElem_of_mem member
  have entered := List.getElem?_eq_getElem (settled.length ▸ here)
  obtain ⟨written, progress, found⟩ := settled.routine entered
  have stems := settled.sound _ _ _ entered progress
  obtain ⟨definition, layout, compilable, program, signatures, rendition⟩ :=
    rendition_of_stems stems fun found => (settled.routine found).imp fun _ both => both.1
  obtain ⟨info, known, rfl⟩ := compilable.found
  have same := Option.some.inj ((List.getElem?_eq_getElem here).symm.trans found)
  refine ⟨info, written, layout, _, ?_, same, rendition, ?_, ?_⟩
  · rw [same, ← known]
    exact congrArg image.program.function? (name_of_folded stems)
  · intro callee signature announced
    rw [signatures, Closure.signature?] at announced
    split at announced
    · rename_i name kinds routine present
      cases announced
      obtain ⟨called, settles, placed⟩ := settled.routine present
      cases settles
      exact ⟨_, placed, name_of_folded (settled.sound _ _ _ present rfl)⟩
    · cases announced
  · exact rendition.resolvesAlike loaded program known

/-- A loop over a range whose body calls a function that calls a builtin. -/
def rangeSumSource : String :=
  "def g(x: int):\n    return abs(x)\n\ndef f(n: int):\n    t = 0\n    for i in range(n):\n" ++
  "        t = t + g(i)\n    return t\n"

theorem callees_resolve_alike_rangeSum :
    ∃ image candidate body routine, Image.load rangeSumSource 0 .empty "" = .ok image ∧
      (analyze image.program candidate [.scalar .int]).verdict = .eligible body ∧
      routine ∈ body.routines ∧ routine.name = "f" ∧
      (∀ name ∈ ["abs", "g", "range"], name ∉ image.program.boundNames) ∧
      ∃ info, ∃ layout : Layout, image.program.function? "f" = some info ∧
        layout.ResolvesAlike image info := by
  have evaluated : ((sample? rangeSumSource "f" [.scalar .int]).any fun sample =>
      (["abs", "g", "range"].all fun name => !sample.program.boundNames.contains name) &&
        sample.body.routines.any fun routine => routine.name = "f") = true := by decide +kernel
  obtain ⟨sample, found, checked⟩ := (Option.any_eq_true _ _).1 evaluated
  obtain ⟨unbound, named⟩ := Bool.and_eq_true_iff.1 checked
  obtain ⟨routine, member, isF⟩ := List.any_eq_true.1 named
  obtain ⟨eligible, listed⟩ := eligible_of_sample? found
  obtain ⟨image, loaded, same⟩ := load_of_sample? found
  rw [same] at eligible listed unbound
  obtain ⟨info, _, layout, _, known, _, _, _, alike⟩ :=
    callees_resolve_alike loaded eligible listed member
  have named : routine.name = "f" := of_decide_eq_true isF
  refine ⟨image, _, _, routine, loaded, eligible, member, named, ?_, info, layout, ?_, alike⟩
  · intro name listed
    simpa using List.all_eq_true.1 unbound name listed
  · rw [← named, known]

/-- A loop over a range where the module defines a function of that name. -/
def shadowedRangeSource : String :=
  "def range(n):\n    return [7]\n\ndef f(n: int):\n    t = 0\n    for i in range(n):\n" ++
  "        t = t + 1\n    return t\n"

/-- Whether a statement is a loop that counts up to the first local. -/
def countsToFirst : Typed.Stmt → Bool
  | .forLoop ⟨_, .const (.int 0), .var 0 .int, .const (.int 1), .range, _, _⟩ _ => true
  | _ => false

/-- The code of the loop counts up to the argument, while a frame of the function finds the function
of the module. -/
theorem range_resolves_otherwise :
    ∃ sample info, sample? shadowedRangeSource "f" [.scalar .int] = some sample ∧
      (∃ routine ∈ sample.body.routines, routine.body.any countsToFirst = true) ∧
      sample.program.function? "f" = some info ∧
      ∀ world : Interp.World Unit, world.globals.get? "range" = none →
        info.Finds sample.program "range" (.function "range") world := by
  have evaluated : ((sample? shadowedRangeSource "f" [.scalar .int]).any fun sample =>
      (sample.body.routines.any fun routine => routine.body.any countsToFirst) &&
        ((sample.program.function? "range").isSome &&
        (sample.program.function? "f").any fun info => !info.localNames.contains "range")) =
          true := by decide +kernel
  obtain ⟨sample, found, checked⟩ := (Option.any_eq_true _ _).1 evaluated
  obtain ⟨counts, checked⟩ := Bool.and_eq_true_iff.1 checked
  obtain ⟨defined, looked⟩ := Bool.and_eq_true_iff.1 checked
  obtain ⟨info, known, isGlobal⟩ := (Option.any_eq_true _ _).1 looked
  refine ⟨sample, info, found, List.any_eq_true.1 counts, known, fun world unbound => ?_⟩
  exact FunctionInfo.finds_function (by simpa using isGlobal) defined unbound

end TwoTier.Eligibility
