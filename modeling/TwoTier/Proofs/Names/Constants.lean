import TwoTier.Proofs.Names.Later
import TwoTier.Proofs.Surface.Endings

namespace TwoTier.Surface

/-- The names that a statement itself binds as an assignment, an update or a loop. -/
def Stmt.countedNames : Stmt → List String
  | .assign _ targets _ => targets.flatMap (·.targetNames)
  | .update _ target _ _ => target.targetNames
  | .forLoop _ target _ _ => target.targetNames
  | _ => []

/-- The names that a statement itself binds as an import or for an exception that it handles. -/
def Stmt.sideNames : Stmt → List String
  | .importNames _ names => names.map (·.boundName)
  | .importFrom _ _ names => names.map (·.boundName)
  | .attempt _ _ handlers _ => handlers.filterMap fun handler => handler.name.map (·.name)
  | _ => []

/-- The names that imports and exception handlers of a module body bind. -/
def Module.sideNames (module : Module) : List String :=
  (Stmt.withinAll module.body).flatMap Stmt.sideNames

theorem Stmt.countedNames_assign {span : Span} {targets : List Expr} {value : Expr} :
    (Stmt.assign span targets value).countedNames = targets.flatMap Expr.targetNames :=
  rfl

theorem Stmt.storedNames_eq (stmt : Stmt) :
    stmt.storedNames = stmt.countedNames ++ stmt.sideNames := by
  cases stmt <;> simp [storedNames, boundNames, countedNames, sideNames]

end TwoTier.Surface

namespace TwoTier.Interp

open Surface (Expr Module Stmt)

variable {τ : Type} {name : String} {number : Scalar}

/-- A body that binds a name only once, at its top level, by an assignment of a number. -/
inductive DefinesOnce (name : String) (number : Scalar) : List Stmt → Prop where
  | intro {before others : List Stmt} {span place : Span} {first rest : List Expr} {value : Expr}
      (literal : numericLiteral? value = some number) (spareBefore : Stmt.AllSpare name before)
      (spareOthers : Stmt.AllSpare name others) (spareFirst : name ∉ Expr.targetNamesAll first)
      (spareRest : name ∉ Expr.targetNamesAll rest) :
      DefinesOnce name number
        (before ++ .assign span (first ++ .name place name :: rest) value :: others)

section Text

variable {module : Module}

theorem moduleBindings_eq (module : Module) :
    moduleBindings module = (Stmt.withinAll module.body).flatMap Stmt.countedNames :=
  rfl

/-- A constant is bound once, by an assignment of its number at the top level. -/
theorem assigned_of_findConstants {declared : List String}
    (found : (findConstants module declared).get? name = some number) :
    (∃ span targets value, Stmt.assign span targets value ∈ module.body ∧
      numericLiteral? value = some number ∧ name ∈ targets.filterMap Expr.name?) ∧
      (moduleBindings module).count name = 1 ∧ name ∉ declared := by
  refine (Table.get?_foldl module.body ?_ [] found).resolve_left nofun
  intro stmt member table entered
  split at entered
  · rename_i span targets value
    split at entered
    · exact .inl entered
    · rename_i literal
      refine Table.get?_foldl (targets.filterMap Expr.name?) ?_ table entered
      intro target targeted table entered
      split at entered
      · rename_i counted
        rw [Table.get?_set] at entered
        split at entered
        · cases entered
          subst target
          refine .inr ⟨⟨span, targets, value, member, literal, targeted⟩, ?_⟩
          simpa using counted
        · exact .inl entered
      · exact .inl entered
  · exact .inl entered

/-- A constant that no import or handler binds has one definition, and no function declares it
global. -/
theorem definesOnce_of_constant? (constant : (Program.ofModule module).constant? name = some number)
    (plain : name ∉ module.sideNames) :
    DefinesOnce name number module.body ∧ name ∉ declaredGlobals module := by
  obtain ⟨⟨span, targets, value, member, literal, targeted⟩, once, undeclared⟩ :=
    assigned_of_findConstants constant
  refine ⟨?_, undeclared⟩
  obtain ⟨target, listed, named⟩ := List.mem_filterMap.1 targeted
  obtain ⟨place, rfl⟩ : ∃ place, target = .name place name := by
    cases target <;> simp_all [Expr.name?]
  obtain ⟨before, others, split⟩ := List.append_of_mem member
  obtain ⟨first, rest, rfl⟩ := List.append_of_mem listed
  -- the count of one is used up by the target, so it is zero everywhere else
  rw [moduleBindings_eq, split] at once
  rw [Module.sideNames, split] at plain
  simp only [Stmt.withinAll_append, Stmt.withinAll, Stmt.within, List.flatMap_append,
    List.flatMap_cons, List.count_append, List.count_cons_self, Stmt.countedNames_assign,
    Expr.targetNames, List.mem_append, not_or, List.nil_append, List.cons_append] at once plain
  have absent {body : List Stmt}
      (uncounted : ((Stmt.withinAll body).flatMap Stmt.countedNames).count name = 0)
      (aside : name ∉ (Stmt.withinAll body).flatMap Stmt.sideNames) : Stmt.AllSpare name body := by
    intro stmt inside stored
    rw [Stmt.storedNames_eq, List.mem_append] at stored
    obtain counted | side := stored
    · exact List.count_eq_zero.1 uncounted (List.mem_flatMap.2 ⟨stmt, inside, counted⟩)
    · exact aside (List.mem_flatMap.2 ⟨stmt, inside, side⟩)
  rw [split]
  refine .intro literal (absent (by omega) plain.1) (absent (by omega) plain.2.2) ?_ ?_
  · rw [Surface.Expr.targetNamesAll_eq]
    exact List.count_eq_zero.1 (by omega)
  · rw [Surface.Expr.targetNamesAll_eq]
    exact List.count_eq_zero.1 (by omega)

end Text

section Runs

variable {ctx : Context τ}

theorem eval_of_numericLiteral? (literal : numericLiteral? expr = some number)
    (locals : Table Value) (world : World τ) :
    eval ctx locals expr world = .ok (.ofScalar number) world := by
  fun_induction numericLiteral? expr generalizing number with
  | case1 | case2 | case3 =>
    cases literal
    rfl
  | case4 _ operand value inner ih =>
    obtain ⟨negated, fits, rfl⟩ := Option.map_eq_some_iff.1 literal
    rw [eval, Run.bind_apply, ih inner]
    simp only [Value.ofScalar, unary, Value.int?, fits]
    rfl
  | case5 _ operand value inner ih =>
    cases literal
    rw [eval, Run.bind_apply, ih inner]
    rfl
  | case6 => cases literal
  | case7 => cases literal

theorem assignAll_append {first others : List Expr} {values more : List Value}
    (same : values.length = first.length) :
    assignAll ctx (first ++ others) (values ++ more) =
      assignAll ctx first values >>= fun _ => assignAll ctx others more := by
  induction first generalizing values with
  | nil =>
    obtain rfl := List.eq_nil_of_length_eq_zero same
    rfl
  | cons target rest ih =>
    obtain ⟨value, values, rfl⟩ := List.exists_cons_of_length_eq_add_one same
    rw [List.cons_append, List.cons_append, assignAll, assignAll, ih (by simpa using same)]
    funext frame
    simp only [Run.bind_apply]
    split <;> rfl

theorem execBlock_append (first others : List Stmt) :
    execBlock ctx (first ++ others) =
      execBlock ctx first >>= proceedBlock (execBlock ctx others) := by
  induction first with
  | nil =>
    rfl
  | cons stmt rest ih =>
    rw [List.cons_append, execBlock_cons, execBlock_cons, ih]
    funext frame
    simp only [Run.bind_apply]
    split
    · rename_i flow _ _
      cases flow <;> rfl
    · rfl
    · rfl

theorem flow_of_proceedBlock {others : Run (Frame τ) Flow} {after : Frame τ}
    (ran : proceedBlock others flow frame = .ok .next after) : flow = .next := by
  cases flow with
  | next => rfl
  | leave | skip | giveBack => cases ran

section Defining

variable {first rest : List Expr} {place span : Span} {value : Expr}

theorem assignAll_targets (first rest : List Expr) (place : Span) (value : Value) :
    assignAll ctx (first ++ .name place name :: rest)
        (List.replicate (first ++ .name place name :: rest).length value) =
      (assignAll ctx first (List.replicate first.length value) >>= fun _ =>
        store ctx.scope name value >>= fun _ =>
          assignAll ctx rest (List.replicate rest.length value)) := by
  rw [List.length_append, List.length_cons, ← List.replicate_append_replicate,
    List.replicate_succ, assignAll_append List.length_replicate, assignAll, assign]

theorem exec_defining (literal : numericLiteral? value = some number) (frame : Frame τ) :
    exec ctx (.assign span (first ++ .name place name :: rest) value) frame =
      ((assignAll ctx first (List.replicate first.length (Value.ofScalar number)) >>= fun _ =>
        store ctx.scope name (.ofScalar number) >>= fun _ =>
          assignAll ctx rest (List.replicate rest.length (.ofScalar number))) >>= fun _ =>
        pure Flow.next) frame := by
  have evaluated : evalHere ctx value frame = .ok (.ofScalar number) frame := by
    rw [evalHere, amongLocals, eval_of_numericLiteral? literal]
  rw [exec, Run.bind_apply, evaluated]
  dsimp only
  rw [assignAll_targets]

theorem store_number (inModule : ctx.scope = .module) (frame : Frame τ) :
    (store ctx.scope name (.ofScalar number) frame).Leaves fun after =>
      after.world.Binds name (some (.ofScalar number)) := by
  rw [inModule]
  exact (Table.get?_set name name (Value.ofScalar number) _).trans (if_pos rfl)

variable (literal : numericLiteral? value = some number)
  (spareFirst : name ∉ Expr.targetNamesAll first) (spareRest : name ∉ Expr.targetNamesAll rest)
  (inModule : ctx.scope = .module) (calls : ctx.calls.Spare name (some (.ofScalar number)))

include literal spareFirst spareRest inModule calls in
/-- The assignment that defines a constant leaves it bound to its number. -/
theorem spared_defining :
    FrameSpared name (some (.ofScalar number))
      (exec ctx (.assign span (first ++ .name place name :: rest) value)) := by
  rw [funext (exec_defining literal)]
  refine Run.Keeps.bind ?_ fun _ => .pure _
  apply (FrameSpared.assignAll calls first _ fun _ => spareFirst).bind
  intro _
  refine Run.Keeps.bind ⟨fun {frame} _ => store_number inModule frame⟩ fun _ => ?_
  exact FrameSpared.assignAll calls rest _ fun _ => spareRest

include literal spareRest inModule calls in
/-- Once that assignment is done the constant is bound to its number, whatever it was before. -/
theorem binds_of_defining {frame after : Frame τ} {flow : Flow}
    (ran : exec ctx (.assign span (first ++ .name place name :: rest) value) frame =
      .ok flow after) : after.world.Binds name (some (.ofScalar number)) := by
  rw [exec_defining literal] at ran
  obtain ⟨_, _, targets, ended⟩ := Run.bind_eq_ok.1 ran
  obtain ⟨_, between, _, others⟩ := Run.bind_eq_ok.1 targets
  obtain ⟨_, bound, stored, others⟩ := Run.bind_eq_ok.1 others
  have held : (store ctx.scope name (.ofScalar number) between).Leaves fun after =>
      after.world.Binds name (some (.ofScalar number)) := store_number inModule between
  rw [stored] at held
  have left := (FrameSpared.assignAll calls rest (List.replicate rest.length (.ofScalar number))
    fun _ => spareRest).leaves held
  rw [others] at left
  cases ended
  exact left

end Defining

variable {body : List Stmt} (defines : DefinesOnce name number body)
  (inModule : ctx.scope = .module) (calls : ctx.calls.Spare name (some (.ofScalar number)))

include defines inModule calls

theorem DefinesOnce.spared : FrameSpared name (some (.ofScalar number)) (execBlock ctx body) := by
  obtain ⟨literal, spareBefore, spareOthers, spareFirst, spareRest⟩ := defines
  have first := FrameSpared.execBlock calls _ fun _ => spareBefore
  have others := FrameSpared.execBlock calls _ fun _ => spareOthers
  rw [execBlock_append, execBlock_cons]
  apply first.bind
  apply Run.Keeps.proceedBlock
  apply (spared_defining literal spareFirst spareRest inModule calls).bind
  exact others.proceedBlock

/-- A body that defines a constant and runs to its end has bound it to its number. -/
theorem DefinesOnce.binds {after : Frame τ} (ran : execBlock ctx body frame = .ok .next after) :
    after.world.Binds name (some (.ofScalar number)) := by
  obtain ⟨literal, _, spareOthers, _, spareRest⟩ := defines
  rw [execBlock_append, execBlock_cons] at ran
  obtain ⟨flow, _, _, ran⟩ := Run.bind_eq_ok.1 ran
  obtain rfl := flow_of_proceedBlock ran
  obtain ⟨flow, between, defined, ran⟩ := Run.bind_eq_ok.1 ran
  have held := binds_of_defining literal spareRest inModule calls defined
  have left := ((FrameSpared.execBlock calls _ fun _ => spareOthers).proceedBlock flow).leaves held
  rw [ran] at left
  exact left

end Runs

section Loading

variable {source : String} {maxDepth : Nat} {heap : Heap} {output : String} {image : Image}

theorem Image.of_load (loaded : Image.load source maxDepth heap output = .ok image) :
    ∃ module, Surface.readModule source = .ok module ∧ image.program = .ofModule module ∧
      ∃ after : Frame Unit, after.world.globals = image.globals ∧
        execBlock ⟨image.program, callsAt image.program loopAllowance .direct maxDepth, .module,
          loopAllowance⟩ module.body ⟨[], heap, [("__name__", .str libraryName)], output, ()⟩ =
            .ok .next after := by
  unfold Image.load at loaded
  split at loaded
  · cases loaded
  · rename_i module read
    refine ⟨module, read, ?_⟩
    unfold runModule at loaded
    dsimp only at loaded
    split at loaded
    · rename_i world ended
      cases loaded
      split at ended
      · rename_i flow after ran
        cases ended
        obtain rfl := flow_of_module read ran
        exact ⟨rfl, after, rfl, ran⟩
      · cases ended
      · cases ended
    · cases loaded
    · cases loaded

/-- A constant of a loaded program is bound to its number and is left so, unless an import, an
exception handler or running as the main program binds its name too. -/
theorem spares_of_constant? (loaded : Image.load source maxDepth heap output = .ok image)
    (constant : image.program.constant? name = some number) (unreserved : "__name__" ≠ name)
    (plain : name ∉ image.program.module.sideNames) :
    image.program.Spares name (some (.ofScalar number)) ∧
      image.globals.get? name = some (.ofScalar number) := by
  obtain ⟨module, read, same, after, globals, ran⟩ := Image.of_load loaded
  rw [same] at constant plain ran ⊢
  obtain ⟨defines, undeclared⟩ := definesOnce_of_constant? constant plain
  have functions := Program.functionsSpare_of_not_mem undeclared
  refine ⟨⟨unreserved, functions, defines.spared⟩, ?_⟩
  rw [← globals]
  exact defines.binds rfl (.callsAt Route.neutral_direct functions maxDepth) ran

end Loading
end TwoTier.Interp

namespace TwoTier.Dispatch

open Interp (Heap Image Result Session Value World)

/-- A constant of a loaded program is bound to its number after loading and whatever calls and runs
of the main program follow, under interpretation and under dispatch, unless an import, an exception
handler or running as the main program binds its name too. -/
theorem constants_stay {source name : String} {maxDepth : Nat} {heap : Heap} {output : String}
    {image : Image} {number : Scalar} (loaded : Image.load source maxDepth heap output = .ok image)
    (constant : image.program.constant? name = some number) (unreserved : "__name__" ≠ name)
    (plain : name ∉ image.program.module.sideNames) :
    (∀ depth later, (Session.ofImage image depth).Later later →
      later.world.globals.get? name = some (.ofScalar number)) ∧
    ∀ registry later, (Engine.ofImage image registry).Later later →
      later.world.globals.get? name = some (.ofScalar number) := by
  obtain ⟨spares, bound⟩ := Interp.spares_of_constant? loaded constant unreserved plain
  constructor
  · intro depth later follows
    exact follows.binds spares bound
  · intro registry later follows
    exact follows.binds spares bound

def isWord (value : Int64) : Option Scalar → Bool
  | some (.int number) => number = value
  | _ => false

theorem eq_of_isWord {value : Int64} {found : Option Scalar} (same : isWord value found = true) :
    found = some (.int value) := by
  unfold isWord at same
  split at same
  · rw [of_decide_eq_true same]
  · cases same

def isRaised : Result (World Unit) Value → Bool
  | .raised _ _ => true
  | _ => false

/-- A constant that a function divides. -/
def dividendSource : String := "DIVIDEND = -2\ndef f(x):\n    return DIVIDEND // x\n"

/-- The constant is kept where a call raises. -/
theorem constants_stay_dividend :
    ∃ image exception world, Image.load dividendSource 9 .empty "" = .ok image ∧
      image.program.constant? "DIVIDEND" = some (.int (-2)) ∧
      (Session.ofImage image 9).call "f" [.int 0] = .raised exception world ∧
      world.globals.get? "DIVIDEND" = some (.int (-2)) := by
  have evaluated : ((Image.load dividendSource 9 .empty "").toOption.any fun image =>
      isWord (-2) (image.program.constant? "DIVIDEND") &&
        (!image.program.module.sideNames.contains "DIVIDEND" &&
          isRaised ((Session.ofImage image 9).call "f" [.int 0]))) = true := by
    decide +kernel
  obtain ⟨image, loaded, checked⟩ := (Option.any_eq_true _ _).1 evaluated
  have loaded := eq_ok_of_toOption loaded
  obtain ⟨constant, checked⟩ := Bool.and_eq_true_iff.1 checked
  obtain ⟨plain, raises⟩ := Bool.and_eq_true_iff.1 checked
  have constant := eq_of_isWord constant
  have plain : "DIVIDEND" ∉ image.program.module.sideNames := by simpa using plain
  cases called : (Session.ofImage image 9).call "f" [.int 0] with
  | raised exception world =>
    have ends : ((Session.ofImage image 9).call "f" [.int 0]).Ends world := by
      rw [called]
      exact .raised
    refine ⟨image, exception, world, loaded, constant, called, ?_⟩
    exact (constants_stay loaded constant (by decide) plain).1 9 _ (.called .now ends)
  | ok | exhausted =>
    rw [called] at raises
    cases raises

/-- A number whose name an import takes over. -/
def renamedImportSource : String := "x = 1\nimport math as x\n"

def isMathModule : Option Value → Bool
  | some (.module text) => text = "math"
  | _ => false

/-- The number is taken for a constant, but its name stands for the imported module. -/
theorem constant_lost_renamedImport :
    ∃ session, Session.start renamedImportSource 1 = .ok session ∧
      session.program.constant? "x" = some (.int 1) ∧
      session.world.globals.get? "x" = some (.module "math") := by
  have evaluated : ((Session.start renamedImportSource 1).toOption.any fun session =>
      isWord 1 (session.program.constant? "x") &&
        isMathModule (session.world.globals.get? "x")) = true := by decide +kernel
  obtain ⟨session, started, checked⟩ := (Option.any_eq_true _ _).1 evaluated
  obtain ⟨constant, bound⟩ := Bool.and_eq_true_iff.1 checked
  refine ⟨session, eq_ok_of_toOption started, eq_of_isWord constant, ?_⟩
  unfold isMathModule at bound
  split at bound
  · rename_i found
    rw [found, of_decide_eq_true bound]
  · cases bound

end TwoTier.Dispatch
