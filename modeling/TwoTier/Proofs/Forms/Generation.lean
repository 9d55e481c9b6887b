import TwoTier.Native.Code
import TwoTier.Proofs.Passes.Reachable
import TwoTier.Proofs.Passes.SingleExit

namespace TwoTier.Native

open Typed (ArgOf ArgsFormed BlockFormed Body BodyFormed Copying Domain Expr LocalId Routine
  RoutineIndex Stmt ParallelHead)

/-- A check that succeeds, unless exits are to be found in it that leave a kernel. -/
def Generates (near : Prop) (check : Check) : Prop :=
  check = .ok () ∨ ¬ near ∧ ∃ label, check = .error (.unknownLabel label)

namespace Generates

variable {near : Prop} {check : Check}

theorem ok (succeeds : check = .ok ()) : Generates near check := .inl succeeds

theorem bind {next : Unit → Check} (first : Generates near check)
    (rest : Generates near (next ())) : Generates near (check >>= next) := by
  obtain rfl | ⟨far, label, rfl⟩ := first
  · exact rest
  · exact .inr ⟨far, label, rfl⟩

theorem forM {α : Type} {test : α → Check} {items : List α}
    (each : ∀ item ∈ items, Generates near (test item)) : Generates near (items.forM test) := by
  induction items with
  | nil => exact .inl rfl
  | cons item rest ih =>
    exact (each item (.head _)).bind
      (ih fun other member => each other (.tail _ member))

end Generates

variable {head : ParallelHead}

section Checks

theorem checkArith_eq {op : ArithOp} (takes : op.takes type = true) :
    Place.checkArith op type = .ok () := by
  cases type <;> cases op <;> simp_all [ArithOp.takes, Place.checkArith]

theorem checkUnary_eq {op : Typed.UnaryOp} (takes : op.takes type = true) :
    Place.checkUnary op type = .ok () := by
  cases type <;> cases op <;> simp_all [Typed.UnaryOp.takes, Place.checkUnary]

theorem ok_bind (value : α) (next : α → Except CodeFault β) :
    (Except.ok value >>= next) = next value := rfl

/-- What is known of the callees of a statement, also of the statements in it. -/
def CallsDeclared (declared : List RoutineIndex) (nodes : List Stmt) : Prop :=
  ∀ node ∈ nodes, ∀ expr ∈ node.exprs, ∀ callee ∈ expr.callees, callee ∈ declared

theorem CallsDeclared.mono {declared : List RoutineIndex} {some all : List Stmt}
    (calls : CallsDeclared declared all) (subset : some ⊆ all) : CallsDeclared declared some :=
  fun node member => calls node (subset member)

/-- Every loop over chunks among statements, the first of which is at a position, has a kernel. -/
def KernelsDeclared (here : Place) (position : Nat) (nodes : List Stmt) : Prop :=
  ∀ offset head chunk, nodes[offset]? = some (.parallel head chunk) →
    here.hasKernel (position + offset) = true

namespace KernelsDeclared

variable {here : Place}

theorem tail (kernels : KernelsDeclared here position (stmt :: rest)) :
    KernelsDeclared here (position + 1) rest := by
  intro offset head chunk found
  rw [Nat.add_assoc, Nat.add_comm 1]
  exact kernels (offset + 1) head chunk found

theorem left (kernels : KernelsDeclared here position (first ++ second)) :
    KernelsDeclared here position first := by
  intro offset head chunk found
  refine kernels offset head chunk ?_
  rw [List.getElem?_append_left (List.getElem?_eq_some_iff.1 found).1, found]

theorem right (kernels : KernelsDeclared here position (first ++ second)) :
    KernelsDeclared here (position + first.length) second := by
  intro offset head chunk found
  rw [Nat.add_assoc]
  refine kernels (first.length + offset) head chunk ?_
  rw [List.getElem?_append_right (Nat.le_add_right ..), Nat.add_sub_cancel_left, found]

theorem within (kernels : KernelsDeclared here 0 nodes) (begins : part <+: nodes.drop position) :
    KernelsDeclared here position part := by
  intro offset head chunk found
  obtain ⟨after, same⟩ := begins
  have here := kernels (position + offset) head chunk (by
    rw [← List.getElem?_drop, ← same,
      List.getElem?_append_left (List.getElem?_eq_some_iff.1 found).1, found])
  rwa [Nat.zero_add] at here

end KernelsDeclared

variable {domain : Domain} {here : Place} (same : here.routine.locals = domain.locals)

include same

variable {id : LocalId}

theorem checkScalar_eq (declared : domain.Declares id (.scalar type)) :
    here.checkScalar id = .ok () := by
  obtain ⟨decl, found, kind⟩ := declared
  simp [Place.checkScalar, same, found, kind, Kind.isArray]

theorem checkArray_eq (declared : domain.Declares id (.array element)) :
    here.checkArray id = .ok () := by
  obtain ⟨decl, found, kind⟩ := declared
  simp [Place.checkArray, same, found, kind, Kind.isArray]

mutual

/-- Generation accepts every well-formed expression whose callees are declared. -/
theorem checkExpr_eq {expr : Expr} (formed : expr.Formed domain)
    (calls : ∀ callee ∈ expr.callees, callee ∈ here.declared) :
    here.checkExpr expr = .ok () := by
  match expr with
  | .const _ => exact rfl
  | .var _ _ => exact checkScalar_eq same formed
  | .len _ =>
    obtain ⟨_, declared⟩ := formed
    exact checkArray_eq same declared
  | .unary _ operand =>
    rw [Place.checkExpr, checkExpr_eq formed.1 (by simpa using calls)]
    exact checkUnary_eq formed.2
  | .abs operand =>
    rw [Place.checkExpr, checkExpr_eq formed.1 (by simpa using calls), ok_bind,
      if_neg formed.2]
    rfl
  | .cast _ operand =>
    rw [Place.checkExpr]
    exact checkExpr_eq formed.1 (by simpa using calls)
  | .index _ _ position =>
    rw [Place.checkExpr, checkExpr_eq formed.2.1 (by simpa using calls)]
    exact checkArray_eq same formed.1
  | .binary _ left right =>
    simp only [Expr.callees_operands, List.mem_append, or_imp, forall_and] at calls
    rw [Place.checkExpr, checkExpr_eq formed.1.1 calls.1, ok_bind,
      checkExpr_eq formed.1.2 calls.2, ok_bind]
    exact checkArith_eq formed.2.2
  | .compare _ left right | .logic _ left right | .extremum _ left right =>
    simp only [Expr.callees_operands, List.mem_append, or_imp, forall_and] at calls
    rw [Place.checkExpr, checkExpr_eq formed.1.1 calls.1]
    exact checkExpr_eq formed.1.2 calls.2
  | .select cond yes no =>
    simp only [Expr.callees_operands, List.mem_append, or_imp, forall_and] at calls
    rw [Place.checkExpr, checkExpr_eq formed.1.1 calls.1.1, ok_bind,
      checkExpr_eq formed.1.2.1 calls.1.2, ok_bind]
    exact checkExpr_eq formed.1.2.2 calls.2
  | .call callee _ args =>
    obtain ⟨profile, known, gives, passed⟩ := formed
    simp only [Expr.callees_call, List.mem_cons, forall_eq_or_imp] at calls
    rw [Place.checkExpr, if_neg (by simpa using calls.1)]
    exact checkArgs_eq passed calls.2

theorem checkArgs_eq :
    ∀ {args : List (ArgOf Expr)} {kinds : List Kind}, ArgsFormed domain args kinds →
      (∀ callee ∈ Expr.argCallees args, callee ∈ here.declared) → here.checkArgs args = .ok ()
  | [], _, _, _ => rfl
  | .scalar value :: rest, _, ⟨_, _, first, later⟩, calls => by
    simp only [Expr.argCallees_scalar, List.mem_append, or_imp, forall_and] at calls
    rw [Place.checkArgs, checkExpr_eq first calls.1]
    exact checkArgs_eq later calls.2
  | .array _ :: rest, _, ⟨_, _, _, declared, later⟩, calls => by
    rw [Place.checkArgs, checkArray_eq same declared]
    exact checkArgs_eq later (by simpa using calls)

end

theorem checkPackedExpr_eq {expr : Expr} (packs : expr.Packs) (formed : expr.Formed domain) :
    here.checkPackedExpr expr = .ok () := by
  match expr with
  | .const _ => exact rfl
  | .var _ _ => exact checkScalar_eq same formed
  | .index _ _ _ => exact checkArray_eq same formed.1
  | .binary op left right =>
    have packed : op = .add ∨ op = .sub ∨ op = .mul := by
      simpa [Typed.isPackedOp, or_assoc] using packs.1
    rw [Place.checkPackedExpr, checkPackedExpr_eq packs.2.1 formed.1.1, ok_bind,
      checkPackedExpr_eq packs.2.2 formed.1.2, ok_bind, Place.checkPackedArith, if_pos packed]
  | .unary .neg operand =>
    have held : operand.Packs := packs
    rw [Place.checkPackedExpr]
    exact checkPackedExpr_eq held formed.1

theorem checkPackedStmt_eq (packs : stmt.Packs reductions) (formed : stmt.Formed domain place) :
    here.checkPackedStmt reductions stmt = .ok () := by
  match stmt with
  | .store _ _ _ =>
    rw [Place.checkPackedStmt, checkPackedExpr_eq same packs.2 formed.2.2]
    exact checkArray_eq same formed.1.1
  | .assign acc (.binary op left right) =>
    obtain ⟨⟨reduction, member, rfl⟩, known, updates, first, second⟩ := packs
    have listed : reductions.any (·.acc = reduction.acc) = true :=
      List.any_eq_true.2 ⟨reduction, member, by simp⟩
    have packed : op = .add ∨ op = .sub ∨ op = .mul := by
      simpa [Typed.isPackedOp, or_assoc] using known
    have inner : here.checkPackedExpr (if left.var? = some reduction.acc then right else left) =
        .ok () := by
      split
      · exact checkPackedExpr_eq same second formed.2.1.2
      · exact checkPackedExpr_eq same first formed.2.1.1
    rw [Place.checkPackedStmt, listed]
    simp only [Bool.not_true, Bool.false_eq_true, if_false]
    rw [inner, ok_bind, Place.checkPackedArith, if_pos packed]

variable {near : Prop}

theorem generates_reductions
    (declared : ∀ reduction ∈ reductions, domain.Declares reduction.acc (.scalar reduction.type)) :
    Generates near (here.checkReductions reductions) :=
  .forM fun reduction member => .ok (checkScalar_eq same (declared reduction member))

theorem generates_result {value : Option Typed.Result} (formed : Typed.Result.Formed domain value)
    (calls : CallsDeclared here.declared [.giveBack value]) :
    Generates near (here.checkResult value) := by
  match value with
  | none => exact .ok rfl
  | some (.scalar value) =>
    exact .ok (checkExpr_eq same formed.1
      (calls _ (.head _) value (.head _)))
  | some (.array id) =>
    obtain ⟨_, decl, position, found, origin⟩ := formed
    refine .ok ?_
    have declared : here.routine.decl id = decl := by
      rw [Routine.decl, List.getD_eq_getElem?_getD, same, found]
      rfl
    rw [Place.checkResult, declared, origin]

theorem generates_captured (formed : head.Formed domain) :
    Generates near (here.checkCaptured head) := by
  refine (Generates.forM fun id member => ?_).bind ?_
  · obtain ⟨type, declared⟩ := formed.captures id member
    exact .ok (checkScalar_eq same declared)
  refine (Generates.forM fun id member => ?_).bind ?_
  · obtain ⟨element, declared⟩ := formed.arrays id member
    exact .ok (checkArray_eq same declared)
  refine (generates_reductions same fun reduction member => ?_).bind ?_
  · exact formed.accumulator reduction (Option.mem_toList.1 member)
  · exact .ok (checkScalar_eq same formed.counter)

theorem generates_params
    (declared : List.Forall₂ domain.Declares here.routine.params here.routine.argKinds) :
    Generates near here.checkParams := by
  refine .forM fun both member => ?_
  obtain ⟨decl, found, kind⟩ := List.forall₂_zip declared member
  exact .ok (by simp [same, found, kind])

end Checks

section Statements

variable {near : Prop} {domain : Domain}

/-- A place of generation that knows what the place of a statement has. -/
structure Mirrors (near : Prop) (domain : Domain) (place : Passes.Place) (here : Place) : Prop where
  locals : here.routine.locals = domain.locals
  labels : ∀ {label}, label ∈ place.labels → label ∈ here.labels
  looped : place.looped = true → here.inLoop = true
  placed : place.rule.placed
  exits : near → place.rule.nearExits

namespace Mirrors

variable {place : Passes.Place} {here : Place}

theorem inLoop (mirrors : Mirrors near domain place here) : Mirrors near domain place.inLoop here.inside :=
  ⟨mirrors.locals, nofun, fun _ => rfl, mirrors.placed, mirrors.exits⟩

theorem inLowered (mirrors : Mirrors near domain place here) :
    Mirrors near domain place.inLowered here.inside :=
  ⟨mirrors.locals, nofun, fun _ => rfl, mirrors.placed, mirrors.exits⟩

theorem inBlock (mirrors : Mirrors near domain place here) (label : Typed.Label) :
    Mirrors near domain (place.inBlock label) (here.under label) :=
  ⟨mirrors.locals, fun member => (List.mem_cons.1 member).elim (· ▸ List.mem_cons_self)
    (.tail _ <| mirrors.labels ·), mirrors.looped, mirrors.placed,
    mirrors.exits⟩

theorem kernel (same : here.routine.locals = domain.locals) (placed : place.rule.placed)
    (exits : near → place.rule.nearExits) : Mirrors near domain place.kernel here :=
  ⟨same, nofun, nofun, placed, exits⟩

end Mirrors

mutual

/-- Generation refuses a well-formed statement for no other reason than an exit out of a kernel. -/
theorem generates_stmt {place : Passes.Place} {here : Place} {stmt : Stmt}
    (mirrors : Mirrors near domain place here) (formed : stmt.Formed domain place)
    (calls : CallsDeclared here.declared stmt.nodes)
    (kernels : KernelsDeclared here position stmt.nodes) :
    Generates near (Place.checkStmt here position stmt) := by
  have expr {value : Expr} (formed : value.Formed domain) (own : value ∈ stmt.exprs) :
      Generates near (here.checkExpr value) :=
    .ok (checkExpr_eq mirrors.locals formed (calls _ (Stmt.self_mem_nodes _) value own))
  unfold Place.checkStmt
  match stmt with
  | .assign _ value =>
    exact (Generates.ok (checkScalar_eq mirrors.locals formed.1)).bind
      (expr formed.2 (.head _))
  | .store _ index value =>
    refine (expr formed.2.2 (by simp [Stmt.exprs])).bind ?_
    refine (expr formed.2.1.1 (by simp [Stmt.exprs])).bind ?_
    exact .ok (checkArray_eq mirrors.locals formed.1.1)
  | .eval value => exact expr formed (.head _)
  | .branch cond yes no =>
    refine (expr formed.1.1 (.head _)).bind ?_
    exact (generates_block mirrors formed.2.1
      (calls.mono fun _ member => by simp [Stmt.nodes, member]) kernels.tail.left).bind
      (generates_block mirrors formed.2.2
        (calls.mono fun _ member => by simp [Stmt.nodes, member]) kernels.tail.right)
  | .whileLoop cond body _ =>
    refine (expr formed.1.1 (.head _)).bind ?_
    exact generates_block mirrors.inLoop formed.2 (calls.mono fun _ => .tail _) kernels.tail
  | .forLoop head body =>
    refine (expr formed.1.start.1 (by simp [Stmt.exprs])).bind ?_
    refine (expr formed.1.stop.1 (by simp [Stmt.exprs])).bind ?_
    refine (expr formed.1.step.1 (by simp [Stmt.exprs])).bind ?_
    refine (Generates.ok (checkScalar_eq mirrors.locals formed.1.counter)).bind ?_
    exact generates_block mirrors.inLoop formed.2 (calls.mono fun _ => .tail _) kernels.tail
  | .leave =>
    rw [if_pos (mirrors.looped (formed.1 mirrors.placed))]
    exact .ok rfl
  | .skip =>
    rw [if_pos (mirrors.looped (formed mirrors.placed))]
    exact .ok rfl
  | .giveBack value => exact generates_result mirrors.locals formed.1 calls
  | .block label body =>
    have held : BlockFormed domain _ body := formed
    exact generates_block (mirrors.inBlock label) held (calls.mono fun _ => .tail _) kernels.tail
  | .exit label =>
    dsimp only
    by_cases known : label ∈ here.labels
    · rw [if_pos (List.contains_iff_mem.2 known)]
      exact .ok rfl
    · rw [if_neg fun found => known (List.contains_iff_mem.1 found)]
      exact .inr ⟨fun asked => known (mirrors.labels (formed (mirrors.exits asked))), label, rfl⟩
  | .vector head body =>
    have accumulators : Generates near (here.checkReductions head.reductions) :=
      generates_reductions mirrors.locals formed.1.1.accumulators
    refine (expr formed.1.1.start.1 (by simp [Stmt.exprs])).bind ?_
    refine (expr formed.1.1.stop.1 (by simp [Stmt.exprs])).bind ?_
    have rest : Generates near (do
        here.checkReductions head.reductions
        here.checkScalar head.var
        Place.checkBlock here.inside (position + 1) body) :=
      accumulators.bind ((Generates.ok (checkScalar_eq mirrors.locals formed.1.1.counter)).bind
        (generates_block mirrors.inLowered formed.2.2 (calls.mono fun _ => .tail _) kernels.tail))
    split
    · rename_i isPacked
      refine Generates.bind (.forM fun stmt member => .ok ?_) rest
      exact checkPackedStmt_eq mirrors.locals (formed.2.1 isPacked stmt member)
        (Typed.blockFormed_iff.1 formed.2.2 stmt member)
    · refine Generates.bind (generates_reductions mirrors.locals fun reduction member => ?_) rest
      exact formed.1.1.accumulators reduction (List.mem_filter.1 member).1
  | .parallel head chunk =>
    have same := mirrors.locals
    have known : here.hasKernel position = true := kernels 0 head chunk rfl
    dsimp only
    rw [if_neg (by simp [known])]
    refine (expr formed.1.1.start.1 (by simp [Stmt.exprs])).bind ?_
    refine (expr formed.1.1.stop.1 (by simp [Stmt.exprs])).bind ?_
    refine (Generates.ok (checkScalar_eq same formed.1.1.lower)).bind ?_
    refine (Generates.ok (checkScalar_eq same formed.1.1.upper)).bind ?_
    refine (generates_stmt (.kernel same mirrors.placed mirrors.exits) formed.2
      (calls.mono fun _ => .tail _) kernels.tail).bind ?_
    exact generates_captured same formed.1.1

theorem generates_block {place : Passes.Place} {here : Place} {body : List Stmt}
    (mirrors : Mirrors near domain place here) (formed : BlockFormed domain place body)
    (calls : CallsDeclared here.declared (Stmt.blockNodes body))
    (kernels : KernelsDeclared here position (Stmt.blockNodes body)) :
    Generates near (Place.checkBlock here position body) := by
  match body with
  | [] => exact .ok rfl
  | _ :: _ =>
    exact (generates_stmt mirrors formed.1
      (calls.mono fun _ member => by simp [Stmt.blockNodes, member]) kernels.left).bind
      (generates_block mirrors formed.2
        (calls.mono fun _ member => by simp [Stmt.blockNodes, member]) kernels.right)

end

/-- A kernel is checked apart from its routine, where no label and no loop is known. -/
theorem generates_kernel {place : Passes.Place} {here : Place}
    (same : here.routine.locals = domain.locals) (placed : place.rule.placed)
    (exits : near → place.rule.nearExits) {chunk : Stmt}
    (formed : head.Formed domain)
    (chunked : chunk.Formed domain place.kernel) (calls : CallsDeclared here.declared chunk.nodes)
    (kernels : KernelsDeclared here (position + 1) chunk.nodes) :
    Generates near (here.checkKernel position head chunk) := by
  refine (Generates.forM fun id member => ?_).bind ?_
  · obtain ⟨type, declared⟩ := formed.captures id member
    exact .ok (checkScalar_eq same declared)
  refine (Generates.forM fun id member => ?_).bind ?_
  · obtain ⟨element, decl, found, kind⟩ := formed.arrays id member
    exact .ok (by simp [Place.checkKernelArray, same, found, kind, Kind.isArray])
  refine (Generates.ok (checkScalar_eq same formed.lower)).bind ?_
  refine (Generates.ok (checkScalar_eq same formed.upper)).bind ?_
  refine (generates_reductions same fun reduction member => ?_).bind ?_
  · exact formed.accumulator reduction (Option.mem_toList.1 member)
  · exact generates_stmt (.kernel same placed exits) chunked calls kernels

end Statements

section Bodies

variable {profile? : RoutineIndex → Option Typed.Profile} {rules : RoutineIndex → Passes.Rule}
  {near storing : Prop} {body : Body}

theorem callees_lt (formed : BodyFormed profile? rules storing body) (index : RoutineIndex) :
    ∀ callee ∈ body.calleesOf index, callee < body.routines.length := by
  intro callee member
  obtain ⟨expr, within, found⟩ := List.mem_filterMap.1 (List.mem_eraseDups.1 member)
  obtain ⟨node, present, inner⟩ := List.mem_flatMap.1 within
  obtain ⟨whole, own, part⟩ := List.mem_flatMap.1 inner
  obtain ⟨_, _, held⟩ := (formed.routine index).body.nodes _ present
  have held := (held.expr whole own).parts _ part
  split at found
  · cases found
    obtain ⟨profile, known, _⟩ := held
    exact (formed.known known).1
  · cases found

/-- Where the generation of a routine begins. -/
abbrev placeOf (body : Body) (index : RoutineIndex) : Place :=
  ⟨body, body.reachable, body.reachable.flatMap (Code.kernelsOf body), index, body.routine index,
    [], false⟩

theorem kernelsDeclared_placeOf (reached : index ∈ body.reachable) :
    KernelsDeclared (placeOf body index) 0 (Stmt.blockNodes (body.routine index).body) := by
  intro position head chunk found
  rw [Nat.zero_add]
  refine List.any_eq_true.2 ⟨⟨index, position⟩, List.mem_flatMap.2 ⟨index, reached, ?_⟩, by simp⟩
  exact List.mem_filterMap.2 ⟨(.parallel head chunk, position),
    List.mem_zipIdx_iff_getElem?.2 found, rfl⟩

/-- Generation of a well-formed body can only meet exits that leave a kernel. -/
theorem generate_of_formed (formed : BodyFormed profile? rules storing body)
    (placed : ∀ index, (rules index).placed) (exits : ∀ index, near → (rules index).nearExits) :
    Code.generate body = .ok ⟨body⟩ ∨
      ¬ near ∧ ∃ label, Code.generate body = .error (.unknownLabel label) := by
  have declared {index : RoutineIndex} (reached : index ∈ body.reachable) :
      CallsDeclared body.reachable (Stmt.blockNodes (body.routine index).body) :=
    fun node present expr own callee calls =>
      Body.callees_reachable (fun caller _ callee calls =>
        callees_lt formed caller callee (Body.mem_calleesOf.2 calls)) reached
        (Routine.mem_callees present own calls)
  have routines : Generates near (body.reachable.forM fun index =>
      (placeOf body index).checkRoutine) := by
    refine .forM fun index reached => ?_
    have held := formed.routine index
    exact (generates_params rfl held.params).bind
      (generates_block ⟨rfl, id, id, placed index, exits index⟩ held.body (declared reached)
        (kernelsDeclared_placeOf reached))
  have apart : Generates near (body.reachable.forM fun index =>
      (placeOf body index).checkKernels) := by
    refine .forM fun index reached => .forM fun entry listed => ?_
    have found := List.mem_zipIdx_iff_getElem?.1 listed
    have present := List.mem_of_getElem? found
    obtain ⟨around, same, held⟩ := (formed.routine index).body.nodes _ present
    have own : around.rule.placed ∧ (near → around.rule.nearExits) :=
      same ▸ ⟨placed index, exits index⟩
    split
    · rename_i head chunk position
      have inside : chunk.nodes ⊆ Stmt.blockNodes (body.routine index).body :=
        fun _ member =>
          Stmt.blockNodes_within (List.Subset.refl _) _ present (.tail _ member)
      have follow := Stmt.nested_blockNodes _ _ _ found
      exact generates_kernel rfl own.1 own.2 held.1.1 held.2 ((declared reached).mono inside)
        ((kernelsDeclared_placeOf reached).within follow).tail
    · exact .ok rfl
  unfold Code.generate
  dsimp only
  obtain done | ⟨far, label, fails⟩ := routines
  · rw [done]
    obtain done | ⟨far, label, fails⟩ := apart
    · rw [done]
      exact .inl rfl
    · rw [fails]
      exact .inr ⟨far, label, rfl⟩
  · rw [fails]
    exact .inr ⟨far, label, rfl⟩

end Bodies

section Eligible

open Eligibility (analyze)
open Interp (Program)
open Passes (ReturnsOutsideLoops)

/-- A body after one run of the passes for each of the given settings. -/
def rerun (runs : List Settings) (body : Body) : Body :=
  runs.foldl (fun body settings => (Passes.optimize settings body).2) body

theorem formed_rerun {profile? : RoutineIndex → Option Typed.Profile}
    (copying : Copying profile? rules) (mayLower : ∀ index, ¬ (rules index).unlowered)
    (runs : List Settings) :
    ∀ {body : Body}, BodyFormed profile? rules storing body →
      BodyFormed profile? rules storing (rerun runs body) := by
  induction runs with
  | nil => exact id
  | cons settings rest ih =>
    intro body formed
    exact ih ((formed.optimize copying settings).weaken fun index =>
      ⟨id, id, id, mayLower index, id, id⟩)

/-- Eligible functions have code, however often the passes run: no check fails but for an exit that
leaves a kernel, and none does if no called routine returns from inside a loop. -/
theorem generate_of_eligible {source : String} {module : Surface.Module} {candidate : Candidate}
    {kinds : List Kind} {body : Body} (read : Surface.readModule source = .ok module)
    (eligible : (analyze (Program.ofModule module) candidate kinds).verdict = .eligible body)
    (listed : ∃ info, (Program.ofModule module).function? candidate.name = some info ∧
      info.definition = candidate.definition) (runs : List Settings) :
    (∀ fault, Code.generate (rerun runs body) = .error fault → ∃ label, fault = .unknownLabel label) ∧
      (ReturnsOutsideLoops body → Code.generate (rerun runs body) = .ok ⟨rerun runs body⟩) := by
  have placed : Eligibility.JumpsPlaced (Program.ofModule module) :=
    Eligibility.jumpsPlaced_of_readModule read
  have formed := Eligibility.bodyFormed_of_placed eligible listed placed
  obtain done | ⟨far, label, fails⟩ := generate_of_formed
    (formed_rerun Eligibility.copying_runRules (fun _ => id) runs formed) (fun _ => trivial)
    fun _ => id
  · refine ⟨fun fault fails => ?_, fun _ => done⟩
    rw [done] at fails
    cases fails
  · refine ⟨fun fault fault_eq => ⟨label, ?_⟩, fun near => absurd near far⟩
    rw [fails] at fault_eq
    exact (Except.error.inj fault_eq).symm

/-- The code of an update of all elements, one element in a call of its own, with an early return
there; the passes run twice. -/
theorem generate_of_eligible_halve :
    ∃ sample, Eligibility.sample? Passes.halveSource "f" [.array .int] = some sample ∧
      ReturnsOutsideLoops sample.body ∧
      Code.generate (rerun [{}, {}] sample.body) = .ok ⟨rerun [{}, {}] sample.body⟩ := by
  have evaluated : ((Eligibility.sample? Passes.halveSource "f" [.array .int]).any fun sample =>
      decide (ReturnsOutsideLoops sample.body)) = true := by
    decide +kernel
  obtain ⟨sample, found, outside⟩ := (Option.any_eq_true _ _).1 evaluated
  have outside := of_decide_eq_true outside
  obtain ⟨module, read, same⟩ := Eligibility.read_of_sample? found
  obtain ⟨eligible, listed⟩ := Eligibility.eligible_of_sample? found
  rw [same] at eligible listed
  exact ⟨sample, found, outside, (generate_of_eligible read eligible listed [{}, {}]).2 outside⟩

/-- A loop that stops at an element, in a function that is called where loops run in chunks. -/
def clearSource : String :=
  "def clear(a: list[int], x: int):\n    for i in range(len(a)):\n" ++
  "        if a[i] == x:\n            return\n        a[i] = 0\n\n" ++
  "def f(a: list[int], x: int):\n    # #adrenaline:parallel\n    clear(a, x)\n"

/-- The return in the loop becomes an exit of the kernel, whose block is around the kernel. -/
theorem generate_fails_clear :
    ∃ sample, Eligibility.sample? clearSource "f" [.array .int, .scalar .int] = some sample ∧
      Code.generate (rerun [{}] sample.body) = .error (.unknownLabel 0) := by
  have evaluated : ((Eligibility.sample? clearSource "f" [.array .int, .scalar .int]).any
      fun sample => decide ((Code.generate (rerun [{}] sample.body)).map (fun _ => ()) =
        .error (.unknownLabel 0))) = true := by
    decide +kernel
  obtain ⟨sample, found, fails⟩ := (Option.any_eq_true _ _).1 evaluated
  have fails := of_decide_eq_true fails
  refine ⟨sample, found, ?_⟩
  cases outcome : Code.generate (rerun [{}] sample.body) with
  | ok code =>
    rw [outcome] at fails
    cases fails
  | error fault =>
    rw [outcome] at fails
    cases fails
    rfl

end Eligible

end TwoTier.Native
