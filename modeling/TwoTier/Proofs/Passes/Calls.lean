import TwoTier.Passes.Dependence
import TwoTier.Proofs.Nodes

namespace TwoTier
namespace Typed

namespace Expr

def callee? : Expr → Option RoutineIndex
  | call callee _ _ => some callee
  | _ => none

def callees (expr : Expr) : List RoutineIndex := expr.nodes.filterMap callee?

def argCallees (args : List Arg) : List RoutineIndex := (argNodes args).filterMap callee?

section

variable (id : LocalId) (type : NumType) (operand left right : Expr)

@[simp] theorem callees_operand :
    (∀ op, (unary op operand).callees = operand.callees) ∧
    (∀ op, (cast op operand).callees = operand.callees) ∧
    (∀ id type, (index id type operand).callees = operand.callees) ∧
    (abs operand).callees = operand.callees := by
  simp [callees, nodes, callee?, List.filterMap_cons]

@[simp] theorem callees_operands :
    (∀ op, (binary op left right).callees = left.callees ++ right.callees) ∧
    (∀ op, (compare op left right).callees = left.callees ++ right.callees) ∧
    (∀ op, (logic op left right).callees = left.callees ++ right.callees) ∧
    (∀ op, (extremum op left right).callees = left.callees ++ right.callees) ∧
    ∀ cond, (select cond left right).callees = cond.callees ++ left.callees ++ right.callees := by
  simp [callees, nodes, callee?, List.filterMap_cons]

@[simp] theorem callees_call (callee : RoutineIndex) (args : List Arg) :
    (call callee type args).callees = callee :: argCallees args := by
  simp [callees, nodes, callee?, argCallees]

@[simp] theorem argCallees_scalar (rest : List Arg) :
    argCallees (.scalar operand :: rest) = operand.callees ++ argCallees rest := by
  simp [argCallees, argNodes, callees]

@[simp] theorem argCallees_array (rest : List Arg) :
    argCallees (.array id :: rest) = argCallees rest := by simp [argCallees, argNodes]

end

mutual

/-- Whether a call of a routine stands in an expression. -/
def Calls (callee : RoutineIndex) : Expr → Prop
  | const _ | var _ _ | len _ => False
  | unary _ operand | cast _ operand | index _ _ operand | abs operand => operand.Calls callee
  | binary _ left right | compare _ left right | logic _ left right | extremum _ left right =>
    left.Calls callee ∨ right.Calls callee
  | select cond yes no => cond.Calls callee ∨ yes.Calls callee ∨ no.Calls callee
  | call other _ args => other = callee ∨ ArgsCall callee args

def ArgsCall (callee : RoutineIndex) : List (ArgOf Expr) → Prop
  | [] => False
  | .scalar value :: rest => value.Calls callee ∨ ArgsCall callee rest
  | .array _ :: rest => ArgsCall callee rest

end

mutual

theorem mem_callees (expr : Expr) : callee ∈ expr.callees ↔ expr.Calls callee := by
  match expr with
  | const _ | var _ _ | len _ => simp [callees, nodes, callee?, Calls]
  | unary _ operand | cast _ operand | index _ _ operand | abs operand =>
    simp [Calls, mem_callees operand]
  | binary _ left right | compare _ left right | logic _ left right | extremum _ left right =>
    simp [Calls, mem_callees left, mem_callees right]
  | select cond yes no =>
    simp [Calls, mem_callees cond, mem_callees yes, mem_callees no]
  | call other _ args => simp [Calls, mem_argCallees args, eq_comm]

theorem mem_argCallees (args : List (ArgOf Expr)) :
    callee ∈ argCallees args ↔ ArgsCall callee args := by
  match args with
  | [] => simp [argCallees, argNodes, ArgsCall]
  | .scalar value :: rest => simp [ArgsCall, mem_callees value, mem_argCallees rest]
  | .array _ :: rest => simp [ArgsCall, mem_argCallees rest]

end

end Expr

namespace Stmt

mutual

/-- Whether a call of a routine stands in a statement. -/
def Calls (callee : RoutineIndex) : Stmt → Prop
  | assign _ value | eval value | giveBack (some (.scalar value)) => value.Calls callee
  | store _ index value => index.Calls callee ∨ value.Calls callee
  | branch cond yes no => cond.Calls callee ∨ BlockCalls callee yes ∨ BlockCalls callee no
  | whileLoop cond body _ => cond.Calls callee ∨ BlockCalls callee body
  | forLoop head body =>
    head.start.Calls callee ∨ head.stop.Calls callee ∨ head.step.Calls callee ∨
      BlockCalls callee body
  | block _ body => BlockCalls callee body
  | vector head body =>
    head.start.Calls callee ∨ head.stop.Calls callee ∨ BlockCalls callee body
  | parallel head chunk => head.start.Calls callee ∨ head.stop.Calls callee ∨ chunk.Calls callee
  | leave | skip | exit _ | giveBack _ => False

def BlockCalls (callee : RoutineIndex) : List Stmt → Prop
  | [] => False
  | stmt :: rest => stmt.Calls callee ∨ BlockCalls callee rest

end

mutual

theorem calls_iff (stmt : Stmt) :
    stmt.Calls callee ↔ ∃ node ∈ stmt.nodes, ∃ expr ∈ node.exprs, callee ∈ expr.callees := by
  match stmt with
  | assign _ _ | eval _ | store _ _ _ | giveBack (some (.scalar _)) | leave | skip | exit _
  | giveBack none | giveBack (some (.array _)) =>
    simp [Calls, nodes, exprs, Expr.mem_callees]
  | branch _ yes no =>
    simp [Calls, nodes, exprs, Expr.mem_callees, blockCalls_iff yes, blockCalls_iff no,
      or_and_right, exists_or]
  | whileLoop _ body _ | forLoop _ body | block _ body | vector _ body =>
    simp [Calls, nodes, exprs, Expr.mem_callees, blockCalls_iff body, or_assoc]
  | parallel _ chunk => simp [Calls, nodes, exprs, Expr.mem_callees, calls_iff chunk, or_assoc]

theorem blockCalls_iff (body : List Stmt) :
    BlockCalls callee body ↔
      ∃ node ∈ blockNodes body, ∃ expr ∈ node.exprs, callee ∈ expr.callees := by
  match body with
  | [] => simp [BlockCalls, blockNodes]
  | stmt :: rest =>
    simp [BlockCalls, blockNodes, calls_iff stmt, blockCalls_iff rest, or_and_right, exists_or]

end

end Stmt

theorem Routine.mem_callees {routine : Routine} {node : Stmt} {expr : Expr}
    (present : node ∈ Stmt.blockNodes routine.body) (own : expr ∈ node.exprs)
    (calls : callee ∈ expr.callees) : callee ∈ routine.callees := by
  obtain ⟨inner, within, found⟩ := List.mem_filterMap.1 calls
  refine List.mem_eraseDups.2 (List.mem_filterMap.2 ⟨inner, ?_, found⟩)
  exact List.mem_flatMap.2 ⟨node, present, List.mem_flatMap.2 ⟨expr, own, within⟩⟩

/-- The callees of a routine are those of the calls that stand in its body. -/
theorem Routine.mem_callees_iff {routine : Routine} :
    callee ∈ routine.callees ↔ Stmt.BlockCalls callee routine.body := by
  rw [Stmt.blockCalls_iff]
  constructor
  · intro member
    obtain ⟨inner, among, found⟩ := List.mem_filterMap.1 (List.mem_eraseDups.1 member)
    obtain ⟨node, present, inside⟩ := List.mem_flatMap.1 among
    obtain ⟨expr, own, within⟩ := List.mem_flatMap.1 inside
    exact ⟨node, present, expr, own, List.mem_filterMap.2 ⟨inner, within, found⟩⟩
  · rintro ⟨node, present, expr, own, calls⟩
    exact mem_callees present own calls

namespace Stmt

def isBreak : Stmt → Bool
  | leave => true
  | _ => false

def isReturn : Stmt → Bool
  | giveBack _ => true
  | _ => false

def isExit : Stmt → Bool
  | exit _ => true
  | _ => false

/-- What a lowered loop repeats: the body of a vector loop, or the kernel of a parallel one. -/
def lowered? : Stmt → Option (List Stmt)
  | vector _ body => some body
  | parallel _ chunk => some [chunk]
  | _ => none

end Stmt

/-- Whether a routine returns from inside a loop. -/
def Routine.returnsInLoop (routine : Routine) : Bool :=
  (Stmt.blockNodes routine.body).any fun node => Passes.isLoop node && node.nodes.any Stmt.isReturn

end Typed

namespace Passes

open Typed (Body Stmt)

/-- Whether no routine that a body calls returns from inside a loop. -/
def ReturnsOutsideLoops (body : Body) : Prop :=
  ∀ caller ∈ body.routines, ∀ callee ∈ caller.callees, (body.routine callee).returnsInLoop = false

instance (body : Body) : Decidable (ReturnsOutsideLoops body) :=
  inferInstanceAs (Decidable (∀ caller ∈ body.routines, ∀ callee ∈ caller.callees,
    (body.routine callee).returnsInLoop = false))

/-- Whether no routine of a body stores into an array. -/
def StoresNothing (body : Body) : Prop :=
  ∀ routine ∈ body.routines, Stmt.storedArrays routine.body = []

end Passes
end TwoTier
