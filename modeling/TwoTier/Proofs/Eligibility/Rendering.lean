import TwoTier.Proofs.Nodes
import TwoTier.Proofs.Eligibility.Growth

namespace TwoTier.Eligibility

open Interp (Program)

open Surface (BinOp BoolOp CmpOp UnaryOp)

open Subject (arithOp? comparison? convert)

open Typed (Arg Expr LocalDecl LocalId LogicOp RoutineIndex Stmt)

structure Signature where
  name : String
  kinds : List Kind
  result : ReturnKind

/-- What is fixed once a function has been typed. -/
structure Layout where
  program : Program
  localNames : List String
  ids : Table LocalId
  locals : List LocalDecl
  result : ReturnKind
  purity : Typed.Purity
  signature? : RoutineIndex → Option Signature

namespace Layout

variable (layout : Layout)

def scope : Scope := { localNames := layout.localNames, ids := layout.ids, locals := layout.locals }

def HasScalar (name : String) (id : LocalId) (type : NumType) : Prop :=
  layout.ids.get? name = some id ∧
    ∃ decl, layout.locals[id]? = some decl ∧ decl.kind = .scalar type

inductive HasArray : Surface.Expr → LocalId → NumType → Prop where
  | name {span : Span} {name : String} {id : LocalId} {element : NumType} {decl : LocalDecl}
      (named : layout.ids.get? name = some id) (declared : layout.locals[id]? = some decl)
      (array : decl.kind = .array element) : HasArray (.name span name) id element

def HasTemp (id : LocalId) (type : NumType) : Prop :=
  ∃ decl, layout.locals[id]? = some decl ∧ decl.kind = .scalar type ∧ decl.origin = .temp

/-- A name that the program does not define and that means an operation of compiled code. -/
def IsBuiltin (name : String) : Prop :=
  name ∉ layout.localNames ∧ layout.program.function? name = none

end Layout

/-- The typed code of an operator on two typed operands. -/
inductive Operation (left right : Expr) : BinOp → Expr → Prop where
  | ints {op : BinOp} {typed : ArithOp} (named : arithOp? op = some typed) (whole : typed ≠ .div)
      (leftInt : left.type = .int) (rightInt : right.type = .int)
      (exponent : typed = .pow → ∃ value : Int64, right = .const (.int value) ∧ 0 ≤ value) :
      Operation left right op (.binary typed left right)
  | quotient (leftInt : left.type = .int) (rightInt : right.type = .int) :
      Operation left right .div
        (.binary .div (.cast .intToFloatExact left) (.cast .intToFloatExact right))
  | inverse {exponent : Int64} (leftInt : left.type = .int)
      (literal : right = .const (.int exponent)) (negative : exponent < 0) :
      Operation left right .pow
        (.binary .pow (.cast .intToFloat left) (.cast .intToFloat right))
  | floats {op : BinOp} {typed : ArithOp} (named : arithOp? op = some typed)
      (numbers : left.type ≠ .bool ∧ right.type ≠ .bool)
      (float : ¬ (left.type = .int ∧ right.type = .int))
      (real : typed ≠ .bitAnd ∧ typed ≠ .bitOr ∧ typed ≠ .bitXor ∧ typed ≠ .shl ∧ typed ≠ .shr) :
      Operation left right op (.binary typed left.promoted right.promoted)

inductive Inversion (operand : Expr) : UnaryOp → Expr → Prop where
  | not : Inversion operand .not (.unary .not operand.truth)
  | pos (number : operand.type ≠ .bool) : Inversion operand .pos operand
  | neg (number : operand.type ≠ .bool) : Inversion operand .neg (.unary .neg operand)
  | invert (int : operand.type = .int) : Inversion operand .invert (.unary .invert operand)

inductive Test (left right : Expr) (op : CmpOp) : Expr → Prop where
  | same {typed : Typed.Comparison} (named : comparison? op = some typed)
      (same : left.type = right.type) : Test left right op (.compare typed left right)
  | intFloat {typed : Typed.Comparison} (named : comparison? op = some typed)
      (leftInt : left.type = .int) (rightFloat : right.type = .float) :
      Test left right op (.compare typed (.cast .intToFloatExact left) right)
  | floatInt {typed : Typed.Comparison} (named : comparison? op = some typed)
      (leftFloat : left.type = .float) (rightInt : right.type = .int) :
      Test left right op (.compare typed left (.cast .intToFloatExact right))

def logicOp : BoolOp → LogicOp
  | .and => .and
  | .or => .or

/-- A comparison after the comparisons of a chain before it. -/
def joined (before : Option Expr) (test : Expr) : Expr :=
  match before with
  | some chain => .logic .and chain test
  | none => test

mutual

/-- The typed code of an expression where some locals have values. -/
inductive Renders (layout : Layout) (assigned : List LocalId) : Surface.Expr → Expr → Prop where
  | int {span : Span} {value : Int64} : Renders layout assigned (.int span value) (.const (.int value))
  | float {span : Span} {value : Float} :
      Renders layout assigned (.float span value) (.const (.float value))
  | bool {span : Span} {value : Bool} :
      Renders layout assigned (.bool span value) (.const (.bool value))
  | var {span : Span} {name : String} {id : LocalId} {type : NumType}
      (isLocal : name ∈ layout.localNames) (scalar : layout.HasScalar name id type)
      (hasValue : id ∈ assigned) : Renders layout assigned (.name span name) (.var id type)
  | constant {span : Span} {name : String} {value : Scalar} (isGlobal : name ∉ layout.localNames)
      (found : layout.program.constant? name = some value) :
      Renders layout assigned (.name span name) (.const value)
  | binary {span : Span} {op : BinOp} {left right : Surface.Expr} {x y typed : Expr}
      (first : Renders layout assigned left x) (second : Renders layout assigned right y)
      (operation : Operation x y op typed) :
      Renders layout assigned (.binary span op left right) typed
  | unary {span : Span} {op : UnaryOp} {operand : Surface.Expr} {x typed : Expr}
      (inner : Renders layout assigned operand x) (inversion : Inversion x op typed) :
      Renders layout assigned (.unary span op operand) typed
  | logic {span : Span} {op : BoolOp} {left right : Surface.Expr} {x y : Expr}
      (first : Renders layout assigned left x) (second : Renders layout assigned right y)
      (same : x.type = y.type) :
      Renders layout assigned (.boolOp span op left right) (.logic (logicOp op) x y)
  | compare {span : Span} {left : Surface.Expr} {rest : List (CmpOp × Surface.Expr)}
      {x typed : Expr} (first : Renders layout assigned left x)
      (chain : RendersChain layout assigned x none rest typed) :
      Renders layout assigned (.compare span left rest) typed
  | call {span place : Span} {name : String} {args : List Surface.Expr} {values : List Arg}
      {callee : RoutineIndex} {kinds : List Kind} {type : NumType}
      (isGlobal : name ∉ layout.localNames)
      (defined : (layout.program.function? name).isSome)
      (inner : RendersArgs layout assigned args kinds values)
      (known : layout.signature? callee = some ⟨name, kinds, .scalar type⟩) :
      Renders layout assigned (.call span (.name place name) args []) (.call callee type values)
  | len {span place : Span} {arg : Surface.Expr} {id : LocalId} {element : NumType}
      (builtin : layout.IsBuiltin "len") (array : layout.HasArray arg id element) :
      Renders layout assigned (.call span (.name place "len") [arg] []) (.len id)
  | abs {span place : Span} {arg : Surface.Expr} {x : Expr} (builtin : layout.IsBuiltin "abs")
      (inner : Renders layout assigned arg x) (number : x.type ≠ .bool) :
      Renders layout assigned (.call span (.name place "abs") [arg] []) (.abs x)
  | min {span place : Span} {left right : Surface.Expr} {x y : Expr}
      (builtin : layout.IsBuiltin "min") (first : Renders layout assigned left x)
      (second : Renders layout assigned right y) (same : x.type = y.type)
      (number : x.type ≠ .bool) :
      Renders layout assigned (.call span (.name place "min") [left, right] [])
        (.extremum .min x y)
  | max {span place : Span} {left right : Surface.Expr} {x y : Expr}
      (builtin : layout.IsBuiltin "max") (first : Renders layout assigned left x)
      (second : Renders layout assigned right y) (same : x.type = y.type)
      (number : x.type ≠ .bool) :
      Renders layout assigned (.call span (.name place "max") [left, right] [])
        (.extremum .max x y)
  | convert {span place : Span} {name : String} {arg : Surface.Expr} {x : Expr}
      (conversion : name = "int" ∨ name = "float") (builtin : layout.IsBuiltin name)
      (inner : Renders layout assigned arg x) :
      Renders layout assigned (.call span (.name place name) [arg] []) (convert name x)
  | subscript {span : Span} {value index : Surface.Expr} {id : LocalId} {element : NumType}
      {position : Expr} (array : layout.HasArray value id element)
      (inner : Renders layout assigned index position) (int : position.type = .int) :
      Renders layout assigned (.subscript span value index) (.index id element position)
  | conditional {span : Span} {cond yes no : Surface.Expr} {test x y : Expr}
      (condition : Renders layout assigned cond test) (first : Renders layout assigned yes x)
      (second : Renders layout assigned no y) (same : x.type = y.type) :
      Renders layout assigned (.conditional span cond yes no) (.select test.truth x y)

/-- The typed code of the rest of a chain of comparisons. A middle operand calls nothing, as it is
evaluated twice. -/
inductive RendersChain (layout : Layout) (assigned : List LocalId) :
    Expr → Option Expr → List (CmpOp × Surface.Expr) → Expr → Prop where
  | done {left chain : Expr} : RendersChain layout assigned left (some chain) [] chain
  | more {left right test typed : Expr} {before : Option Expr} {op : CmpOp}
      {written : Surface.Expr} {rest : List (CmpOp × Surface.Expr)}
      (next : Renders layout assigned written right)
      (simple : rest = [] ∨ right.containsCall = false) (compares : Test left right op test)
      (others : RendersChain layout assigned right (some (joined before test)) rest typed) :
      RendersChain layout assigned left before ((op, written) :: rest) typed

inductive RendersArgs (layout : Layout) (assigned : List LocalId) :
    List Surface.Expr → List Kind → List Arg → Prop where
  | nil : RendersArgs layout assigned [] [] []
  | scalar {arg : Surface.Expr} {x : Expr} {args : List Surface.Expr} {kinds : List Kind}
      {values : List Arg} (first : Renders layout assigned arg x)
      (others : RendersArgs layout assigned args kinds values) :
      RendersArgs layout assigned (arg :: args) (.scalar x.type :: kinds) (.scalar x :: values)
  | array {arg : Surface.Expr} {id : LocalId} {element : NumType} {args : List Surface.Expr}
      {kinds : List Kind} {values : List Arg} (first : layout.HasArray arg id element)
      (others : RendersArgs layout assigned args kinds values) :
      RendersArgs layout assigned (arg :: args) (.array element :: kinds) (.array id :: values)

end

/-- The typed code of an expression statement, which may call for nothing. -/
inductive RendersEffect (layout : Layout) (assigned : List LocalId) :
    Surface.Expr → Expr → Prop where
  | value {expr : Surface.Expr} {typed : Expr} (inner : Renders layout assigned expr typed) :
      RendersEffect layout assigned expr typed
  | call {span place : Span} {name : String} {args : List Surface.Expr} {values : List Arg}
      {callee : RoutineIndex} {kinds : List Kind} (isGlobal : name ∉ layout.localNames)
      (defined : (layout.program.function? name).isSome)
      (inner : RendersArgs layout assigned args kinds values)
      (known : layout.signature? callee = some ⟨name, kinds, .nothing⟩) :
      RendersEffect layout assigned (.call span (.name place name) args [])
        (.call callee .int values)

/-- The typed code that stores a typed value into a target, and the locals with values after it. -/
inductive Stores (layout : Layout) (assigned : List LocalId) (value : Expr) :
    Surface.Expr → List Stmt → List LocalId → Prop where
  | name {span : Span} {name : String} {id : LocalId}
      (scalar : layout.HasScalar name id value.type) :
      Stores layout assigned value (.name span name) [.assign id value] (id :: assigned)
  | element {span : Span} {base index : Surface.Expr} {id : LocalId} {position : Expr}
      (array : layout.HasArray base id value.type) (noted : layout.purity = .mutatesContainer)
      (inner : Renders layout assigned index position) (int : position.type = .int) :
      Stores layout assigned value (.subscript span base index) [.store id position value] assigned

/-- The typed code that stores temporaries into targets, from left to right. -/
inductive StoresAll (layout : Layout) :
    List LocalId → List Surface.Expr → List (LocalId × NumType) → List Stmt → List LocalId →
      Prop where
  | nil {assigned : List LocalId} : StoresAll layout assigned [] [] [] assigned
  | cons {assigned between after : List LocalId} {target : Surface.Expr}
      {targets : List Surface.Expr} {id : LocalId} {type : NumType}
      {temps : List (LocalId × NumType)} {first others : List Stmt}
      (stores : Stores layout assigned (.var id type) target first between)
      (rest : StoresAll layout between targets temps others after) :
      StoresAll layout assigned (target :: targets) ((id, type) :: temps) (first ++ others) after

/-- The typed code that evaluates expressions into temporaries, each of them new. -/
inductive Spills (layout : Layout) :
    List LocalId → List Surface.Expr → List (LocalId × NumType) → List Stmt → List LocalId →
      Prop where
  | nil {assigned : List LocalId} : Spills layout assigned [] [] [] assigned
  | cons {assigned after : List LocalId} {expr : Surface.Expr} {exprs : List Surface.Expr}
      {id : LocalId} {x : Expr} {temps : List (LocalId × NumType)} {others : List Stmt}
      (inner : Renders layout assigned expr x) (temp : layout.HasTemp id x.type)
      (fresh : ∀ later ∈ temps, later.1 ≠ id)
      (rest : Spills layout (id :: assigned) exprs temps others after) :
      Spills layout assigned (expr :: exprs) ((id, x.type) :: temps) (.assign id x :: others) after

inductive RendersAssign (layout : Layout) (assigned : List LocalId) :
    List Surface.Expr → Surface.Expr → List Stmt → List LocalId → Prop where
  | single {target value : Surface.Expr} {x : Expr} {stmts : List Stmt} {after : List LocalId}
      (inner : Renders layout assigned value x)
      (stores : Stores layout assigned x target stmts after) :
      RendersAssign layout assigned [target] value stmts after
  | chain {targets : List Surface.Expr} {value : Surface.Expr} {x : Expr} {id : LocalId}
      {stmts : List Stmt} {after : List LocalId} (inner : Renders layout assigned value x)
      (temp : layout.HasTemp id x.type)
      (stores : StoresAll layout (id :: assigned) targets
        (List.replicate targets.length (id, x.type)) stmts after) :
      RendersAssign layout assigned targets value (.assign id x :: stmts) after
  | unpack {target : Surface.Expr} {span : Span} {targets values : List Surface.Expr}
      {temps : List (LocalId × NumType)} {spills stores : List Stmt}
      {between after : List LocalId}
      (display : ∃ place, target = .tuple place targets ∨ target = .list place targets)
      (spilled : Spills layout assigned values temps spills between)
      (stored : StoresAll layout between targets temps stores after) :
      RendersAssign layout assigned [target] (.tuple span values) (spills ++ stores) after

/-- The typed code of an update. The index of an element is evaluated once. -/
inductive RendersUpdate (layout : Layout) (assigned : List LocalId) :
    Surface.Expr → BinOp → Surface.Expr → List Stmt → List LocalId → Prop where
  | name {span : Span} {name : String} {op : BinOp} {value : Surface.Expr}
      {current operand updated : Expr} {stmts : List Stmt} {after : List LocalId}
      (reads : Renders layout assigned (.name span name) current)
      (inner : Renders layout assigned value operand)
      (operation : Operation current operand op updated)
      (stores : Stores layout assigned updated (.name span name) stmts after) :
      RendersUpdate layout assigned (.name span name) op value stmts after
  | element {span : Span} {base index : Surface.Expr} {op : BinOp} {value : Surface.Expr}
      {array id : LocalId} {position operand updated : Expr}
      (known : layout.HasArray base array updated.type)
      (noted : layout.purity = .mutatesContainer)
      (place : Renders layout assigned index position) (int : position.type = .int)
      (temp : layout.HasTemp id .int) (inner : Renders layout (id :: assigned) value operand)
      (operation : Operation (.index array updated.type (.var id .int)) operand op updated) :
      RendersUpdate layout assigned (.subscript span base index) op value
        [.assign id position, .store array (.var id .int) updated] (id :: assigned)

inductive RendersReturn (layout : Layout) (assigned : List LocalId) :
    Option Surface.Expr → Option Typed.Result → Prop where
  | nothing (agrees : layout.result = .nothing) : RendersReturn layout assigned none none
  | none {span : Span} (agrees : layout.result = .nothing) :
      RendersReturn layout assigned (some (.none span)) Option.none
  | array {expr : Surface.Expr} {id : LocalId} {element : NumType}
      (array : layout.HasArray expr id element) (agrees : layout.result = .array element) :
      RendersReturn layout assigned (some expr) (some (.array id))
  | scalar {expr : Surface.Expr} {x : Expr} (inner : Renders layout assigned expr x)
      (agrees : layout.result = .scalar x.type) :
      RendersReturn layout assigned (some expr) (some (.scalar x))

/-- The typed code of the bounds of a range: its start, its stop and its step. -/
inductive RendersRange (layout : Layout) (assigned : List LocalId) :
    List Surface.Expr → Expr → Expr → Expr → Prop where
  | stop {last : Surface.Expr} {stop : Expr} (third : Renders layout assigned last stop)
      (stopInt : stop.type = .int) : RendersRange layout assigned [last] (.int 0) stop (.int 1)
  | bounds {first last : Surface.Expr} {start stop : Expr}
      (begins : Renders layout assigned first start) (startInt : start.type = .int)
      (ends : Renders layout assigned last stop) (stopInt : stop.type = .int) :
      RendersRange layout assigned [first, last] start stop (.int 1)
  | strided {first last stride : Surface.Expr} {start stop step : Expr}
      (begins : Renders layout assigned first start) (startInt : start.type = .int)
      (ends : Renders layout assigned last stop) (stopInt : stop.type = .int)
      (moves : Renders layout assigned stride step) (stepInt : step.type = .int) :
      RendersRange layout assigned [first, last, stride] start stop step

mutual

/-- The typed code of a statement that is reached, and the locals known before and after it. -/
inductive Writes (layout : Layout) : Definite → Surface.Stmt → List Stmt → Definite → Prop where
  | pass {known : Definite} {span : Span} : Writes layout known (.pass span) [] known
  | expr {known : Definite} {span : Span} {value : Surface.Expr} {x : Expr}
      (inner : RendersEffect layout known.assigned value x) :
      Writes layout known (.expr span value) [.eval x] known
  | assign {known : Definite} {span : Span} {targets : List Surface.Expr} {value : Surface.Expr}
      {stmts : List Stmt} {after : List LocalId}
      (inner : RendersAssign layout known.assigned targets value stmts after) :
      Writes layout known (.assign span targets value) stmts ⟨after, false⟩
  | update {known : Definite} {span : Span} {target : Surface.Expr} {op : BinOp}
      {value : Surface.Expr} {stmts : List Stmt} {after : List LocalId}
      (inner : RendersUpdate layout known.assigned target op value stmts after) :
      Writes layout known (.update span target op value) stmts ⟨after, false⟩
  | giveBack {known : Definite} {span : Span} {value : Option Surface.Expr}
      {result : Option Typed.Result} (inner : RendersReturn layout known.assigned value result) :
      Writes layout known (.giveBack span value) [.giveBack result] known.kill
  | branch {known afterYes afterNo : Definite} {span : Span} {cond : Surface.Expr} {x : Expr}
      {yes no : List Surface.Stmt} {typedYes typedNo : List Stmt}
      (condition : Renders layout known.assigned cond x)
      (whenYes : WritesBlock layout known yes typedYes afterYes)
      (whenNo : WritesBlock layout known no typedNo afterNo) :
      Writes layout known (.branch span cond yes no) [.branch x.truth typedYes typedNo]
        (afterYes.join afterNo)
  | whileLoop {known inside after : Definite} {span : Span} {cond : Surface.Expr} {x : Expr}
      {body : List Surface.Stmt} {typed : List Stmt}
      (condition : Renders layout known.assigned cond x)
      (repeats : WritesBlock layout known body typed inside) (kept : after.assigned = known.assigned)
      (endless : after.dead = true → x.truth = .const (.bool true) ∧ anyLeavesLoop body = false) :
      Writes layout known (.whileLoop span cond body) [.whileLoop x.truth typed span] after
  | forRange {known inside : Definite} {span place origin spot : Span} {name : String}
      {bounds : List Surface.Expr} {start stop step : Expr} {id : LocalId}
      {body : List Surface.Stmt} {typed : List Stmt} (isGlobal : "range" ∉ layout.localNames)
      (range : RendersRange layout known.assigned bounds start stop step)
      (scalar : layout.HasScalar name id .int)
      (repeats : WritesBlock layout ⟨id :: known.assigned, false⟩ body typed inside) :
      Writes layout known
        (.forLoop span (.name place name) (.call origin (.name spot "range") bounds []) body)
        [.forLoop ⟨id, start, stop, step, .range, false, span⟩ typed] known
  | forArray {known inside : Definite} {span place : Span} {name : String} {iter : Surface.Expr}
      {array counter id : LocalId} {element : NumType} {body : List Surface.Stmt}
      {typed : List Stmt} (listed : layout.HasArray iter array element)
      (temp : layout.HasTemp counter .int) (scalar : layout.HasScalar name id element)
      (repeats : WritesBlock layout ⟨id :: counter :: known.assigned, false⟩ body typed inside) :
      Writes layout known (.forLoop span (.name place name) iter body)
        [.forLoop ⟨counter, .int 0, .len array, .int 1, .range, false, span⟩
          (.assign id (.index array element (.var counter .int)) :: typed)] known
  | leave {known : Definite} {span : Span} : Writes layout known (.leave span) [.leave] known.kill
  | skip {known : Definite} {span : Span} : Writes layout known (.skip span) [.skip] known.kill

/-- The typed code of a block up to the first statement that no path reaches. -/
inductive WritesBlock (layout : Layout) :
    Definite → List Surface.Stmt → List Stmt → Definite → Prop where
  | nil {known : Definite} : WritesBlock layout known [] [] known
  | dead {known : Definite} {body : List Surface.Stmt} (unreachable : known.dead = true) :
      WritesBlock layout known body [] known
  | cons {known between after : Definite} {stmt : Surface.Stmt} {rest : List Surface.Stmt}
      {first others : List Stmt} (reachable : known.dead = false)
      (writes : Writes layout known stmt first between)
      (follows : WritesBlock layout between rest others after) :
      WritesBlock layout known (stmt :: rest) (first ++ others) after

end

/-- A routine as the rendering of a function for arguments of certain kinds. -/
structure Rendition (layout : Layout) (definition : Surface.FunctionDef) (kinds : List Kind)
    (routine : Typed.Routine) : Prop where
  localNames : layout.localNames =
    Surface.assignedNames definition.body ++ definition.paramNames
  locals : layout.locals = routine.locals
  result : layout.result = routine.result
  purity : layout.purity = routine.purity
  sound : layout.scope.Sound
  params : routine.params = List.range kinds.length
  param : ∀ {position : Nat} {name : String} {kind : Kind},
    (definition.paramNames.zip kinds)[position]? = some (name, kind) →
      layout.locals[position]? = some ⟨name, kind, .param position⟩
  body : ∃ after, WritesBlock layout ⟨(List.range kinds.length).reverse, false⟩ definition.body
    routine.body after ∧ (after.dead = false → layout.result = .nothing)

end TwoTier.Eligibility
