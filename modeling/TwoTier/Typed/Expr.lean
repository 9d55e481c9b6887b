import TwoTier.Typed.Reduction

/-! Typed expressions. Operands already have the types that their operator needs. -/

namespace TwoTier.Typed

abbrev LocalId := Nat

abbrev RoutineIndex := Nat

/-- Names a block that an exit leaves. -/
abbrev Label := Nat

inductive UnaryOp where
  | neg
  /-- every bit of an integer flipped -/
  | invert
  | not
deriving DecidableEq, Repr

inductive Comparison where
  | eq | ne | lt | le | gt | ge
deriving DecidableEq, Repr

namespace Comparison

/-- The comparison that holds when the operands change places. -/
def swapped : Comparison → Comparison
  | lt => gt
  | le => ge
  | gt => lt
  | ge => le
  | eq => eq
  | ne => ne

/-- Whether operands in this order satisfy the comparison; unordered operands are only unequal. -/
def holds : Comparison → Option Ordering → Bool
  | ne, none => true
  | _, none => false
  | eq, some order => order.isEq
  | ne, some order => order.isNe
  | lt, some order => order.isLT
  | le, some order => order.isLE
  | gt, some order => order.isGT
  | ge, some order => order.isGE

end Comparison

/-- Operators that give one of their operands and may leave out the right one. -/
inductive LogicOp where
  | and | or
deriving DecidableEq, Repr

/-- Whether a left operand of this truth is the result. -/
def LogicOp.keepsLeft (op : LogicOp) (truth : Bool) : Bool :=
  match op with
  | .and => !truth
  | .or => truth

inductive CastOp where
  /-- rounds -/
  | intToFloat
  /-- has no value beyond the exact range -/
  | intToFloatExact
  /-- drops the fraction; has no value for NaN or out of range -/
  | floatToInt
  | boolToInt
  | boolToFloat
  | toBool
deriving DecidableEq, Repr

def CastOp.type : CastOp → NumType
  | intToFloat | intToFloatExact | boolToFloat => .float
  | floatToInt | boolToInt => .int
  | toBool => .bool

inductive Extremum where
  | min | max
deriving DecidableEq, Repr

/-- An argument of a call: the value of an expression, or an array by reference. -/
inductive ArgOf (expr : Type) where
  | scalar (value : expr)
  | array (id : LocalId)

inductive Expr where
  | const (value : Scalar)
  | var (id : LocalId) (type : NumType)
  | unary (op : UnaryOp) (operand : Expr)
  | binary (op : ArithOp) (left right : Expr)
  | compare (op : Comparison) (left right : Expr)
  | logic (op : LogicOp) (left right : Expr)
  | select (cond yes no : Expr)
  | cast (op : CastOp) (operand : Expr)
  | index (array : LocalId) (element : NumType) (position : Expr)
  | len (array : LocalId)
  | call (callee : RoutineIndex) (result : NumType) (args : List (ArgOf Expr))
  | abs (operand : Expr)
  | extremum (op : Extremum) (left right : Expr)

abbrev Arg := ArgOf Expr

namespace Expr

instance : Inhabited Expr := ⟨.const (.int 0)⟩

def int (value : Int64) : Expr := .const (.int value)

def type : Expr → NumType
  | const value => value.type
  | var _ type => type
  | unary .not _ => .bool
  | unary _ operand => operand.type
  | binary _ left _ => left.type
  | compare _ _ _ => .bool
  | logic _ left _ => left.type
  | select _ yes _ => yes.type
  | cast op _ => op.type
  | index _ element _ => element
  | len _ => .int
  | call _ result _ => result
  | abs operand => operand.type
  | extremum _ left _ => left.type

def var? : Expr → Option LocalId
  | var id _ => some id
  | _ => none

mutual

/-- An expression and the expressions in it, outermost first and from left to right. -/
def nodes (expr : Expr) : List Expr :=
  match expr with
  | .const _ => [expr]
  | .var _ _ => [expr]
  | .len _ => [expr]
  | .unary _ operand => expr :: nodes operand
  | .cast _ operand => expr :: nodes operand
  | .index _ _ position => expr :: nodes position
  | .abs operand => expr :: nodes operand
  | .binary _ left right => expr :: (nodes left ++ nodes right)
  | .compare _ left right => expr :: (nodes left ++ nodes right)
  | .logic _ left right => expr :: (nodes left ++ nodes right)
  | .extremum _ left right => expr :: (nodes left ++ nodes right)
  | .select cond yes no => expr :: (nodes cond ++ nodes yes ++ nodes no)
  | .call _ _ args => expr :: argNodes args

def argNodes (args : List (ArgOf Expr)) : List Expr :=
  match args with
  | [] => []
  | .scalar value :: rest => nodes value ++ argNodes rest
  | .array _ :: rest => argNodes rest

end

mutual

def mapLocals (rename : LocalId → LocalId) (expr : Expr) : Expr :=
  match expr with
  | .const value => .const value
  | .var id type => .var (rename id) type
  | .len array => .len (rename array)
  | .unary op operand => .unary op (mapLocals rename operand)
  | .cast op operand => .cast op (mapLocals rename operand)
  | .index array element position => .index (rename array) element (mapLocals rename position)
  | .abs operand => .abs (mapLocals rename operand)
  | .binary op left right => .binary op (mapLocals rename left) (mapLocals rename right)
  | .compare op left right => .compare op (mapLocals rename left) (mapLocals rename right)
  | .logic op left right => .logic op (mapLocals rename left) (mapLocals rename right)
  | .extremum op left right => .extremum op (mapLocals rename left) (mapLocals rename right)
  | .select cond yes no =>
    .select (mapLocals rename cond) (mapLocals rename yes) (mapLocals rename no)
  | .call callee result args => .call callee result (mapArgLocals rename args)

def mapArgLocals (rename : LocalId → LocalId) (args : List (ArgOf Expr)) : List (ArgOf Expr) :=
  match args with
  | [] => []
  | .scalar value :: rest => .scalar (mapLocals rename value) :: mapArgLocals rename rest
  | .array id :: rest => .array (rename id) :: mapArgLocals rename rest

end

def nodeCount (expr : Expr) : Nat := expr.nodes.length

def ownLocals : Expr → List LocalId
  | var id _ | index id _ _ | len id => [id]
  | call _ _ args => args.filterMap fun
    | .array id => some id
    | .scalar _ => none
  | _ => []

def readLocals (expr : Expr) : List LocalId := expr.nodes.flatMap ownLocals

def readsLocal (expr : Expr) (id : LocalId) : Bool := expr.readLocals.contains id

def isCall : Expr → Bool
  | call _ _ _ => true
  | _ => false

def containsCall (expr : Expr) : Bool := expr.nodes.any isCall

def truth (expr : Expr) : Expr := if expr.type = .bool then expr else .cast .toBool expr

/-- The operand of float arithmetic that an expression makes. -/
def promoted (expr : Expr) : Expr := if expr.type = .int then .cast .intToFloat expr else expr

end Expr
end TwoTier.Typed
