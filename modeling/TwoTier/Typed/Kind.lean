import TwoTier.Number.Binary64

namespace TwoTier

inductive NumType where
  | int
  | float
  | bool
deriving DecidableEq, Repr, Inhabited

def NumType.name : NumType → String
  | int => "int"
  | float => "float"
  | bool => "bool"

/-- A machine scalar: a literal of compiled code and also a value at run time. -/
inductive Scalar where
  | int (value : Int64)
  | float (value : Float)
  | bool (value : Bool)
deriving Inhabited

namespace Scalar

def type : Scalar → NumType
  | int _ => .int
  | float _ => .float
  | bool _ => .bool

/-- The pattern a scalar has in an untyped slot. -/
def bits : Scalar → UInt64
  | int value => value.toUInt64
  | float value => value.toBits
  | bool value => if value then 1 else 0

def ofBits (type : NumType) (pattern : UInt64) : Scalar :=
  match type with
  | .int => .int pattern.toInt64
  | .float => .float (Float.ofBits pattern)
  | .bool => .bool (pattern != 0)

def zero : NumType → Scalar
  | .int => .int 0
  | .float => .float 0.0
  | .bool => .bool false

def truth : Scalar → Bool
  | int value => value != 0
  | float value => value != 0.0
  | bool value => value

/-- Equality as numbers: the two zeros agree and a NaN differs from itself. -/
def sameNumber : Scalar → Scalar → Bool
  | int a, int b => a == b
  | float a, float b => a == b
  | bool a, bool b => a == b
  | _, _ => false

end Scalar

/-- The kind of a parameter or local. Array elements are integers or floats. -/
inductive Kind where
  | scalar (type : NumType)
  | array (element : NumType)
deriving DecidableEq, Repr, Inhabited

namespace Kind

def isArray : Kind → Bool
  | array _ => true
  | scalar _ => false

def numType : Kind → NumType
  | scalar type => type
  | array element => element

def name : Kind → String
  | scalar type => type.name
  | array element => "list[" ++ element.name ++ "]"

end Kind

/-- What a function returns; an array is one of its parameters, by reference. -/
inductive ReturnKind where
  | scalar (type : NumType)
  | array (element : NumType)
  | nothing
deriving DecidableEq, Repr, Inhabited

def ReturnKind.name : ReturnKind → String
  | scalar type => type.name
  | array element => "list[" ++ element.name ++ "]"
  | nothing => "None"

end TwoTier
