import TwoTier.Text.Span

namespace TwoTier.Surface

structure Ident where
  name : String
  span : Span
deriving DecidableEq, Repr, Inhabited

inductive BinOp where
  | add | sub | mul | div | floorDiv | mod | pow
  | bitAnd | bitOr | bitXor | shl | shr | matMul
deriving DecidableEq, Repr

namespace BinOp

def symbol : BinOp → String
  | add => "+" | sub => "-" | mul => "*" | div => "/" | floorDiv => "//" | mod => "%"
  | pow => "**" | bitAnd => "&" | bitOr => "|" | bitXor => "^" | shl => "<<" | shr => ">>"
  | matMul => "@"

/-- Binding strength; a higher number binds tighter, and only the power associates to the right. -/
def precedence : BinOp → Nat
  | bitOr => 1
  | bitXor => 2
  | bitAnd => 3
  | shl | shr => 4
  | add | sub => 5
  | mul | div | floorDiv | mod | matMul => 6
  | pow => 8

end BinOp

inductive UnaryOp where
  | neg | pos | invert | not
deriving DecidableEq, Repr

inductive BoolOp where
  | and | or
deriving DecidableEq, Repr

inductive CmpOp where
  | eq | ne | lt | le | gt | ge | is | isNot | isIn | notIn
deriving DecidableEq, Repr

def CmpOp.symbol : CmpOp → String
  | eq => "==" | ne => "!=" | lt => "<" | le => "<=" | gt => ">" | ge => ">="
  | is => "is" | isNot => "is not" | isIn => "in" | notIn => "not in"

inductive Expr where
  | int (span : Span) (value : Int64)
  | float (span : Span) (value : Float)
  | bool (span : Span) (value : Bool)
  | none (span : Span)
  | str (span : Span) (text : String)
  | name (span : Span) (name : String)
  | binary (span : Span) (op : BinOp) (left right : Expr)
  | unary (span : Span) (op : UnaryOp) (operand : Expr)
  | boolOp (span : Span) (op : BoolOp) (left right : Expr)
  /-- A chain of comparisons, each operator with its right operand. -/
  | compare (span : Span) (left : Expr) (rest : List (CmpOp × Expr))
  | call (span : Span) (func : Expr) (args : List Expr) (keywords : List (Ident × Expr))
  | member (span : Span) (value : Expr) (attr : Ident)
  | subscript (span : Span) (value index : Expr)
  | list (span : Span) (items : List Expr)
  | tuple (span : Span) (items : List Expr)
  | dict (span : Span) (entries : List (Expr × Expr))
  | lambda (span : Span) (params : List Ident) (body : Expr)
  | conditional (span : Span) (cond yes no : Expr)
deriving Inhabited

namespace Expr

def span : Expr → Span
  | int span _ | float span _ | bool span _ | none span | str span _ | name span _
  | binary span _ _ _ | unary span _ _ | boolOp span _ _ _ | compare span _ _ | call span _ _ _
  | member span _ _ | subscript span _ _ | list span _ | tuple span _ | dict span _
  | lambda span _ _ | conditional span _ _ _ => span

def name? : Expr → Option String
  | .name _ text => some text
  | _ => Option.none

def describe : Expr → String
  | int _ _ => "integer literal"
  | float _ _ => "float literal"
  | bool _ _ => "boolean literal"
  | none _ => "None"
  | str _ _ => "string literal"
  | name _ _ => "name"
  | binary _ _ _ _ => "binary operation"
  | unary _ _ _ => "unary operation"
  | boolOp _ _ _ _ => "boolean operation"
  | compare _ _ _ => "comparison"
  | call _ _ _ _ => "call"
  | member _ _ _ => "attribute access"
  | subscript _ _ _ => "subscript"
  | list _ _ => "list display"
  | tuple _ _ => "tuple"
  | dict _ _ => "dict display"
  | lambda _ _ _ => "lambda"
  | conditional _ _ _ _ => "conditional expression"

end Expr
end TwoTier.Surface
