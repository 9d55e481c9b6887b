import TwoTier.Number.Decimal
import TwoTier.Surface.Feed

/-! The grammar of expressions: each level of binding strength has one rule. -/

namespace TwoTier.Surface

open Reader

/-- Levels of the expression grammar, loosest first. -/
inductive Level where
  | conditional
  | disjunction
  | conjunction
  | negation
  | comparison
  /-- binary operators that bind at least this tight -/
  | binary (least : Nat)
  | unary
  | power
  | suffixed
  | atom
deriving DecidableEq, Repr

def Level.operand : Level := .binary 1

abbrev Rules := Level → Reader Expr

def startsExpression : Token.Kind → Bool
  | .ident | .integer _ | .float | .string => true
  | .keyword word => word ∈ [.kwTrue, .kwFalse, .kwNone, .kwNot, .kwLambda]
  | .symbol mark => mark ∈ [.lParen, .lBracket, .lBrace, .minus, .plus, .tilde]
  | _ => false

/-- One expression, or several divided by commas as a tuple. -/
def expressionList (rules : Rules) (budget : Nat) : Reader Expr := do
  let start ← position
  let first ← rules .conditional
  if !(← seesMark .comma) then return first
  let item : Reader (Option Expr) := do
    if !(← eatMark .comma) then return none
    if !(startsExpression (← kind)) then return none
    return some (← rules .conditional)
  let rest ← many item budget
  return .tuple (← spanFrom start) (first :: rest)

def lambda (rules : Rules) (budget : Nat) : Reader Expr := do
  let start := (← take).span.start
  let params ← commaList (seesMark .colon) (fun _ => ident) budget []
  expectMark .colon
  let body ← rules .conditional
  return .lambda (← spanFrom start) params body

def conditional (rules : Rules) (budget : Nat) : Reader Expr := do
  if ← seesWord .kwLambda then
    lambda rules budget
  else
    let start ← position
    let yes ← rules .disjunction
    if !(← eatWord .kwIf) then return yes
    let cond ← rules .disjunction
    discard (expect (.keyword .kwElse))
    let no ← rules .conditional
    return .conditional (← spanFrom start) cond yes no

/-- Operands of one short-circuit operator, grouped to the left. -/
def junction (word : Token.Keyword) (op : BoolOp) (operand : Reader Expr) (budget : Nat) :
    Reader Expr := do
  let start ← position
  let step (left : Expr) : Reader (Option Expr) := do
    if !(← eatWord word) then return none
    let right ← operand
    return some (.boolOp (← spanFrom start) op left right)
  extend step budget (← operand)

def negation (rules : Rules) : Reader Expr := do
  let start ← position
  if ← eatWord .kwNot then
    let operand ← rules .negation
    return .unary (← spanFrom start) .not operand
  else rules .comparison

/-- Takes a comparison operator, which may be two words. -/
def comparisonOp : Reader (Option CmpOp) := do
  let next ← nextKind
  let found : Option (CmpOp × Bool) :=
    match ← kind with
    | .symbol .eqEq => some (.eq, false)
    | .symbol .notEq => some (.ne, false)
    | .symbol .lt => some (.lt, false)
    | .symbol .ltEq => some (.le, false)
    | .symbol .gt => some (.gt, false)
    | .symbol .gtEq => some (.ge, false)
    | .keyword .kwIn => some (.isIn, false)
    | .keyword .kwIs =>
      if next = .keyword .kwNot then some (.isNot, true) else some (.is, false)
    | .keyword .kwNot => if next = .keyword .kwIn then some (.notIn, true) else none
    | _ => none
  match found with
  | none => return none
  | some (op, twoWords) =>
    if twoWords then discard take
    discard take
    return some op

def comparison (rules : Rules) (budget : Nat) : Reader Expr := do
  let start ← position
  let left ← rules .operand
  let link : Reader (Option (CmpOp × Expr)) := do
    match ← comparisonOp with
    | none => return none
    | some op => return some (op, ← rules .operand)
  let rest ← many link budget
  if rest.isEmpty then return left
  return .compare (← spanFrom start) left rest

def binaryOp? : Token.Kind → Option BinOp
  | .symbol mark =>
    match mark with
    | .plus => some .add | .minus => some .sub | .star => some .mul | .slash => some .div
    | .slashSlash => some .floorDiv | .percent => some .mod | .atSign => some .matMul
    | .amp => some .bitAnd | .pipe => some .bitOr | .caret => some .bitXor
    | .shl => some .shl | .shr => some .shr
    | _ => none
  | _ => none

def binary (rules : Rules) (budget least : Nat) : Reader Expr := do
  let start ← position
  let step (left : Expr) : Reader (Option Expr) := do
    match binaryOp? (← kind) with
    | none => return none
    | some op =>
      if op.precedence < least then return none
      discard take
      let right ← rules (.binary (op.precedence + 1))
      return some (.binary (← spanFrom start) op left right)
  extend step budget (← rules .unary)

def unaryOp? : Token.Kind → Option UnaryOp
  | .symbol .minus => some .neg
  | .symbol .plus => some .pos
  | .symbol .tilde => some .invert
  | _ => none

def unary (rules : Rules) : Reader Expr := do
  match unaryOp? (← kind) with
  | none => rules .power
  | some op =>
    let start := (← take).span.start
    let operand ← rules .unary
    return .unary (← spanFrom start) op operand

/-- A power binds tighter than a sign on its left and takes a signed exponent. -/
def power (rules : Rules) : Reader Expr := do
  let start ← position
  let base ← rules .suffixed
  if !(← eatMark .starStar) then return base
  let exponent ← rules .unary
  return .binary (← spanFrom start) .pow base exponent

inductive Argument where
  | positional (value : Expr)
  | keyword (name : Ident) (value : Expr)

def Argument.positional? : Argument → Option Expr
  | positional value => some value
  | keyword _ _ => none

def Argument.keyword? : Argument → Option (Ident × Expr)
  | positional _ => none
  | keyword name value => some (name, value)

def argument (rules : Rules) (before : List Argument) : Reader Argument := do
  if (← seesMark .star) || (← seesMark .starStar) then unsupported "argument unpacking"
  let named := (← sees .ident) && (← nextKind) == .symbol .assign
  let found ←
    if named then do
      let name ← ident
      discard take
      pure (Argument.keyword name (← rules .conditional))
    else do
      if before.any (·.keyword?.isSome) then
        throw {
          cause := .unexpected (← kind) "keyword argument"
          span := (← get).current.span
          hint := some "positional arguments must come before keyword arguments" }
      pure (Argument.positional (← rules .conditional))
  if ← seesWord .kwFor then unsupported "generator expressions"
  return found

/-- One call, subscript or attribute behind an expression. -/
def suffix (rules : Rules) (budget start : Nat) (value : Expr) : Reader (Option Expr) := do
  match ← kind with
  | .symbol .lParen =>
    discard take
    let arguments ← commaList (seesMark .rParen) (argument rules) budget []
    expectMark .rParen
    return some (.call (← spanFrom start) value (arguments.filterMap (·.positional?))
      (arguments.filterMap (·.keyword?)))
  | .symbol .lBracket =>
    discard take
    let index ← expressionList rules budget
    if ← seesMark .colon then unsupported "slices"
    expectMark .rBracket
    return some (.subscript (← spanFrom start) value index)
  | .symbol .dot =>
    discard take
    let attr ← ident
    return some (.member (← spanFrom start) value attr)
  | _ => return none

def suffixed (rules : Rules) (budget : Nat) : Reader Expr := do
  let start ← position
  extend (suffix rules budget start) budget (← rules .atom)

/-- The value of a digit in any base up to sixteen. -/
def digitValue? (c : Char) : Option Nat :=
  if '0' ≤ c ∧ c ≤ '9' then some (c.toNat - '0'.toNat)
  else if 'a' ≤ c ∧ c ≤ 'f' then some (c.toNat - 'a'.toNat + 10)
  else if 'A' ≤ c ∧ c ≤ 'F' then some (c.toNat - 'A'.toNat + 10)
  else none

def natOfDigits? (base : Nat) (digits : List Char) : Option Nat :=
  if digits.isEmpty then none
  else
    digits.foldlM (fun value c => do
      let digit ← digitValue? c
      if digit < base then some (value * base + digit) else none) 0

def withoutUnderscores (lexeme : String) : List Char := lexeme.toList.filter (· ≠ '_')

def integerValue? (radix : Token.Radix) (lexeme : String) : Option Int64 :=
  let digits := withoutUnderscores lexeme
  let value :=
    match radix with
    | .decimal => natOfDigits? 10 digits
    | .hexadecimal => natOfDigits? 16 (digits.drop 2)
    | .octal => natOfDigits? 8 (digits.drop 2)
    | .binary => natOfDigits? 2 (digits.drop 2)
  value.bind fun n => Word.fit? n

/-- A string literal, which may be written in several adjacent pieces. -/
def stringPiece : Reader (Option String) := do
  if ← sees .string then return some (← take).lexeme else return none

/-- Items of a list display, or of a tuple after its first comma, with the closing token. -/
def displayItems (rules : Rules) (budget : Nat) (close : Token.Symbol) : Reader (List Expr) := do
  let item (_ : List Expr) : Reader Expr := do
    let value ← rules .conditional
    if ← seesWord .kwFor then unsupported "comprehensions"
    return value
  let items ← commaList (seesMark close) item budget []
  expectMark close
  return items

def parenthesized (rules : Rules) (budget : Nat) : Reader Expr := do
  let start := (← take).span.start
  if ← eatMark .rParen then
    return .tuple (← spanFrom start) []
  let first ← rules .conditional
  if ← seesWord .kwFor then unsupported "generator expressions"
  if ← eatMark .rParen then return first
  expectMark .comma
  let rest ← displayItems rules budget .rParen
  return .tuple (← spanFrom start) (first :: rest)

def dictDisplay (rules : Rules) (budget : Nat) : Reader Expr := do
  let start := (← take).span.start
  let entry (_ : List (Expr × Expr)) : Reader (Expr × Expr) := do
    let key ← rules .conditional
    if !(← eatMark .colon) then unsupported "set displays"
    let value ← rules .conditional
    if ← seesWord .kwFor then unsupported "comprehensions"
    return (key, value)
  let entries ← commaList (seesMark .rBrace) entry budget []
  expectMark .rBrace
  return .dict (← spanFrom start) entries

def atom (rules : Rules) (budget : Nat) : Reader Expr := do
  let token := (← get).current
  let start := token.span.start
  match token.kind with
  | .integer radix =>
    discard take
    match integerValue? radix token.lexeme with
    | some value => return .int (← spanFrom start) value
    | none =>
      throw {
        cause := .invalidNumber token.lexeme
        span := token.span
        hint := some "integer literals must fit in 64 bits" }
  | .float =>
    discard take
    match Decimal.read? (withoutUnderscores token.lexeme) with
    | some value => return .float (← spanFrom start) value
    | none => refuse (.invalidNumber token.lexeme) token.span
  | .string =>
    let pieces ← many stringPiece budget
    return .str (← spanFrom start) (String.join pieces)
  | .keyword .kwTrue =>
    discard take
    return .bool (← spanFrom start) true
  | .keyword .kwFalse =>
    discard take
    return .bool (← spanFrom start) false
  | .keyword .kwNone =>
    discard take
    return .none (← spanFrom start)
  | .ident =>
    discard take
    return .name (← spanFrom start) token.lexeme
  | .symbol .lParen => parenthesized rules budget
  | .symbol .lBracket =>
    discard take
    let items ← displayItems rules budget .rBracket
    return .list (← spanFrom start) items
  | .symbol .lBrace => dictDisplay rules budget
  | other => refuse (.expectedExpression other) token.span

def rule (rules : Rules) (budget : Nat) : Level → Reader Expr
  | .conditional => conditional rules budget
  | .disjunction => junction .kwOr .or (rules .conjunction) budget
  | .conjunction => junction .kwAnd .and (rules .negation) budget
  | .negation => negation rules
  | .comparison => comparison rules budget
  | .binary least => binary rules budget least
  | .unary => unary rules
  | .power => power rules
  | .suffixed => suffixed rules budget
  | .atom => atom rules budget

/-- Reads an expression of a level. The budget bounds the depth of rules and every repetition. -/
def expression : Nat → Level → Reader Expr
  | 0, _ => exhausted
  | budget + 1, level => rule (expression budget) budget level

end TwoTier.Surface
