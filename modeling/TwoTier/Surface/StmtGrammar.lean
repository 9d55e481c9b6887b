import TwoTier.Surface.ExprGrammar
import TwoTier.Surface.Stmt

namespace TwoTier.Surface

open Reader

structure Comment where
  line : Nat
  /-- without the leading marks -/
  text : String
  /-- nothing but blanks stands before it on its line -/
  standalone : Bool

structure Page where
  chars : List Char
  lines : LineTable
  comments : List Comment

/-- Standalone comments on the lines directly above a line, in source order. -/
def Page.commentsAbove (page : Page) : Nat → List String
  | 0 => []
  | line + 1 =>
    match page.comments.find? fun c => c.line == line && c.standalone with
    | none => []
    | some comment => page.commentsAbove line ++ [comment.text]

/-- Standalone comments above a definition and between its header and its first statement. -/
def Page.leadingComments (page : Page) (header : Nat) (first : Option Nat) : List String :=
  let inside (comment : Comment) : Bool :=
    comment.standalone && header < comment.line && first.all (comment.line < ·)
  page.commentsAbove header ++ (page.comments.filter inside).map (·.text)

structure Enclosure where
  loop : Bool
  function : Bool

def Enclosure.module : Enclosure := ⟨false, false⟩

/-- How the rules below reach nested statements. -/
abbrev Nested := Enclosure → Reader (List Stmt)

def atStatementEnd : Reader Bool := do
  return match ← kind with
    | .newline | .symbol .semicolon | .eof => true
    | _ => false

def nameList (budget : Nat) : Reader (List Ident) := do
  let first ← ident
  let item : Reader (Option Ident) := do
    if ← eatMark .comma then return some (← ident) else return none
  return first :: (← many item budget)

def dottedName (budget : Nat) : Reader String := do
  let first ← ident
  let part : Reader (Option String) := do
    if ← eatMark .dot then return some ("." ++ (← ident).name) else return none
  return first.name ++ String.join (← many part budget)

def importName (budget : Nat) : Reader ImportName := do
  let start ← position
  let path ← dottedName budget
  let renamed ← if ← eatWord .kwAs then some <$> ident else pure none
  return { path, renamed, span := ← spanFrom start }

/-- Imported names divided by commas; in parentheses a last comma is allowed. -/
def importList (budget : Nat) (parenthesized : Bool) : Reader (List ImportName) := do
  let first ← importName budget
  let item : Reader (Option ImportName) := do
    if !(← eatMark .comma) then return none
    if parenthesized && (← seesMark .rParen) then return none
    return some (← importName budget)
  return first :: (← many item budget)

def updateOp? : Token.Kind → Option BinOp
  | .symbol mark =>
    match mark with
    | .plusEq => some .add | .minusEq => some .sub | .starEq => some .mul
    | .slashEq => some .div | .slashSlashEq => some .floorDiv | .percentEq => some .mod
    | .starStarEq => some .pow | .ampEq => some .bitAnd | .pipeEq => some .bitOr
    | .caretEq => some .bitXor | .shlEq => some .shl | .shrEq => some .shr
    | _ => none
  | _ => none

mutual

/-- The first part of a target that cannot be assigned to. -/
def invalidTarget? (unpack : Bool) (target : Expr) : Option Span :=
  match target with
  | .name _ _ | .subscript _ _ _ | .member _ _ _ => none
  | .tuple span items => if unpack then invalidTargets? items else some span
  | .list span items => if unpack then invalidTargets? items else some span
  | other => some other.span

def invalidTargets? (targets : List Expr) : Option Span :=
  match targets with
  | [] => none
  | target :: rest => (invalidTarget? true target).or (invalidTargets? rest)

end

def checkTarget (unpack : Bool) (target : Expr) : Reader Unit :=
  match invalidTarget? unpack target with
  | none => pure ()
  | some span => refuse .invalidTarget span

/-- The rest of an assignment with one or more targets, after the first side. -/
def assignment (sides : Reader Expr) (start : Nat) : Nat → List Expr → Expr → Reader Stmt
  | 0, _, _ => exhausted
  | budget + 1, targets, value => do
    if ← eatMark .assign then
      checkTarget true value
      assignment sides start budget (targets ++ [value]) (← sides)
    else return .assign (← spanFrom start) targets value

def expressionStatement (budget : Nat) : Reader Stmt := do
  let side := expressionList (expression budget) budget
  let start ← position
  let first ← side
  match updateOp? (← kind) with
  | some op =>
    discard take
    checkTarget false first
    let value ← side
    return .update (← spanFrom start) first op value
  | none =>
    if ← seesMark .assign then assignment side start budget [] first
    else return .expr (← spanFrom start) first

/-- A jump statement, allowed only where something encloses it. -/
def jump (allowed : Bool) (cause : Cause) (build : Span → Stmt) : Reader Stmt := do
  let token ← take
  if !allowed then refuse cause token.span
  return build (← spanFrom token.span.start)

def returnStatement (budget : Nat) (enclosure : Enclosure) : Reader Stmt := do
  let token ← take
  if !enclosure.function then refuse .returnOutsideFunction token.span
  let value ←
    if ← atStatementEnd then pure none
    else some <$> expressionList (expression budget) budget
  return .giveBack (← spanFrom token.span.start) value

def raiseStatement (budget : Nat) : Reader Stmt := do
  let start := (← take).span.start
  let value ←
    if ← atStatementEnd then pure none else some <$> expression budget .conditional
  return .raise (← spanFrom start) value

def importStatement (budget : Nat) : Reader Stmt := do
  let start := (← take).span.start
  let names ← importList budget false
  return .importNames (← spanFrom start) names

def fromStatement (budget : Nat) : Reader Stmt := do
  let start := (← take).span.start
  let module ← dottedName budget
  discard (expect (.keyword .kwImport))
  let parenthesized ← eatMark .lParen
  let names ← importList budget parenthesized
  if parenthesized then expectMark .rParen
  return .importFrom (← spanFrom start) module names

def simpleStatement (budget : Nat) (enclosure : Enclosure) : Reader Stmt := do
  match ← kind with
  | .keyword .kwPass =>
    let start := (← take).span.start
    return .pass (← spanFrom start)
  | .keyword .kwBreak => jump enclosure.loop .breakOutsideLoop .leave
  | .keyword .kwContinue => jump enclosure.loop .continueOutsideLoop .skip
  | .keyword .kwReturn => returnStatement budget enclosure
  | .keyword .kwRaise => raiseStatement budget
  | .keyword .kwGlobal =>
    let start := (← take).span.start
    let names ← nameList budget
    return .globals (← spanFrom start) names
  | .keyword .kwNonlocal =>
    let start := (← take).span.start
    let names ← nameList budget
    return .nonlocals (← spanFrom start) names
  | .keyword .kwImport => importStatement budget
  | .keyword .kwFrom => fromStatement budget
  | .keyword .kwYield => unsupported "generators"
  | _ => expressionStatement budget

/-- Simple statements divided by semicolons, up to the end of the line. -/
def simpleStatements (budget : Nat) (enclosure : Enclosure) : Reader (List Stmt) := do
  let first ← simpleStatement budget enclosure
  let item : Reader (Option Stmt) := do
    if !(← eatMark .semicolon) then return none
    if (← sees .newline) || (← sees .eof) then return none
    return some (← simpleStatement budget enclosure)
  let rest ← many item budget
  if !(← sees .eof) then discard (expect .newline)
  return first :: rest

/-- The statements of an indented block up to its end, which stays. -/
def blockBody (nested : Nested) (enclosure : Enclosure) : Nat → Reader (List Stmt)
  | 0 => exhausted
  | budget + 1 => do
    if (← sees .dedent) || (← sees .eof) then return []
    if ← eat .newline then blockBody nested enclosure budget
    else
      let statements ← nested enclosure
      return statements ++ (← blockBody nested enclosure budget)

/-- A block: an indented one, or simple statements on the line of the colon. -/
def block (nested : Nested) (budget : Nat) (enclosure : Enclosure) : Reader (List Stmt) := do
  expectMark .colon
  if !(← eat .newline) then
    simpleStatements budget enclosure
  else
    discard (expect .indent)
    let body ← blockBody nested enclosure budget
    discard (eat .dedent)
    return body

def parameter (budget : Nat) (before : List Param) : Reader Param := do
  if (← seesMark .star) || (← seesMark .starStar) then unsupported "variadic parameters"
  let name ← ident
  if before.any (·.name.name == name.name) then
    refuse (.duplicateParameter name.name) name.span
  let annotation ←
    if ← eatMark .colon then some <$> expression budget .conditional else pure none
  let default ←
    if ← eatMark .assign then some <$> expression budget .conditional else pure none
  return { name, annotation, default }

/-- Takes a string that opens a body out of it. -/
def splitDocstring : List Stmt → Option String × List Stmt
  | .expr _ (.str _ text) :: rest => (some text, rest)
  | body => (none, body)

def functionDefinition (page : Page) (nested : Nested) (budget : Nat) : Reader Stmt := do
  let start := (← take).span.start
  let name ← ident
  expectMark .lParen
  let params ← commaList (seesMark .rParen) (parameter budget) budget []
  expectMark .rParen
  let returns ←
    if ← eatMark .arrow then some <$> expression budget .conditional else pure none
  let (docstring, body) := splitDocstring (← block nested budget ⟨false, true⟩)
  let span ← spanFrom start
  let firstLine := body.head?.map fun statement => page.lines.line statement.span.start
  return .define {
    name, params, returns, body, docstring, span
    leadingComments := page.leadingComments (page.lines.line start) firstLine
    source := String.ofList (span.slice page.chars) }

/-- A branch with its further conditions, each nested in the refusal of the one before. -/
def branchStatement (nested : Nested) (enclosure : Enclosure) : Nat → Reader Stmt
  | 0 => exhausted
  | budget + 1 => do
    let start := (← take).span.start
    let cond ← expression budget .conditional
    let yes ← block nested budget enclosure
    let no ←
      if ← seesWord .kwElif then do pure [← branchStatement nested enclosure budget]
      else if ← eatWord .kwElse then block nested budget enclosure
      else pure []
    return .branch (← spanFrom start) cond yes no

def loopBody (nested : Nested) (budget : Nat) (enclosure : Enclosure) : Reader (List Stmt) := do
  let body ← block nested budget { enclosure with loop := true }
  if ← seesWord .kwElse then unsupported "loop else clauses"
  return body

def whileStatement (nested : Nested) (budget : Nat) (enclosure : Enclosure) : Reader Stmt := do
  let start := (← take).span.start
  let cond ← expression budget .conditional
  let body ← loopBody nested budget enclosure
  return .whileLoop (← spanFrom start) cond body

/-- Loop targets bind tighter than comparisons, so that the word between target and sequence is
not taken for one. -/
def loopTarget (budget : Nat) : Reader Expr := do
  let start ← position
  let first ← expression budget .operand
  if !(← seesMark .comma) then return first
  let item : Reader (Option Expr) := do
    if !(← eatMark .comma) then return none
    if ← seesWord .kwIn then return none
    return some (← expression budget .operand)
  let rest ← many item budget
  return .tuple (← spanFrom start) (first :: rest)

def forStatement (nested : Nested) (budget : Nat) (enclosure : Enclosure) : Reader Stmt := do
  let start := (← take).span.start
  let target ← loopTarget budget
  checkTarget true target
  discard (expect (.keyword .kwIn))
  let iter ← expressionList (expression budget) budget
  let body ← loopBody nested budget enclosure
  return .forLoop (← spanFrom start) target iter body

def handler (nested : Nested) (budget : Nat) (enclosure : Enclosure) :
    Reader (Option Handler) := do
  if !(← seesWord .kwExcept) then return none
  let start := (← take).span.start
  let kind ←
    if ← seesMark .colon then pure none else some <$> expression budget .conditional
  let name ← if ← eatWord .kwAs then some <$> ident else pure none
  let body ← block nested budget enclosure
  return some { kind, name, body, span := ← spanFrom start }

def tryStatement (nested : Nested) (budget : Nat) (enclosure : Enclosure) : Reader Stmt := do
  let start := (← take).span.start
  let body ← block nested budget enclosure
  let handlers ← many (handler nested budget enclosure) budget
  if ← seesWord .kwElse then unsupported "try/else"
  let cleanup ← if ← eatWord .kwFinally then block nested budget enclosure else pure []
  if handlers.isEmpty && cleanup.isEmpty then unexpected "'except' or 'finally'"
  return .attempt (← spanFrom start) body handlers cleanup

/-- One statement; a line of simple statements gives several. -/
def statementRule (page : Page) (nested : Nested) (budget : Nat) (enclosure : Enclosure) :
    Reader (List Stmt) := do
  match ← kind with
  | .keyword .kwDef => return [← functionDefinition page nested budget]
  | .keyword .kwIf => return [← branchStatement nested enclosure budget]
  | .keyword .kwWhile => return [← whileStatement nested budget enclosure]
  | .keyword .kwFor => return [← forStatement nested budget enclosure]
  | .keyword .kwTry => return [← tryStatement nested budget enclosure]
  | .keyword .kwClass => unsupported "class definitions"
  | .keyword .kwWith => unsupported "with statements"
  | .symbol .atSign => unsupported "decorators"
  | _ => simpleStatements budget enclosure

/-- Reads a statement. The budget bounds the depth of rules and every repetition. -/
def statement (page : Page) : Nat → Enclosure → Reader (List Stmt)
  | 0, _ => exhausted
  | budget + 1, enclosure => statementRule page (statement page budget) budget enclosure

end TwoTier.Surface
