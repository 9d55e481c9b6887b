import TwoTier.Surface.StmtGrammar
import TwoTier.Text.Blank
import TwoTier.Token.Stream

/-! Reading a whole text. A module is refused if there was any problem. -/

namespace TwoTier.Surface

/-- Rules that can be entered before one of them takes a token, with room to spare. -/
def rulesPerToken : Nat := 16

def budgetFor (feed : Feed) : Nat := rulesPerToken * (feed.size + 2)

def Comment.ofToken (chars : List Char) (lines : LineTable) (token : Token) : Comment :=
  let line := lines.line token.span.start
  let before : Span := ⟨lines.lineStart line, token.span.start⟩
  { line
    text := String.ofList (token.lexeme.toList.dropWhile (· = '#'))
    standalone := (before.slice chars).all Text.isBlank }

def Page.ofSource (chars : List Char) (tokens : List Token) : Page :=
  let lines := LineTable.ofChars chars
  { chars, lines
    comments := (tokens.filter (·.kind = .comment)).map (Comment.ofToken chars lines) }

/-- The statements that can be read and the problems met on the way. -/
structure Outcome where
  body : List Stmt
  problems : List Problem

def Outcome.empty : Outcome := ⟨[], []⟩

def Outcome.withProblem (problem : Problem) (outcome : Outcome) : Outcome :=
  { outcome with problems := problem :: outcome.problems }

def Outcome.withStatements (statements : List Stmt) (outcome : Outcome) : Outcome :=
  { outcome with body := statements ++ outcome.body }

/-- Reads statements to the end of the feed, resuming on a later line after a problem. -/
def readStatements (page : Page) (budget : Nat) : Nat → Feed → Outcome
  | 0, _ => .empty
  | count + 1, feed =>
    match feed.kind with
    | .eof => .empty
    | .newline => readStatements page budget count feed.advance
    | .indent | .dedent =>
      (readStatements page budget count feed.resume).withProblem
        { cause := .unsupported "unexpected indentation", span := feed.current.span }
    | _ =>
      match statement page budget .module feed with
      | .ok statements feed => (readStatements page budget count feed).withStatements statements
      | .error problem feed =>
        (readStatements page budget count feed.resume).withProblem problem

def Problem.ofMisread (misread : Token.Misread) : Problem :=
  { cause := .lexical misread.fault.message, span := misread.span }

/-- Reads a module, or gives every problem: those of the tokens first. -/
def readModule (source : String) : Except (List Problem) Module :=
  let chars := source.toList
  let stream := Token.stream source
  let feed := Feed.ofTokens (stream.tokens.filter (·.kind ≠ .comment))
  let outcome :=
    readStatements (Page.ofSource chars stream.tokens) (budgetFor feed) (feed.size + 1) feed
  match stream.misreads.map Problem.ofMisread ++ outcome.problems with
  | [] => .ok ⟨outcome.body⟩
  | problems => .error problems

/-- One expression with nothing but line breaks after it. -/
def wholeExpression (budget : Nat) : Reader Expr := do
  let value ← expressionList (expression budget) budget
  let lineBreak : Reader (Option Unit) := do
    if ← Reader.eat .newline then return some () else return none
  discard (Reader.many lineBreak budget)
  if !(← Reader.sees .eof) then Reader.unexpected "end of expression"
  return value

def readExpr (source : String) : Except (List Problem) Expr :=
  let stream := Token.stream source
  let feed := Feed.ofTokens (stream.tokens.filter (·.kind ≠ .comment))
  let misreads := stream.misreads.map Problem.ofMisread
  match wholeExpression (budgetFor feed) feed with
  | .ok value _ => if misreads.isEmpty then .ok value else .error misreads
  | .error problem _ => .error (misreads ++ [problem])

end TwoTier.Surface
