import TwoTier.Surface.Problem
import TwoTier.Surface.Expr

/-! The tokens still to be read, and the readers that grammar rules are made of. -/

namespace TwoTier.Surface

/-- The current token, those after it, and where the last significant token ended. -/
structure Feed where
  current : Token
  ahead : List Token
  lastEnd : Nat

namespace Feed

def ofTokens : List Token → Feed
  | [] => ⟨⟨.eof, ⟨0, 0⟩, ""⟩, [], 0⟩
  | first :: rest => ⟨first, rest, 0⟩

def kind (feed : Feed) : Token.Kind := feed.current.kind

/-- Moves to the next token; the last token is never left. -/
def advance (feed : Feed) : Feed :=
  let lastEnd := if feed.kind.isLayout then feed.lastEnd else feed.current.span.stop
  match feed.ahead with
  | [] => { feed with lastEnd }
  | next :: rest => ⟨next, rest, lastEnd⟩

def size (feed : Feed) : Nat := feed.ahead.length + 1

/-- Moves past the next line break. -/
def skipLine : Nat → Feed → Feed
  | 0, feed => feed
  | count + 1, feed =>
    if feed.kind = .eof then feed
    else if feed.kind = .newline then feed.advance
    else skipLine count feed.advance

/-- Moves past the blocks that open here until `depth` of them are closed again. -/
def skipBlock : Nat → Nat → Feed → Feed
  | 0, _, feed => feed
  | count + 1, depth, feed =>
    match feed.kind with
    | .eof => feed
    | .indent => skipBlock count (depth + 1) feed.advance
    | .dedent => if depth ≤ 1 then feed.advance else skipBlock count (depth - 1) feed.advance
    | _ => skipBlock count depth feed.advance

/-- Where reading resumes after a problem: the next line, past a block that begins there. -/
def resume (feed : Feed) : Feed :=
  let feed := feed.skipLine feed.size
  if feed.kind = .indent then feed.skipBlock feed.size 0 else feed

end Feed

abbrev Reader := EStateM Problem Feed

namespace Reader

def kind : Reader Token.Kind := do return (← get).kind

def nextKind : Reader Token.Kind := do
  return match (← get).ahead with
    | [] => .eof
    | next :: _ => next.kind

def position : Reader Nat := do return (← get).current.span.start

/-- Takes the current token, whatever it is. -/
def take : Reader Token := do
  let feed ← get
  set feed.advance
  return feed.current

def sees (wanted : Token.Kind) : Reader Bool := do return (← kind) == wanted

def seesMark (mark : Token.Symbol) : Reader Bool := sees (.symbol mark)

def seesWord (word : Token.Keyword) : Reader Bool := sees (.keyword word)

/-- Takes the current token if it is of one kind, and says whether it did. -/
def eat (wanted : Token.Kind) : Reader Bool := do
  if ← sees wanted then
    discard take
    return true
  else return false

def eatMark (mark : Token.Symbol) : Reader Bool := eat (.symbol mark)

def eatWord (word : Token.Keyword) : Reader Bool := eat (.keyword word)

def refuse {α : Type} (cause : Cause) (span : Span) : Reader α := throw { cause, span }

def refuseHere {α : Type} (cause : Cause) : Reader α := do refuse cause (← get).current.span

def unexpected {α : Type} (expected : String) : Reader α := do
  refuseHere (.unexpected (← kind) expected)

def unsupported {α : Type} (construct : String) : Reader α := refuseHere (.unsupported construct)

/-- What a rule answers when its budget runs out, which the budget of a whole text forbids. -/
def exhausted {α : Type} : Reader α := unsupported "unbounded nesting"

def expect (wanted : Token.Kind) : Reader Token := do
  if ← sees wanted then take else unexpected ("'" ++ wanted.label ++ "'")

def expectMark (mark : Token.Symbol) : Reader Unit := discard (expect (.symbol mark))

def ident : Reader Ident := do
  let token := (← get).current
  if token.kind = .ident then
    discard take
    return ⟨token.lexeme, token.span⟩
  else refuse (.expectedIdentifier token.kind) token.span

/-- The span from a start to the end of the last significant token. -/
def spanFrom (start : Nat) : Reader Span := do return ⟨start, max (← get).lastEnd start⟩

def many {α : Type} (item : Reader (Option α)) : Nat → Reader (List α)
  | 0 => exhausted
  | budget + 1 => do
    match ← item with
    | none => return []
    | some first => return first :: (← many item budget)

/-- Items divided by commas up to a closing token, which stays; a last comma is allowed. -/
def commaList {α : Type} (closed : Reader Bool) (item : List α → Reader α) :
    Nat → List α → Reader (List α)
  | 0, _ => exhausted
  | budget + 1, before => do
    if ← closed then return before.reverse
    let items := (← item before) :: before
    if ← eatMark .comma then commaList closed item budget items else return items.reverse

/-- Extends a value as long as a step applies. -/
def extend {α : Type} (step : α → Reader (Option α)) : Nat → α → Reader α
  | 0, _ => exhausted
  | budget + 1, value => do
    match ← step value with
    | none => return value
    | some longer => extend step budget longer

end Reader
end TwoTier.Surface
