import TwoTier.Text.Cursor
import TwoTier.Token.Lexeme

/-! The token stream of a source text, with indentation as tokens. -/

namespace TwoTier.Token

inductive Fault where
  | unexpectedCharacter
  | unterminatedString
  | inconsistentDedent
deriving DecidableEq, Repr

def Fault.message : Fault → String
  | unexpectedCharacter => "unexpected character"
  | unterminatedString => "unterminated string literal"
  | inconsistentDedent => "unindent does not match any outer indentation level"

structure Misread where
  fault : Fault
  span : Span

def Misread.message (misread : Misread) : String :=
  misread.fault.message ++ " at " ++ misread.span.text

structure Stream where
  tokens : List Token
  misreads : List Misread

namespace Stream

def empty : Stream := ⟨[], []⟩

def append (first second : Stream) : Stream :=
  ⟨first.tokens ++ second.tokens, first.misreads ++ second.misreads⟩

instance : Append Stream := ⟨append⟩

def token (kind : Kind) (span : Span) (lexeme : String) : Stream := ⟨[⟨kind, span, lexeme⟩], []⟩

def misread (fault : Fault) (span : Span) : Stream := ⟨[], [⟨fault, span⟩]⟩

end Stream

/-- Layout between two lexemes: open columns from the inside, open brackets, and whether a logical
line has yet to begin. -/
structure Layout where
  columns : List UInt32
  brackets : UInt32
  fresh : Bool

namespace Layout

def initial : Layout := ⟨[0], 0, true⟩

def current (layout : Layout) : UInt32 := layout.columns.headD 0

/-- The open blocks left, and the number closed, when a line starts at `column`. -/
def close (column : UInt32) : List UInt32 → List UInt32 × Nat
  | [] => ([], 0)
  | top :: rest =>
    if column < top then
      let (left, closed) := close column rest
      (left, closed + 1)
    else (top :: rest, 0)

/-- Compares the column of a new logical line with the open blocks. -/
def indent (column : UInt32) (span : Span) (layout : Layout) : Layout × Stream :=
  if layout.current < column then
    ({ layout with columns := column :: layout.columns, fresh := false },
      Stream.token .indent span "")
  else
    let (left, closed) := close column layout.columns
    let dedents : Stream := ⟨List.replicate closed ⟨.dedent, span, ""⟩, []⟩
    if left.headD 0 = column then ({ layout with columns := left, fresh := false }, dedents)
    else
      ({ layout with columns := column :: left, fresh := false },
        dedents ++ Stream.misread .inconsistentDedent span)

/-- Opens a logical line at the cursor unless one is open already. -/
def beginLine (cursor : Cursor) (layout : Layout) : Layout × Stream :=
  if layout.fresh && layout.brackets == 0 then
    layout.indent cursor.column ⟨cursor.lineStart, cursor.offset⟩
  else (layout, Stream.empty)

def countBracket (kind : Kind) (layout : Layout) : Layout :=
  match kind with
  | .symbol mark =>
    if mark.opensBracket then { layout with brackets := layout.brackets + 1 }
    else if mark.closesBracket then
      { layout with brackets := layout.brackets - min layout.brackets 1 }
    else layout
  | _ => layout

/-- Ends the open logical line and every open block at the end of the text. -/
def finish (offset : Nat) (layout : Layout) : Stream :=
  let here : Span := ⟨offset, offset⟩
  let lineEnd := if layout.fresh then Stream.empty else Stream.token .newline here "\n"
  let dedents : Stream := ⟨List.replicate (layout.columns.length - 1) ⟨.dedent, here, ""⟩, []⟩
  lineEnd ++ dedents ++ Stream.token .eof here ""

end Layout

/-- What one lexeme contributes: characters after its first, the layout, tokens and problems. -/
structure Reading where
  extra : Nat
  layout : Layout
  output : Stream

def readString (cursor : Cursor) (taken : List Char) (quote : Char) : Nat × Stream :=
  let opened := cursor.skip taken.length
  let triple := [quote, quote].isPrefixOf opened.rest
  let style : StringStyle :=
    ⟨quote, triple, taken.any fun c => c = 'r' || c = 'R'⟩
  let lead := taken.length + if triple then 2 else 0
  let body := style.body (cursor.skip lead).rest
  let count := lead + body.length
  let span : Span := ⟨cursor.offset, (cursor.skip count).offset⟩
  let output := Stream.token .string span (String.ofList body.content)
  (count - 1, if body.closed then output else output ++ Stream.misread .unterminatedString span)

/-- Reads the lexeme at the cursor, whose first character is `first`. -/
def read (cursor : Cursor) (first : Char) (rest : List Char) (layout : Layout) : Reading :=
  match scanLexeme first rest with
  | .opening taken quote =>
    let (begun, lead) := layout.beginLine cursor
    let (extra, body) := readString cursor taken quote
    ⟨extra, begun, lead ++ body⟩
  | .whole kind taken =>
    let extra := taken.length - 1
    let span : Span := ⟨cursor.offset, (cursor.skip taken.length).offset⟩
    let lexeme := String.ofList taken
    match kind with
    | .error =>
      ⟨extra, { layout with fresh := false },
        Stream.token .error span lexeme ++ Stream.misread .unexpectedCharacter span⟩
    | .newline =>
      if layout.brackets > 0 || layout.fresh then ⟨extra, layout, Stream.empty⟩
      else ⟨extra, { layout with fresh := true }, Stream.token .newline span "\n"⟩
    | .comment => ⟨extra, layout, Stream.token .comment span lexeme⟩
    | kind =>
      let (begun, lead) := layout.beginLine cursor
      ⟨extra, begun.countBracket kind, lead ++ Stream.token kind span lexeme⟩

def streamFrom (cursor : Cursor) (layout : Layout) : Stream :=
  let start := cursor.skip (blankLength cursor.rest)
  match _found : start.rest with
  | [] => layout.finish start.offset
  | first :: rest =>
    let reading := read start first rest layout
    reading.output ++ streamFrom (start.skip (reading.extra + 1)) reading.layout
termination_by cursor.rest.length
decreasing_by
  have shorter : start.rest.length ≤ cursor.rest.length := by
    simp only [start, Cursor.rest_skip, List.length_drop]; omega
  rw [Cursor.rest_skip, List.length_drop]
  rw [_found] at shorter ⊢
  simp only [List.length_cons] at shorter ⊢
  omega

def stream (source : String) : Stream :=
  streamFrom (Cursor.ofChars source.toList) Layout.initial

end TwoTier.Token
