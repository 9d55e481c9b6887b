import TwoTier.Token.Kind

namespace TwoTier.Token

def isDigit (c : Char) : Bool := '0' ≤ c && c ≤ '9'

def isLetter (c : Char) : Bool := ('a' ≤ c && c ≤ 'z') || ('A' ≤ c && c ≤ 'Z')

def isIdentStart (c : Char) : Bool := isLetter c || c = '_'

def isIdentPart (c : Char) : Bool := isIdentStart c || isDigit c

/-- Digits of a literal may be grouped with underscores. -/
def isDigitOrGroup (c : Char) : Bool := isDigit c || c = '_'

def Radix.accepts : Radix → Char → Bool
  | .decimal, c => isDigitOrGroup c
  | .hexadecimal, c => isDigitOrGroup c || ('a' ≤ c && c ≤ 'f') || ('A' ≤ c && c ≤ 'F')
  | .octal, c => ('0' ≤ c && c ≤ '7') || c = '_'
  | .binary, c => c = '0' || c = '1' || c = '_'

/-- A whole token, or the opening of a string literal whose body is read separately. -/
inductive Lexeme where
  | whole (kind : Kind) (taken : List Char)
  | opening (taken : List Char) (quote : Char)

/-- Number of characters of blanks and joined lines at the start of a text. -/
def blankLength : List Char → Nat
  | ' ' :: rest => blankLength rest + 1
  | '\t' :: rest => blankLength rest + 1
  | '\x0c' :: rest => blankLength rest + 1
  | '\\' :: '\n' :: rest => blankLength rest + 2
  | '\\' :: '\r' :: '\n' :: rest => blankLength rest + 3
  | _ => 0

/-- The exponent of a float, empty when the text has none. -/
def exponentPart : List Char → List Char
  | mark :: rest =>
    if mark = 'e' || mark = 'E' then
      match rest with
      | sign :: digits =>
        if sign = '+' || sign = '-' then
          match digits.takeWhile isDigit with
          | [] => []
          | run => mark :: sign :: run
        else
          match rest.takeWhile isDigit with
          | [] => []
          | run => mark :: run
      | [] => []
    else []
  | [] => []

def scanNumber (first : Char) (rest : List Char) : Lexeme :=
  let based : Option Lexeme :=
    match first, rest with
    | '0', mark :: digits =>
      let radix? : Option Radix :=
        if mark = 'x' || mark = 'X' then some .hexadecimal
        else if mark = 'o' || mark = 'O' then some .octal
        else if mark = 'b' || mark = 'B' then some .binary
        else none
      radix?.bind fun radix =>
        match digits.takeWhile radix.accepts with
        | [] => none
        | run => some (.whole (.integer radix) (first :: mark :: run))
    | _, _ => none
  match based with
  | some lexeme => lexeme
  | none =>
    let whole := first :: rest.takeWhile isDigitOrGroup
    match rest.dropWhile isDigitOrGroup with
    | '.' :: after =>
      let fraction := after.takeWhile isDigitOrGroup
      let exponent := exponentPart (after.dropWhile isDigitOrGroup)
      .whole .float (whole ++ '.' :: (fraction ++ exponent))
    | after =>
      match exponentPart after with
      | [] => .whole (.integer .decimal) whole
      | exponent => .whole .float (whole ++ exponent)

def isStringMark (c : Char) : Bool := "rRbBuUfF".toList.contains c

def isQuote (c : Char) : Bool := c = '"' || c = '\''

/-- A word: string marks before a quote, a keyword or an identifier. -/
def scanWord (first : Char) (rest : List Char) : Lexeme :=
  let word := first :: rest.takeWhile isIdentPart
  let plain : Lexeme :=
    match Keyword.ofSpelling? (String.ofList word) with
    | some keyword => .whole (.keyword keyword) word
    | none => .whole .ident word
  match rest.dropWhile isIdentPart with
  | quote :: _ =>
    if isQuote quote && word.length ≤ 2 && word.all isStringMark then
      .opening (word ++ [quote]) quote
    else plain
  | [] => plain

def scanSymbol? (chars : List Char) : Option Lexeme :=
  (Symbol.all.find? (·.spelling.toList.isPrefixOf chars)).map fun mark =>
    .whole (.symbol mark) mark.spelling.toList

/-- The lexeme starting with `first`; a character that starts nothing is an error by itself. -/
def scanLexeme (first : Char) (rest : List Char) : Lexeme :=
  if isIdentStart first then scanWord first rest
  else if isDigit first then scanNumber first rest
  else if isQuote first then .opening [first] first
  else if first = '#' then
    .whole .comment (first :: rest.takeWhile fun c => c ≠ '\r' && c ≠ '\n')
  else if first = '\n' then .whole .newline [first]
  else
    match first, rest with
    | '\r', '\n' :: _ => .whole .newline ['\r', '\n']
    | '.', digit :: after =>
      if isDigit digit then
        let fraction := after.takeWhile isDigitOrGroup
        let exponent := exponentPart (after.dropWhile isDigitOrGroup)
        .whole .float ('.' :: digit :: (fraction ++ exponent))
      else .whole (.symbol .dot) ['.']
    | _, _ => (scanSymbol? (first :: rest)).getD (.whole .error [first])

/-- How a string literal is delimited and whether backslashes stand for themselves. -/
structure StringStyle where
  quote : Char
  triple : Bool
  raw : Bool

/-- The body of a string literal, and whether the closing quote was found. -/
structure StringBody where
  content : List Char
  length : Nat
  closed : Bool

def StringBody.prepend (decoded : List Char) (read : Nat) (body : StringBody) : StringBody :=
  { body with content := decoded ++ body.content, length := body.length + read }

/-- What a backslash followed by `c` stands for. -/
def unescape (raw : Bool) (c : Char) : List Char :=
  if raw then ['\\', c]
  else
    match c with
    | 'n' => ['\n']
    | 't' => ['\t']
    | 'r' => ['\r']
    | '0' => ['\x00']
    | '\\' => ['\\']
    | '\'' => ['\'']
    | '"' => ['"']
    | '\n' => []
    | other => ['\\', other]

def StringStyle.body (style : StringStyle) : List Char → StringBody
  | [] => ⟨[], 0, false⟩
  | ['\\'] => ⟨[], 1, false⟩
  | '\\' :: c :: rest => (style.body rest).prepend (unescape style.raw c) 2
  | c :: rest =>
    if c = style.quote then
      if style.triple then
        if [style.quote, style.quote].isPrefixOf rest then ⟨[], 3, true⟩
        else (style.body rest).prepend [c] 1
      else ⟨[], 1, true⟩
    else if c = '\n' && !style.triple then ⟨[], 0, false⟩
    else (style.body rest).prepend [c] 1

end TwoTier.Token
