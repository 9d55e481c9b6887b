/-! The part of TOML that settings can be written in. Other values are refused while reading. -/

namespace TwoTier

inductive Toml where
  | text (value : String)
  | integer (value : Int)
  | boolean (value : Bool)
  | emptyList
  | table (entries : List (String × Toml))

namespace Toml

def isSpace (c : Char) : Bool := c = ' ' || c = '\t'

def skipSpace (chars : List Char) : List Char := chars.dropWhile isSpace

/-- Characters that may stand in comments and on a line of a string. -/
def isLineChar (c : Char) : Bool := c = '\t' || (0x20 ≤ c.toNat && c.toNat ≠ 0x7f)

/-- A line feed, with or without a carriage return. -/
def lineBreak? : List Char → Option (List Char)
  | '\n' :: rest => some rest
  | '\r' :: '\n' :: rest => some rest
  | _ => none

/-- The rest after the blanks and the comment at the end of a line. -/
def skipComment (chars : List Char) : List Char :=
  match skipSpace chars with
  | '#' :: rest => rest.dropWhile isLineChar
  | rest => rest

/-- The rest after the end of a line, which may be the end of the text. -/
def lineEnd? (chars : List Char) : Option (List Char) :=
  match skipComment chars with
  | [] => some []
  | rest => lineBreak? rest

def isBareKeyChar (c : Char) : Bool := c.isAlphanum || c = '_' || c = '-'

def hexDigit? (c : Char) : Option Nat :=
  if '0' ≤ c ∧ c ≤ '9' then some (c.toNat - '0'.toNat)
  else if 'a' ≤ c ∧ c ≤ 'f' then some (c.toNat - 'a'.toNat + 10)
  else if 'A' ≤ c ∧ c ≤ 'F' then some (c.toNat - 'A'.toNat + 10)
  else none

/-- The character with a number written in hexadecimal digits. -/
def charOfHex? (digits : List Char) : Option Char := do
  let code ← digits.foldlM (fun n c => (hexDigit? c).map (n * 16 + ·)) 0
  if code.isValidChar then some (Char.ofNat code) else none

/-- An escape sequence after its backslash. -/
def escape? : List Char → Option (Char × List Char)
  | 'b' :: rest => some ('\x08', rest)
  | 't' :: rest => some ('\t', rest)
  | 'n' :: rest => some ('\n', rest)
  | 'f' :: rest => some ('\x0c', rest)
  | 'r' :: rest => some ('\r', rest)
  | '"' :: rest => some ('"', rest)
  | '\\' :: rest => some ('\\', rest)
  | 'u' :: rest =>
    if rest.length < 4 then none else (charOfHex? (rest.take 4)).map fun c => (c, rest.drop 4)
  | 'U' :: rest =>
    if rest.length < 8 then none else (charOfHex? (rest.take 8)).map fun c => (c, rest.drop 8)
  | _ => none

/-- The body of a string on one line, after its opening quote. -/
def lineString? (quote : Char) : Nat → List Char → Option (List Char × List Char)
  | 0, _ => none
  | fuel + 1, chars =>
    match chars with
    | [] => none
    | c :: rest =>
      if c = quote then some ([], rest)
      else if c = '\\' ∧ quote = '"' then do
        let (escaped, rest) ← escape? rest
        let (body, rest) ← lineString? quote fuel rest
        some (escaped :: body, rest)
      else if isLineChar c then do
        let (body, rest) ← lineString? quote fuel rest
        some (c :: body, rest)
      else none

def skipBlankLines : Nat → List Char → List Char
  | 0, chars => chars
  | fuel + 1, chars =>
    let rest := skipSpace chars
    match lineBreak? rest with
    | some rest => skipBlankLines fuel rest
    | none => rest

/-- The rest after a backslash at the end of a line: the next character that is not blank. -/
def foldedLine? (chars : List Char) : Option (List Char) := do
  let rest ← lineBreak? (skipSpace chars)
  some (skipBlankLines rest.length rest)

/-- The body of a string over several lines, up to two quotes before the closing ones included. -/
def blockString? (quote : Char) : Nat → List Char → Option (List Char × List Char)
  | 0, _ => none
  | fuel + 1, chars =>
    match chars with
    | [] => none
    | c :: rest =>
      if c = quote ∧ rest.take 2 = [quote, quote] then
        let extra := ((rest.drop 2).takeWhile (· = quote)).length
        if extra ≤ 2 then some (List.replicate extra quote, rest.drop (2 + extra)) else none
      else if c = '\\' ∧ quote = '"' then
        match foldedLine? rest with
        | some rest => blockString? quote fuel rest
        | none => do
          let (escaped, rest) ← escape? rest
          let (body, rest) ← blockString? quote fuel rest
          some (escaped :: body, rest)
      else
        match lineBreak? chars with
        | some rest => do
          let (body, rest) ← blockString? quote fuel rest
          some ('\n' :: body, rest)
        | none =>
          if isLineChar c then do
            let (body, rest) ← blockString? quote fuel rest
            some (c :: body, rest)
          else none

def string? (chars : List Char) : Option (String × List Char) := do
  let quote ← chars.head?
  if quote ≠ '"' ∧ quote ≠ '\'' then none
  else if chars.take 3 = [quote, quote, quote] then
    let inside := chars.drop 3
    let (body, rest) ← blockString? quote (chars.length + 1) ((lineBreak? inside).getD inside)
    some (String.ofList body, rest)
  else
    let (body, rest) ← lineString? quote (chars.length + 1) (chars.drop 1)
    some (String.ofList body, rest)

/-- One part of a key: bare, or a string on one line. -/
def simpleKey? (chars : List Char) : Option (String × List Char) :=
  match chars with
  | '"' :: rest | '\'' :: rest => do
    let quote ← chars.head?
    let (body, rest) ← lineString? quote (rest.length + 1) rest
    some (String.ofList body, rest)
  | _ =>
    let key := chars.takeWhile isBareKeyChar
    if key.isEmpty then none else some (String.ofList key, chars.dropWhile isBareKeyChar)

def key? : Nat → List Char → Option (List String × List Char)
  | 0, _ => none
  | fuel + 1, chars => do
    let (first, rest) ← simpleKey? chars
    match skipSpace rest with
    | '.' :: more =>
      let (others, rest) ← key? fuel (skipSpace more)
      some (first :: others, rest)
    | _ => some ([first], rest)

/-- The number of a run of digits in which single underscores may divide them. -/
def digits? (base : Nat) (run : List Char) : Option Nat :=
  let divided := run.splitOn '_'
  if divided.any (·.isEmpty) then none
  else
    divided.flatten.foldlM (fun n c => do
      let digit ← hexDigit? c
      if digit < base then some (n * base + digit) else none) 0

def integer? (run : List Char) : Option Int :=
  let value : Option Int :=
    match run with
    | '0' :: 'x' :: rest => (digits? 16 rest).map fun n => (n : Int)
    | '0' :: 'o' :: rest => (digits? 8 rest).map fun n => (n : Int)
    | '0' :: 'b' :: rest => (digits? 2 rest).map fun n => (n : Int)
    | _ =>
      let (negative, rest) : Bool × List Char :=
        match run with
        | '-' :: rest => (true, rest)
        | '+' :: rest => (false, rest)
        | rest => (false, rest)
      if rest.length > 1 ∧ rest.head? = some '0' then none
      else (digits? 10 rest).map fun n => if negative then -(n : Int) else n
  value.filter fun i => Int64.minValue.toInt ≤ i && i ≤ Int64.maxValue.toInt

/-- Characters of an integer or a truth value. -/
def isScalarChar (c : Char) : Bool := c.isAlphanum || c = '_' || c = '-' || c = '+'

def scalar? (run : List Char) : Option Toml :=
  if run = "true".toList then some (.boolean true)
  else if run = "false".toList then some (.boolean false)
  else (integer? run).map .integer

/-- Blanks, comments and line breaks. -/
def skipLines : Nat → List Char → List Char
  | 0, chars => chars
  | fuel + 1, chars =>
    let rest := skipComment chars
    match lineBreak? rest with
    | some rest => skipLines fuel rest
    | none => rest

/-- The entries of an inline table after its opening brace, with at least one entry. -/
def inlineEntries? (value : List Char → Option (Toml × List Char)) : Nat → List Char →
    Option (List (String × Toml) × List Char)
  | 0, _ => none
  | fuel + 1, chars => do
    let (key, rest) ← simpleKey? (skipSpace chars)
    match skipSpace rest with
    | '=' :: rest =>
      let (item, rest) ← value (skipSpace rest)
      match skipSpace rest with
      | '\x7d' :: rest => some ([(key, item)], rest)
      | ',' :: rest =>
        let (others, rest) ← inlineEntries? value fuel rest
        some ((key, item) :: others, rest)
      | _ => none
    | _ => none

def value? : Nat → List Char → Option (Toml × List Char)
  | 0, _ => none
  | fuel + 1, chars =>
    match chars with
    | '"' :: _ | '\'' :: _ => (string? chars).map fun (value, rest) => (.text value, rest)
    | '[' :: rest =>
      match skipLines (rest.length + 1) rest with
      | ']' :: rest => some (.emptyList, rest)
      | _ => none
    | '\x7b' :: rest =>
      match skipSpace rest with
      | '\x7d' :: rest => some (.table [], rest)
      | rest => do
        let (entries, rest) ← inlineEntries? (value? fuel) fuel rest
        if (entries.map (·.1)).Nodup then some (.table entries, rest) else none
    | _ =>
      (scalar? (chars.takeWhile isScalarChar)).map fun value =>
        (value, chars.dropWhile isScalarChar)

inductive Line where
  | empty
  | header (path : List String)
  | entry (path : List String) (value : Toml)

def line? (chars : List Char) : Option (Line × List Char) := do
  match skipSpace chars with
  | '[' :: rest =>
    let (path, rest) ← key? (rest.length + 1) (skipSpace rest)
    match skipSpace rest with
    | ']' :: rest => some (.header path, ← lineEnd? rest)
    | _ => none
  | start =>
    match lineEnd? start with
    | some rest => some (.empty, rest)
    | none =>
      let (path, rest) ← key? (start.length + 1) start
      match skipSpace rest with
      | '=' :: rest =>
        let (value, rest) ← value? (rest.length + 1) (skipSpace rest)
        some (.entry path value, ← lineEnd? rest)
      | _ => none

def lines? : Nat → List Char → Option (List Line)
  | 0, _ => none
  | fuel + 1, chars =>
    if chars.isEmpty then some []
    else do
      let (first, rest) ← line? chars
      some (first :: (← lines? fuel rest))

/-- A table header, or a value with the header it stands under and its path below it. -/
inductive Item where
  | header (path : List String)
  | entry (under below : List String) (value : Toml)

def items (under : List String) : List Line → List Item
  | [] => []
  | .empty :: rest => items under rest
  | .header path :: rest => .header path :: items path rest
  | .entry path value :: rest => .entry under path value :: items under rest

/-- Whether two items cannot stand in one document: the same table or value twice, a value with
something inside it, or a header for a table that a dotted key has made. -/
def clash : Item → Item → Bool
  | .header p, .header q => p == q
  | .header p, .entry under below _ | .entry under below _, .header p =>
    (under ++ below).isPrefixOf p || (p.isPrefixOf (under ++ below) && !p.isPrefixOf under)
  | .entry u b _, .entry v c _ => (u ++ b).isPrefixOf (v ++ c) || (v ++ c).isPrefixOf (u ++ b)

def insert (path : List String) (value : Toml) (entries : List (String × Toml)) :
    List (String × Toml) :=
  match path with
  | [] => entries
  | [key] => if entries.any (·.1 == key) then entries else entries ++ [(key, value)]
  | key :: rest =>
    match entries.find? (·.1 == key) with
    | some (_, .table inner) =>
      entries.map fun e => if e.1 == key then (key, .table (insert rest value inner)) else e
    | some _ => entries
    | none => entries ++ [(key, .table (insert rest value []))]

def addItem (entries : List (String × Toml)) : Item → List (String × Toml)
  | .header path => insert path (.table []) entries
  | .entry under below value => insert (under ++ below) value entries

def read? (source : String) : Option (List (String × Toml)) := do
  let chars :=
    match source.toList with
    | '\ufeff' :: rest => rest
    | chars => chars
  let found := items [] (← lines? (chars.length + 1) chars)
  if (found.zipIdx.any fun (a, i) => (found.drop (i + 1)).any (clash a)) then none
  else some (found.foldl addItem [])

end Toml
end TwoTier
