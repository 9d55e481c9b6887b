import TwoTier.Number.Binary64

/-! Decimal text of floats: the fewest digits that read back, and reading rounded once. -/

namespace TwoTier.Decimal

/-- `digits * 10 ^ exponent`. -/
structure Form where
  digits : Nat
  exponent : Int

/-- Ten raised to an exponent as a pair of numerator and denominator. -/
def tenPower (exponent : Int) : Nat × Nat :=
  if 0 ≤ exponent then (Nat.pow 10 exponent.toNat, 1) else (1, Nat.pow 10 (-exponent).toNat)

/-- The float nearest to a decimal. Decimals far out of range are settled by their size. -/
def Form.toFloat (form : Form) (negative : Bool) : Float :=
  let size := ((Nat.toDigits 10 form.digits).length : Int) + form.exponent
  if form.digits = 0 ∨ size < -400 then Binary64.withSign negative 0.0
  else if size > 400 then Binary64.withSign negative Binary64.infinity
  else
    let (num, den) := tenPower form.exponent
    Binary64.nearest negative (form.digits * num) den

/-- The reals that read back as one float, measured in quarters of its last place. -/
structure Basin where
  value : Nat
  low : Nat
  high : Nat
  closed : Bool
  /-- numerator and denominator of a quarter of the last place -/
  unit : Nat × Nat

def basin (x : Binary64.Scaled) : Basin :=
  let value := 4 * x.mantissa
  -- the next float below a power of two is only half as far away
  let low := if x.mantissa = Nat.pow 2 52 ∧ 0 < x.exponent then value - 1 else value - 2
  { value, low, high := value + 2, closed := x.mantissa % 2 = 0
    unit := (Nat.pow 2 x.exponent, Nat.pow 2 1076) }

/-- Whether a decimal reads back as the float of the basin. -/
def Basin.holds (b : Basin) (form : Form) : Bool :=
  let (num, den) := tenPower form.exponent
  let here := form.digits * num * b.unit.2
  let low := b.low * b.unit.1 * den
  let high := b.high * b.unit.1 * den
  if b.closed then low ≤ here && here ≤ high else low < here && here < high

/-- The nearer neighbour of the value on a decimal grid, if one reads back; halfway goes up. -/
def Basin.onGrid? (b : Basin) (exponent : Int) : Option Form :=
  let (num, den) := tenPower exponent
  let top := b.value * b.unit.1 * den
  let bottom := num * b.unit.2
  let below := top / bottom
  let down : Form := ⟨below, exponent⟩
  let up : Form := ⟨below + 1, exponent⟩
  let upNearer := bottom ≤ 2 * (top % bottom)
  match b.holds down && below != 0, b.holds up with
  | true, true => some (if upNearer then up else down)
  | true, false => some down
  | false, true => some up
  | false, false => none

/-- The decimal position of the leading digit: `10 ^ (magnitude - 1) ≤ value < 10 ^ magnitude`. -/
def Basin.magnitude (b : Basin) : Int :=
  let top := b.value * b.unit.1
  let bottom := b.unit.2
  if bottom ≤ top then (Nat.toDigits 10 (top / bottom)).length
  else
    -- `top / bottom` below one: count the zeros after the point
    let places := (Nat.toDigits 10 (bottom / top)).length
    if top * Nat.pow 10 (places - 1) < bottom then 1 - (places : Int) else 2 - (places : Int)

/-- Removes trailing zeros from the digits. -/
def Form.strip : Nat → Form → Form
  | 0, form => form
  | fuel + 1, form =>
    if form.digits ≠ 0 ∧ form.digits % 10 = 0 then
      Form.strip fuel ⟨form.digits / 10, form.exponent + 1⟩
    else form

/-- The fewest digits that read back as a finite positive magnitude; seventeen always do. -/
def shortest (x : Binary64.Scaled) : Form :=
  let b := basin x
  let magnitude := b.magnitude
  let found := (List.range 17).findSome? fun n => b.onGrid? (magnitude - (n + 1 : Nat))
  (found.getD ⟨x.mantissa, 0⟩).strip 400

/-- How floats are written: positional between two powers of ten, otherwise with an exponent. -/
structure Layout where
  /-- least exponent of the leading digit written positionally -/
  least : Int
  /-- first exponent of the leading digit that is no longer written positionally -/
  limit : Int
  /-- least number of digits of an exponent -/
  exponentWidth : Nat

/-- From `0.0001` up to below `10 ^ 16` positionally, else with a sign and two exponent digits. -/
def printed : Layout := ⟨-4, 16, 2⟩

private def padLeft (width : Nat) (text : String) : String :=
  String.ofList (List.replicate (width - text.length) '0') ++ text

def Form.positional (form : Form) : String :=
  let digits := Nat.toDigits 10 form.digits
  if 0 ≤ form.exponent then
    String.ofList (digits ++ List.replicate form.exponent.toNat '0') ++ ".0"
  else
    let places := (-form.exponent).toNat
    let padded := List.replicate (places + 1 - digits.length) '0' ++ digits
    String.ofList (padded.take (padded.length - places)) ++ "." ++
      String.ofList (padded.drop (padded.length - places))

def Form.scientific (layout : Layout) (form : Form) : String :=
  match Nat.toDigits 10 form.digits with
  | [] => ""
  | lead :: rest =>
    let exponent := form.exponent + rest.length
    let mantissa := if rest.isEmpty then String.ofList [lead] else String.ofList (lead :: '.' :: rest)
    let sign := if exponent < 0 then "-" else "+"
    mantissa ++ "e" ++ sign ++ padLeft layout.exponentWidth (toString exponent.natAbs)

def Layout.write (layout : Layout) (x : Float) : String :=
  if x.isNaN then "nan"
  else if x.isInf then (if x > 0 then "inf" else "-inf")
  else
    let sign := if Binary64.isNegative x then "-" else ""
    if x == 0 then sign ++ "0.0"
    else
      let form := shortest (Binary64.scaled x)
      let lead := form.exponent + ((Nat.toDigits 10 form.digits).length : Int) - 1
      if layout.least ≤ lead ∧ lead < layout.limit then sign ++ form.positional
      else sign ++ form.scientific layout

private def digitValue (c : Char) : Nat := c.toNat - '0'.toNat

private def isDecimalDigit (c : Char) : Bool := '0' ≤ c && c ≤ '9'

def natOfDigits (digits : List Char) : Nat :=
  digits.foldl (fun value c => value * 10 + digitValue c) 0

/-- An exponent part: a mark, an optional sign and digits up to the end of the text. -/
def readExponent? : List Char → Option Int
  | [] => some 0
  | mark :: rest =>
    if mark = 'e' ∨ mark = 'E' then
      let (negative, digits) : Bool × List Char :=
        match rest with
        | '-' :: digits => (true, digits)
        | '+' :: digits => (false, digits)
        | digits => (false, digits)
      if digits.isEmpty || !digits.all isDecimalDigit then none
      else
        let value : Int := natOfDigits digits
        some (if negative then -value else value)
    else none

/-- Digits with an optional point and exponent; at least one digit is needed. -/
def readForm? (chars : List Char) : Option Form :=
  let whole := chars.takeWhile isDecimalDigit
  let (fraction, after) : List Char × List Char :=
    match chars.dropWhile isDecimalDigit with
    | '.' :: rest => (rest.takeWhile isDecimalDigit, rest.dropWhile isDecimalDigit)
    | rest => ([], rest)
  if whole.isEmpty && fraction.isEmpty then none
  else (readExponent? after).map fun exponent =>
    ⟨natOfDigits (whole ++ fraction), exponent - fraction.length⟩

def read? (chars : List Char) : Option Float :=
  match chars with
  | '-' :: rest => (readForm? rest).map (·.toFloat true)
  | '+' :: rest => (readForm? rest).map (·.toFloat false)
  | rest => (readForm? rest).map (·.toFloat false)

end TwoTier.Decimal
