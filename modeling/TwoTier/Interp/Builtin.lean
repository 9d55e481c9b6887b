import TwoTier.Interp.Item
import TwoTier.Text.Blank

namespace TwoTier.Interp

def mathAttribute? (name : String) : Option Value :=
  match name with
  | "pi" => some (.float 3.141592653589793)
  | "e" => some (.float 2.718281828459045)
  | "inf" => some (.float Binary64.infinity)
  | "nan" => some (.float (0.0 / 0.0))
  | _ => (MathFunction.ofName? name).map fun function => .builtin (.math function)

def mathAttribute (name : String) : Except Exception Value :=
  match mathAttribute? name with
  | some value => .ok value
  | none => .error (.missing ("module 'math' has no attribute '" ++ name ++ "'"))

/-- Between a least and a greatest number of arguments. -/
def checkCount (name : String) (args : List Value) (least most : Nat) : Except Exception Unit :=
  if args.length < least ∨ most < args.length then
    let expected := if least = most then toString least else toString least ++ " to " ++ toString most
    .error (.type (name ++ "() takes " ++ expected ++ " arguments (" ++ toString args.length ++
      " given)"))
  else .ok ()

def intArgument (name : String) (value : Value) : Except Exception Int64 :=
  match value.int? with
  | some i => .ok i
  | none =>
    .error (.type ("'" ++ value.typeName ++ "' object cannot be interpreted as an integer in " ++
      name ++ "()"))

def floatArgument (name : String) (value : Value) : Except Exception Float :=
  match value.float? with
  | some x => .ok x
  | none =>
    .error (.type (name ++ "() argument must be a real number, not '" ++ value.typeName ++ "'"))

def makeRange (args : List Value) : Except Exception Value := do
  checkCount "range" args 1 3
  let bounds ← args.mapM (intArgument "range")
  let range : RangeValue :=
    match bounds with
    | [start, stop, step] => ⟨start, stop, step⟩
    | [start, stop] => ⟨start, stop, 1⟩
    | [stop] => ⟨0, stop, 1⟩
    | _ => ⟨0, 0, 1⟩
  if range.step = 0 then .error (.value "range() arg 3 must not be zero") else .ok (.range range)

def length (heap : Heap) (value : Value) : Except Exception Int64 :=
  match value with
  | .list address | .tuple address => .ok (itemsLength (heap.items address))
  | .dict address => .ok (itemsLength (heap.entries address))
  | .str text => .ok (Int64.ofNat text.length)
  | .range range => .ok range.length
  | other => .error (.type ("object of type '" ++ other.typeName ++ "' has no len()"))

def absolute (value : Value) : Run Heap Value :=
  match value with
  | .int i => checked (Word.abs? i)
  | .bool flag => return .int (if flag then 1 else 0)
  | .float x => return .float x.abs
  | other => Run.raise (.type ("bad operand type for abs(): '" ++ other.typeName ++ "'"))

/-- The first of the candidates that no later one beats; a NaN never beats anything. -/
def bestOf (name : String) (wanted : Ordering) (best : Value) :
    List Value → Except Exception Value
  | [] => .ok best
  | candidate :: rest =>
    if !(candidate.isNumber && best.isNumber) then
      .error (.type (name ++ "() between instances of '" ++ candidate.typeName ++ "' and '" ++
        best.typeName ++ "'"))
    else if candidate.compareNumbers? best = some wanted then bestOf name wanted candidate rest
    else bestOf name wanted best rest

def extreme (name : String) (wanted : Ordering) (args : List Value) : Run Heap Value := do
  let candidates ←
    match args with
    | [single] => do pure (← iterate single).toList
    | several => pure several
  match candidates with
  | [] => Run.raise (.value (name ++ "() arg is an empty sequence"))
  | first :: rest => Run.ofExcept (bestOf name wanted first rest)

/-- The integer that a text gives: an optional sign and digits. -/
def readInt? (text : String) : Option Int64 :=
  let read (digits : List Char) : Option Nat :=
    if digits.isEmpty || !digits.all (fun c => '0' ≤ c && c ≤ '9') then none
    else some (Decimal.natOfDigits digits)
  match Text.trim text.toList with
  | '-' :: digits => (read digits).bind fun n => Word.fit? (-(n : Int))
  | '+' :: digits => (read digits).bind fun n => Word.fit? n
  | digits => (read digits).bind fun n => Word.fit? n

/-- The float that a text gives: a decimal, or a name of an infinity or a NaN. -/
def readFloat? (text : String) : Option Float :=
  let lower := (Text.trim text.toList).map Char.toLower
  match String.ofList lower with
  | "inf" | "+inf" | "infinity" | "+infinity" => some Binary64.infinity
  | "-inf" | "-infinity" => some (-Binary64.infinity)
  | "nan" | "+nan" | "-nan" => some (0.0 / 0.0)
  | _ => Decimal.read? lower

def toInt (value : Value) : Except Exception Value :=
  match value with
  | .int i => .ok (.int i)
  | .bool flag => .ok (.int (if flag then 1 else 0))
  | .float x =>
    match Binary64.toWord x with
    | .ok i => .ok (.int i)
    | .error .domain => .error (.value "cannot convert float NaN to integer")
    | .error _ =>
      .error (.overflow "cannot convert float infinity or out-of-range float to integer")
  | .str text =>
    match readInt? text with
    | some i => .ok (.int i)
    | none => .error (.value ("invalid literal for int() with base 10: '" ++ text ++ "'"))
  | other =>
    .error (.type ("int() argument must be a string or a number, not '" ++ other.typeName ++ "'"))

def toFloat (value : Value) : Except Exception Value :=
  match value with
  | .str text =>
    match readFloat? text with
    | some x => .ok (.float x)
    | none => .error (.value ("could not convert string to float: '" ++ text ++ "'"))
  | other => (floatArgument "float" other).map .float

def addAll (total : Value) : List Value → Run Heap Value
  | [] => return total
  | item :: rest => do addAll (← add total item) rest

def mathCall (function : MathFunction) (args : List Value) : Except Exception Value := do
  checkCount function.name args 1 1
  let argument := args.headD .none
  let domain : Except Exception Value := .error (.value "math domain error")
  let rounded (round : Float → Float) : Except Exception Value :=
    match argument with
    | .int i => .ok (.int i)
    | other => do
      match Binary64.toWord (round (← floatArgument function.name other)) with
      | .ok i => .ok (.int i)
      | .error fault => .error (.ofFault fault)
  match function with
  | .floor => rounded Float.floor
  | .ceil => rounded Float.ceil
  | .sqrt =>
    let x ← floatArgument function.name argument
    if x < 0 then domain else .ok (.float x.sqrt)
  | .exp =>
    let x ← floatArgument function.name argument
    let result := x.exp
    if result.isInf && x.isFinite then .error (.overflow "math range error")
    else .ok (.float result)
  | .log =>
    let x ← floatArgument function.name argument
    if x ≤ 0 then domain else .ok (.float x.log)
  | .sin =>
    let x ← floatArgument function.name argument
    if x.isInf then domain else .ok (.float x.sin)
  | .cos =>
    let x ← floatArgument function.name argument
    if x.isInf then domain else .ok (.float x.cos)
  | .fabs => return .float (← floatArgument function.name argument).abs
  | .isnan => return .bool (← floatArgument function.name argument).isNaN

def callBuiltin (builtin : Builtin) (args : List Value) : Run Heap Value := do
  let heap ← Run.get
  let argument := args.headD .none
  let atMostOne : Run Heap Unit := Run.ofExcept (checkCount builtin.name args 0 1)
  match builtin with
  | .range => Run.ofExcept (makeRange args)
  | .len =>
    Run.ofExcept (checkCount builtin.name args 1 1)
    return .int (← Run.ofExcept (length heap argument))
  | .abs =>
    Run.ofExcept (checkCount builtin.name args 1 1)
    absolute argument
  | .min => extreme builtin.name .lt args
  | .max => extreme builtin.name .gt args
  | .int =>
    atMostOne
    if args.isEmpty then return .int 0 else Run.ofExcept (toInt argument)
  | .float =>
    atMostOne
    if args.isEmpty then return .float 0.0 else Run.ofExcept (toFloat argument)
  | .bool =>
    atMostOne
    return .bool (!args.isEmpty && heap.isTruthy argument)
  | .sum =>
    Run.ofExcept (checkCount builtin.name args 1 2)
    addAll (args.getD 1 (.int 0)) (← iterate argument).toList
  | .str =>
    atMostOne
    return .str (if args.isEmpty then "" else heap.text argument)
  | .list =>
    atMostOne
    if args.isEmpty then newList #[] else newList (← iterate argument)
  | .print => Run.raise (.type "print() needs an output")
  | .math function => Run.ofExcept (mathCall function args)

end TwoTier.Interp
