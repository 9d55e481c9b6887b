import TwoTier.Interp.Value

/-! Runs of a program. One that needs more loop iterations than it was granted is exhausted. -/

namespace TwoTier.Interp

structure Exception where
  kind : String
  message : String
deriving DecidableEq, Repr

namespace Exception

def overflow (text : String) : Exception := ⟨"OverflowError", text⟩
def zeroDivision (text : String) : Exception := ⟨"ZeroDivisionError", text⟩
def index (text : String) : Exception := ⟨"IndexError", text⟩
def key (text : String) : Exception := ⟨"KeyError", text⟩
def type (text : String) : Exception := ⟨"TypeError", text⟩
def value (text : String) : Exception := ⟨"ValueError", text⟩
def missing (text : String) : Exception := ⟨"AttributeError", text⟩
def importing (text : String) : Exception := ⟨"ImportError", text⟩

def unknownName (name : String) : Exception := ⟨"NameError", "name '" ++ name ++ "' is not defined"⟩

def unboundLocal (name : String) : Exception :=
  ⟨"UnboundLocalError", "local variable '" ++ name ++ "' referenced before assignment"⟩

def recursion : Exception := ⟨"RecursionError", "maximum recursion depth exceeded"⟩

def ofFault (fault : ArithFault) : Exception :=
  match fault with
  | .overflow => overflow fault.message
  | .zeroDivision => zeroDivision fault.message
  | .domain | .negativeShift => value fault.message

def text (exception : Exception) : String := exception.kind ++ ": " ++ exception.message

def isInstance (exception : Exception) (className : String) : Bool :=
  exception.kind == className || className == "Exception" || className == "BaseException" ||
    match className with
    | "ArithmeticError" => exception.kind ∈ ["OverflowError", "ZeroDivisionError"]
    | "LookupError" => exception.kind ∈ ["IndexError", "KeyError"]
    | "NameError" => exception.kind == "UnboundLocalError"
    | "RuntimeError" => exception.kind == "RecursionError"
    | _ => false

end Exception

inductive Result (σ α : Type) where
  | ok (value : α) (state : σ)
  | raised (exception : Exception) (state : σ)
  | exhausted

/-- A run over states `σ`. An exception keeps the state in which it was raised. -/
def Run (σ α : Type) : Type := σ → Result σ α

namespace Run

variable {σ α β : Type}

@[always_inline, inline]
protected def pure (value : α) : Run σ α := fun state => .ok value state

@[always_inline, inline]
protected def bind (run : Run σ α) (next : α → Run σ β) : Run σ β := fun state =>
  match run state with
  | .ok value state => next value state
  | .raised exception state => .raised exception state
  | .exhausted => .exhausted

instance : Monad (Run σ) where
  pure := Run.pure
  bind := Run.bind

@[always_inline, inline]
def raise (exception : Exception) : Run σ α := fun state => .raised exception state

def exhaust : Run σ α := fun _ => .exhausted

@[always_inline, inline]
def get : Run σ σ := fun state => .ok state state

@[always_inline, inline]
def modify (change : σ → σ) : Run σ Unit := fun state => .ok () (change state)

@[always_inline, inline]
def ofExcept : Except Exception α → Run σ α
  | .ok value => Run.pure value
  | .error exception => raise exception

@[always_inline, inline]
def ofArith : Except ArithFault α → Run σ α
  | .ok value => Run.pure value
  | .error fault => raise (.ofFault fault)

end Run

/-- All that a run can change. The last part is whatever is kept for routing calls. -/
structure World (τ : Type) where
  heap : Heap
  globals : Table Value
  output : String
  tier : τ

namespace World

variable {τ α : Type}

/-- Runs on the heap alone. The world is taken apart first, so that nothing else refers to the
heap and it can be changed in place. -/
@[always_inline, inline]
def onHeap (run : Run Heap α) : Run (World τ) α := fun ⟨heap, globals, output, tier⟩ =>
  match run heap with
  | .ok value heap => .ok value ⟨heap, globals, output, tier⟩
  | .raised exception heap => .raised exception ⟨heap, globals, output, tier⟩
  | .exhausted => .exhausted

def setGlobal (world : World τ) (name : String) (value : Value) : World τ :=
  { world with globals := world.globals.set name value }

def print (text : String) : Run (World τ) Unit :=
  Run.modify fun world => { world with output := world.output ++ text }

end World
end TwoTier.Interp
