import TwoTier.Interp.Call
import TwoTier.Surface.Reading

/-! Loaded programs. Loading again keeps the old program if anything goes wrong. -/

namespace TwoTier.Interp

/-- What `__name__` is bound to while a program is loaded as a library. -/
def libraryName : String := "__adrenaline__"

/-- What `__name__` is bound to while a program is run as the main one. -/
def mainName : String := "__main__"

inductive LoadFault where
  | unreadable (problems : List Surface.Problem)
  | raised (exception : Exception)
  | exhausted

def LoadFault.message : LoadFault → String
  | unreadable problems =>
    "failed to parse program: " ++ (problems.head?.map (·.message)).getD "unknown error"
  | raised exception => "module initialization failed: " ++ exception.text
  | exhausted => "module initialization does not end"

/-- Iterations granted to each loop of a program. -/
def loopAllowance : Nat := Nat.pow 2 60

structure Image where
  program : Program
  heap : Heap
  globals : Table Value
  output : String

/-- A failed load; objects and output made before the failure stay. -/
structure LoadFailure where
  fault : LoadFault
  heap : Heap
  output : String

/-- Reads a program and runs its module body beside the objects and output there are. -/
def Image.load (source : String) (maxDepth : Nat) (heap : Heap) (output : String) :
    Except LoadFailure Image :=
  match Surface.readModule source with
  | .error problems => .error ⟨.unreadable problems, heap, output⟩
  | .ok module =>
    let program := Program.ofModule module
    let world : World Unit := ⟨heap, [("__name__", .str libraryName)], output, ()⟩
    let calls := callsAt program loopAllowance .direct maxDepth
    match runModule program loopAllowance calls world with
    | .ok _ world => .ok ⟨program, world.heap, world.globals, world.output⟩
    | .raised exception world => .error ⟨.raised exception, world.heap, world.output⟩
    | .exhausted => .error ⟨.exhausted, heap, output⟩

/-- Runs the module body again as the main program, with calls carried out as given. -/
def runMain {τ : Type} (program : Program) (calls : Calls τ) : Run (World τ) Unit := fun world =>
  let restore (world : World τ) : World τ := world.setGlobal "__name__" (.str libraryName)
  match runModule program loopAllowance calls (world.setGlobal "__name__" (.str mainName)) with
  | .ok _ world => .ok () (restore world)
  | .raised exception world => .raised exception (restore world)
  | .exhausted => .exhausted

structure Session where
  program : Program
  world : World Unit
  maxDepth : Nat

namespace Session

def start (source : String) (maxDepth : Nat) : Except LoadFault Session :=
  match Image.load source maxDepth .empty "" with
  | .ok image => .ok ⟨image.program, ⟨image.heap, image.globals, image.output, ()⟩, maxDepth⟩
  | .error failure => .error failure.fault

def calls (session : Session) : Calls Unit :=
  callsAt session.program loopAllowance .direct session.maxDepth

def call (session : Session) (name : String) (args : List Value) : Result (World Unit) Value :=
  session.calls.function name args session.world

def main (session : Session) : Result (World Unit) Unit :=
  runMain session.program session.calls session.world

def takeOutput (session : Session) : String × Session :=
  (session.world.output, { session with world := { session.world with output := "" } })

/-- Loads a new version; a failure leaves the old one in place. -/
def reload (session : Session) (source : String) : Option LoadFault × Session :=
  let world := session.world
  match Image.load source session.maxDepth world.heap world.output with
  | .ok image =>
    (none, { session with
      program := image.program
      world := ⟨image.heap, image.globals, image.output, ()⟩ })
  | .error failure =>
    (some failure.fault,
      { session with world := { world with heap := failure.heap, output := failure.output } })

end Session
end TwoTier.Interp
