namespace TwoTier.Dispatch

structure Tally where
  calls : Nat := 0
  compiledCalls : Nat := 0
  /-- calls answered by the interpreter, those that compiled code gave up included -/
  interpretedCalls : Nat := 0
  /-- runs of compiled code that were given up -/
  deopts : Nat := 0
  compileAttempts : Nat := 0
deriving DecidableEq, Repr, Inhabited

namespace Tally

def countCall (tally : Tally) : Tally := { tally with calls := tally.calls + 1 }

def countCompiled (tally : Tally) : Tally :=
  { tally with compiledCalls := tally.compiledCalls + 1 }

def countInterpreted (tally : Tally) : Tally :=
  { tally with interpretedCalls := tally.interpretedCalls + 1 }

def countDeopt (tally : Tally) : Tally := { tally with deopts := tally.deopts + 1 }

def countAttempt (tally : Tally) : Tally :=
  { tally with compileAttempts := tally.compileAttempts + 1 }

end Tally
end TwoTier.Dispatch
