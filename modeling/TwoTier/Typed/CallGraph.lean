import TwoTier.Typed.Body

namespace TwoTier.Typed

/-- Follows edges from pending vertices, the last ones of the order. Each unit of fuel settles
one. -/
def explore (next : Nat → List Nat) : Nat → (order pending : List Nat) → List Nat
  | 0, order, _ => order
  | _ + 1, order, [] => order
  | fuel + 1, order, vertex :: pending =>
    let fresh := (next vertex).filter fun other => !order.contains other
    explore next fuel (order ++ fresh) (pending ++ fresh)

/-- Takes vertices from a stack, past those seen already, until the target is met. Each unit of fuel
takes one. -/
def meets (next : Nat → List Nat) (target : Nat) : Nat → (stack seen : List Nat) → Bool
  | 0, _, _ => false
  | _ + 1, [], _ => false
  | fuel + 1, vertex :: stack, seen =>
    if vertex = target then true
    else if seen.contains vertex then meets next target fuel stack seen
    else meets next target fuel ((next vertex).reverse ++ stack) (vertex :: seen)

/-- What a stack leads to and what was seen already, the last one met first. -/
def gather (next : Nat → List Nat) : Nat → (stack seen : List Nat) → List Nat
  | 0, _, seen => seen
  | _ + 1, [], seen => seen
  | fuel + 1, vertex :: stack, seen =>
    if seen.contains vertex then gather next fuel stack seen
    else gather next fuel ((next vertex).reverse ++ stack) (vertex :: seen)

namespace Body

def calleesOf (body : Body) (index : RoutineIndex) : List RoutineIndex :=
  (body.routine index).callees

/-- The routines that the root can still reach, the root first. -/
def reachable (body : Body) : List RoutineIndex :=
  explore body.calleesOf body.routines.length [0] [0]

/-- Each routine puts its callees on a stack at most once. -/
def stackFuel (body : Body) : Nat := body.routines.length * (body.routines.length + 1)

/-- Whether a routine can reach itself through calls. The callee put last on the stack is taken
first. -/
def isRecursive (body : Body) (index : RoutineIndex) : Bool :=
  meets body.calleesOf index body.stackFuel (body.calleesOf index).reverse []

def callPurity (body : Body) (index : RoutineIndex) : Purity :=
  (gather body.calleesOf body.stackFuel (body.calleesOf index).reverse [index]).foldr
    (fun other purity => purity.join (body.routine other).purity) .pure

/-- Arrays that a routine passes where its callees are known to store. -/
def passedToStores (stored : List (List Nat)) (routine : Routine) : List LocalId :=
  (Stmt.blockExprNodes routine.body).flatMap fun
    | .call callee _ args =>
      args.zipIdx.filterMap fun
        | (.array id, position) => if position ∈ stored.getD callee [] then some id else none
        | (.scalar _, _) => none
    | _ => []

/-- The parameter positions that each routine stores into, given those of its callees. -/
def storedStep (body : Body) (stored : List (List Nat)) : List (List Nat) :=
  body.routines.map fun routine =>
    routine.paramPositions (Stmt.storedArrays routine.body ++ passedToStores stored routine)

def storedFrom (body : Body) : Nat → List (List Nat) → List (List Nat)
  | 0, stored => stored
  | fuel + 1, stored =>
    let next := body.storedStep stored
    if next = stored then stored else storedFrom body fuel next

/-- The positions of root parameters whose arrays a call may store into. Each round before the last
finds a new position, so there are no more rounds than parameters. -/
def storedParams (body : Body) : List Nat :=
  let rounds := (body.routines.map (·.params.length)).foldl (· + ·) 0 + 1
  (body.storedFrom rounds (body.routines.map fun _ => [])).getD 0 []

end Body
end TwoTier.Typed
