import Mathlib.Data.List.Nodup
import Mathlib.Data.List.Perm.Subperm
import Mathlib.Logic.Relation
import TwoTier.Proofs.Lanes.Acceptance
import TwoTier.Proofs.Passes.Calls
import TwoTier.Typed.CallGraph

/-! The searches over calls find exactly what paths of calls lead to. -/

namespace TwoTier.Typed

open Relation (ReflTransGen TransGen)

theorem length_le_of_below {vertices : List Nat} {count : Nat} (once : vertices.Nodup)
    (below : ∀ vertex ∈ vertices, vertex < count) : vertices.length ≤ count :=
  (List.subperm_of_subset once fun vertex member =>
    List.mem_range.2 (below vertex member)).length_le.trans_eq List.length_range

/-- A search under way: what was found begins with the starts, is found once and lies on paths from
them, and the edges of what is settled lead to what was found. -/
structure Search (next : Nat → List Nat) (count : Nat) (starts settled pending : List Nat) :
    Prop where
  begins : starts <+: settled ++ pending
  nodup : (settled ++ pending).Nodup
  inside : ∀ vertex ∈ settled ++ pending, vertex < count
  found : ∀ vertex ∈ settled ++ pending, ∃ start ∈ starts,
    ReflTransGen (fun source other => other ∈ next source) start vertex
  closed : ∀ vertex ∈ settled, ∀ other ∈ next vertex, other ∈ settled ++ pending

namespace Search

variable {next : Nat → List Nat} {count : Nat} {starts settled pending : List Nat}

section

variable (below : ∀ vertex, ∀ other ∈ next vertex, other < count)
  (once : ∀ vertex, (next vertex).Nodup)

include below once

/-- The next pending vertex is settled, and the ends of its edges that are new become pending. -/
theorem step (search : Search next count starts settled (vertex :: pending)) :
    Search next count starts (settled ++ [vertex]) (pending ++
      (next vertex).filter fun other => !(settled ++ vertex :: pending).contains other) := by
  have same (fresh : List Nat) : settled ++ [vertex] ++ (pending ++ fresh) =
      settled ++ vertex :: pending ++ fresh := by simp
  constructor
  · rw [same]
    exact search.begins.trans (List.prefix_append _ _)
  · rw [same]
    refine List.Nodup.append search.nodup ((once vertex).filter _) fun other known fresh => ?_
    simp_all
  · intro other member
    rw [same] at member
    obtain old | fresh := List.mem_append.1 member
    · exact search.inside other old
    · exact below vertex other (List.mem_filter.1 fresh).1
  · intro other member
    rw [same] at member
    obtain old | fresh := List.mem_append.1 member
    · exact search.found other old
    · obtain ⟨start, first, path⟩ := search.found vertex (by simp)
      exact ⟨start, first, path.tail (List.mem_filter.1 fresh).1⟩
  · intro source member other edge
    rw [same, List.mem_append]
    obtain old | here := List.mem_append.1 member
    · exact .inl (search.closed source old other edge)
    · obtain rfl := List.mem_singleton.1 here
      by_cases known : other ∈ settled ++ source :: pending
      · exact .inl known
      · exact .inr (List.mem_filter.2 ⟨edge, by simpa using known⟩)

/-- With fuel for every vertex that is not settled nothing stays pending. -/
theorem run {fuel : Nat} (enough : count ≤ fuel + settled.length)
    (search : Search next count starts settled pending) :
    Search next count starts (explore next fuel (settled ++ pending) pending) [] ∧
      ∀ more, explore next (fuel + more) (settled ++ pending) pending =
        explore next fuel (settled ++ pending) pending := by
  have ends (fuel : Nat) (order : List Nat) : explore next fuel order [] = order := by
    cases fuel <;> rfl
  induction fuel generalizing settled pending with
  | zero =>
    have fits := length_le_of_below search.nodup search.inside
    have none : pending = [] := List.length_eq_zero_iff.1 (by
      rw [List.length_append] at fits
      omega)
    subst none
    rw [List.append_nil]
    exact ⟨search, fun more => by rw [ends, ends]⟩
  | succ fuel ih =>
    cases pending with
    | nil =>
      rw [List.append_nil, ends]
      exact ⟨search, fun more => by rw [ends]⟩
    | cons vertex pending =>
      have step (fuel : Nat) :
          explore next (fuel + 1) (settled ++ vertex :: pending) (vertex :: pending) =
            explore next fuel (settled ++ [vertex] ++ (pending ++
              (next vertex).filter fun other => !(settled ++ vertex :: pending).contains other))
              (pending ++ (next vertex).filter fun other =>
                !(settled ++ vertex :: pending).contains other) := by
        simp [explore]
      have fewer : count ≤ fuel + (settled ++ [vertex]).length := by
        rw [List.length_append, List.length_singleton]
        omega
      obtain ⟨found, settles⟩ := ih fewer (search.step below once)
      rw [step]
      refine ⟨found, fun more => ?_⟩
      rw [Nat.add_right_comm, step]
      exact settles more

end

theorem mem_iff (search : Search next count starts settled []) {vertex : Nat} :
    vertex ∈ settled ↔ ∃ start ∈ starts,
      ReflTransGen (fun source other => other ∈ next source) start vertex := by
  constructor
  · intro member
    exact search.found vertex (by simpa using member)
  · rintro ⟨start, first, path⟩
    induction path with
    | refl => simpa using search.begins.subset first
    | tail _ edge ih => simpa using search.closed _ ih _ edge

end Search

/-- A search for a target under way: what lies on the stack was led to from the target, and what the
target and the vertices seen lead to lies on the stack or was seen. -/
structure Hunt (next : Nat → List Nat) (count target : Nat) (stack seen : List Nat) : Prop where
  once : seen.Nodup
  below : ∀ vertex ∈ stack ++ seen, vertex < count
  led : ∀ vertex ∈ stack, TransGen (fun source other => other ∈ next source) target vertex
  closed : ∀ vertex ∈ target :: seen, ∀ other ∈ next vertex, other ∈ stack ++ seen
  apart : target ∉ seen

namespace Hunt

variable {next : Nat → List Nat} {count target fuel : Nat} {stack seen : List Nat}

/-- A vertex that was seen before is dropped. -/
theorem skip (hunt : Hunt next count target (vertex :: stack) seen) (known : vertex ∈ seen) :
    Hunt next count target stack seen where
  once := hunt.once
  below other member := hunt.below other (.tail _ member)
  led other member := hunt.led other (.tail _ member)
  closed source member other edge := by
    obtain _ | ⟨_, kept⟩ := hunt.closed source member other edge
    · exact List.mem_append_right _ known
    · exact kept
  apart := hunt.apart

/-- A new vertex that is not the target is seen, and what it leads to comes on the stack. -/
theorem visit (below : ∀ vertex, ∀ other ∈ next vertex, other < count)
    (hunt : Hunt next count target (vertex :: stack) seen) (other : vertex ≠ target)
    (fresh : vertex ∉ seen) :
    Hunt next count target ((next vertex).reverse ++ stack) (vertex :: seen) := by
  have led := hunt.led vertex (.head _)
  constructor
  · exact List.nodup_cons.2 ⟨fresh, hunt.once⟩
  · intro found member
    have known := hunt.below found
    have reached := below vertex found
    grind
  · intro found member
    obtain new | old := List.mem_append.1 member
    · exact led.tail (List.mem_reverse.1 new)
    · exact hunt.led found (.tail _ old)
  · intro source member found edge
    have kept := hunt.closed source
    grind
  · have := hunt.apart
    grind

/-- With nothing left on the stack the target is not led to. -/
theorem not_met (hunt : Hunt next count target [] seen) :
    ¬ TransGen (fun source other => other ∈ next source) target target := by
  intro cycle
  have seen_of_path {vertex : Nat}
      (path : TransGen (fun source other => other ∈ next source) target vertex) :
      vertex ∈ seen := by
    induction path with
    | single edge => exact hunt.closed target (.head _) _ edge
    | tail _ edge ih => exact hunt.closed _ (.tail _ ih) _ edge
  exact hunt.apart (seen_of_path cycle)

/-- With fuel for the stack, and for the edges of what is not seen, the target is met exactly where
a path leads back to it. More fuel makes no difference. -/
theorem run (below : ∀ vertex, ∀ other ∈ next vertex, other < count)
    (few : ∀ vertex, (next vertex).length ≤ count) (hunt : Hunt next count target stack seen)
    (enough : stack.length + (count - seen.length) * count ≤ fuel) :
    (meets next target fuel stack seen = true ↔
      TransGen (fun source other => other ∈ next source) target target) ∧
    ∀ more, meets next target (fuel + more) stack seen = meets next target fuel stack seen := by
  have ends (fuel : Nat) (seen : List Nat) : meets next target fuel [] seen = false := by
    cases fuel <;> rfl
  induction fuel generalizing stack seen with
  | zero =>
    obtain rfl := List.length_eq_zero_iff.1 (by omega : stack.length = 0)
    refine ⟨?_, fun more => by rw [ends, ends]⟩
    simpa [ends] using hunt.not_met
  | succ fuel ih =>
    cases stack with
    | nil =>
      refine ⟨?_, fun more => by rw [ends, ends]⟩
      simpa [ends] using hunt.not_met
    | cons vertex stack =>
      simp only [Nat.add_right_comm fuel 1, meets]
      rw [List.length_cons] at enough
      by_cases met : vertex = target
      · simpa [met] using met ▸ hunt.led vertex (.head _)
      by_cases known : vertex ∈ seen
      · simpa [met, known] using ih (hunt.skip known) (by omega)
      · have visited := hunt.visit below met known
        have fits := length_le_of_below visited.once fun other member =>
          visited.below other (List.mem_append_right _ member)
        rw [List.length_cons] at fits
        -- the edges of the new vertex are paid for by the room that it takes among those seen
        have paid : (count - seen.length) * count =
            (count - (seen.length + 1)) * count + count := by
          rw [← Nat.succ_mul]
          congr 1
          omega
        have edges := few vertex
        simpa [met, known] using ih visited (by
          rw [List.length_append, List.length_reverse, List.length_cons]
          omega)

end Hunt

namespace Body

variable {body : Body}

/-- Whether a call of one routine stands in the body of another. -/
def Calls (body : Body) (caller callee : RoutineIndex) : Prop :=
  Stmt.BlockCalls callee (body.routine caller).body

/-- Calls lead to routines of the body. -/
def InRange (body : Body) : Prop :=
  ∀ caller < body.routines.length, ∀ callee, body.Calls caller callee → callee < body.routines.length

theorem mem_calleesOf {caller callee : RoutineIndex} :
    callee ∈ body.calleesOf caller ↔ body.Calls caller callee :=
  Routine.mem_callees_iff

theorem calls_eq : (fun caller callee => callee ∈ body.calleesOf caller) = body.Calls :=
  funext fun _ => funext fun _ => propext mem_calleesOf

theorem nodup_calleesOf (body : Body) (index : RoutineIndex) : (body.calleesOf index).Nodup :=
  Passes.nodup_eraseDups _

theorem calleesOf_beyond {index : RoutineIndex} (beyond : body.routines.length ≤ index) :
    body.calleesOf index = [] := by
  rw [calleesOf, routine, List.getD_eq_getElem?_getD, List.getElem?_eq_none beyond]
  rfl

section

variable (inRange : body.InRange)

include inRange

theorem InRange.below (index : RoutineIndex) :
    ∀ callee ∈ body.calleesOf index, callee < body.routines.length := by
  rcases Nat.lt_or_ge index body.routines.length with inside | beyond
  · exact fun callee member => inRange index inside callee (mem_calleesOf.1 member)
  · simp [calleesOf_beyond beyond]

theorem InRange.length_calleesOf_le (index : RoutineIndex) :
    (body.calleesOf index).length ≤ body.routines.length :=
  length_le_of_below (body.nodup_calleesOf index) (inRange.below index)

theorem InRange.reachable (rooted : 0 < body.routines.length) :
    Search body.calleesOf body.routines.length [0] body.reachable [] ∧
      ∀ more, explore body.calleesOf (body.routines.length + more) [0] [0] = body.reachable := by
  have opened : Search body.calleesOf body.routines.length [0] [] [0] :=
    ⟨List.prefix_rfl, by simp, by simpa using rooted, fun vertex member => ⟨vertex, member, .refl⟩,
      nofun⟩
  exact opened.run inRange.below body.nodup_calleesOf (by simp)

theorem callees_reachable {index callee : RoutineIndex} (member : index ∈ body.reachable)
    (calls : callee ∈ body.calleesOf index) :
    callee ∈ body.reachable := by
  have rooted := Nat.zero_lt_of_lt (inRange.below index callee calls)
  simpa using (inRange.reachable rooted).1.closed index member callee calls

theorem InRange.recursive (index : RoutineIndex) :
    (body.isRecursive index = true ↔ TransGen body.Calls index index) ∧
      ∀ more, meets body.calleesOf index (body.stackFuel + more) (body.calleesOf index).reverse [] =
        body.isRecursive index := by
  have opened : Hunt body.calleesOf body.routines.length index (body.calleesOf index).reverse [] :=
    ⟨List.nodup_nil, by simpa using inRange.below index,
      fun callee member => .single (List.mem_reverse.1 member), by simp, List.not_mem_nil⟩
  have few := inRange.length_calleesOf_le index
  rw [← calls_eq]
  refine opened.run inRange.below inRange.length_calleesOf_le ?_
  rw [List.length_reverse, List.length_nil, stackFuel, Nat.mul_succ, Nat.sub_zero]
  omega

end

/-- A routine that calls one twice, two that call each other, and one that nobody calls. -/
def cyclic : Body :=
  ⟨[[1, 1], [2], [1], [0]].map fun callees =>
    { (default : Routine) with body := callees.map fun callee => .eval (.call callee .int []) }⟩

private theorem cyclic_inRange : cyclic.InRange := by
  have listed : ∀ caller < 4, ∀ callee ∈ cyclic.calleesOf caller, callee < 4 := by decide
  exact fun caller inside callee calls => listed caller inside callee (mem_calleesOf.2 calls)

end Body

end TwoTier.Typed
