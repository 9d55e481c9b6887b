import TwoTier.Typed.Stmt

namespace TwoTier.Typed

theorem Expr.self_mem_nodes (expr : Expr) : expr ∈ expr.nodes := by
  cases expr <;> simp [nodes]

theorem Stmt.self_mem_nodes (stmt : Stmt) : stmt ∈ stmt.nodes := by
  cases stmt <;> simp [nodes]

theorem Stmt.mem_blockNodes : node ∈ blockNodes body ↔ ∃ stmt ∈ body, node ∈ stmt.nodes := by
  induction body with
  | nil => simp [blockNodes]
  | cons stmt rest ih => simp [blockNodes, ih]

theorem Stmt.mem_storedArrays :
    array ∈ storedArrays body ↔ ∃ index value, store array index value ∈ blockNodes body := by
  unfold storedArrays
  rw [List.mem_filterMap]
  constructor
  · rintro ⟨node, member, found⟩
    split at found
    · cases found
      exact ⟨_, _, member⟩
    · cases found
  · rintro ⟨index, value, member⟩
    exact ⟨_, member, rfl⟩

section

variable {all : List Stmt}

mutual

/-- What is nested in a nested statement is nested. -/
theorem Stmt.nodes_within {stmt : Stmt} (within : stmt.nodes ⊆ all) :
    ∀ node ∈ stmt.nodes, node.nodes ⊆ all := by
  match stmt with
  | .branch _ _ _ =>
    obtain ⟨first, second⟩ := List.append_subset.1 (List.cons_subset.1 within).2
    have below := List.forall_mem_append.2 ⟨blockNodes_within first, blockNodes_within second⟩
    exact List.forall_mem_cons.2 ⟨within, below⟩
  | .whileLoop _ _ _ | .forLoop _ _ | .block _ _ | .vector _ _ =>
    exact List.forall_mem_cons.2 ⟨within, blockNodes_within (List.cons_subset.1 within).2⟩
  | .parallel _ _ =>
    exact List.forall_mem_cons.2 ⟨within, nodes_within (List.cons_subset.1 within).2⟩
  | .assign _ _ | .store _ _ _ | .eval _ | .leave | .skip | .giveBack _ | .exit _ =>
    exact List.forall_mem_singleton.2 within

theorem Stmt.blockNodes_within {body : List Stmt} (within : blockNodes body ⊆ all) :
    ∀ node ∈ blockNodes body, node.nodes ⊆ all := by
  match body with
  | [] => nofun
  | _ :: _ =>
    obtain ⟨here, later⟩ := List.append_subset.1 within
    exact List.forall_mem_append.2 ⟨nodes_within here, blockNodes_within later⟩

end

end

/-- Each statement of a list is followed there by the statements nested in it. -/
def Stmt.Nested (stmts : List Stmt) : Prop :=
  ∀ position node, stmts[position]? = some node → node.nodes <+: stmts.drop position

namespace Stmt.Nested

theorem nil : Nested [] := fun _ _ found => absurd found (by simp)

theorem cons (below : Nested rest) (whole : stmt.nodes = stmt :: rest) : Nested stmt.nodes := by
  rw [whole]
  intro position node found
  cases position with
  | zero =>
    cases found
    exact whole ▸ List.prefix_refl _
  | succ position => exact below position node found

theorem append (before : Nested first) (after : Nested second) : Nested (first ++ second) := by
  intro position node found
  by_cases inside : position < first.length
  · rw [List.getElem?_append_left inside] at found
    rw [List.drop_append_of_le_length (Nat.le_of_lt inside)]
    exact (before position node found).trans (List.prefix_append ..)
  · rw [List.getElem?_append_right (by omega)] at found
    rw [List.drop_append, List.drop_eq_nil_of_le (by omega), List.nil_append]
    exact after _ node found

end Stmt.Nested

mutual

theorem Stmt.nested_nodes (stmt : Stmt) : Nested stmt.nodes := by
  match stmt with
  | .branch _ yes no => exact .cons (.append (nested_blockNodes yes) (nested_blockNodes no)) rfl
  | .whileLoop _ body _ | .forLoop _ body | .block _ body | .vector _ body =>
    exact .cons (nested_blockNodes body) rfl
  | .parallel _ chunk => exact .cons (nested_nodes chunk) rfl
  | .assign _ _ | .store _ _ _ | .eval _ | .leave | .skip | .giveBack _ | .exit _ =>
    exact .cons .nil rfl

theorem Stmt.nested_blockNodes (body : List Stmt) : Nested (blockNodes body) := by
  match body with
  | [] => exact .nil
  | stmt :: rest => exact .append (nested_nodes stmt) (nested_blockNodes rest)

end

end TwoTier.Typed
