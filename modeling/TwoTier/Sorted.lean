namespace TwoTier.Sorted

variable {α : Type}

/-- Puts an item in front of the first one that it may stand before. -/
def insert (before : α → α → Bool) (item : α) : List α → List α
  | [] => [item]
  | head :: rest =>
    if before item head then item :: head :: rest else head :: insert before item rest

/-- Equal items keep their order. -/
def sort (before : α → α → Bool) (items : List α) : List α := items.foldr (insert before) []

theorem mem_insert {before : α → α → Bool} {item other : α} {items : List α} :
    other ∈ insert before item items ↔ other = item ∨ other ∈ items := by
  induction items with
  | nil => simp [insert]
  | cons head rest ih =>
    unfold insert
    split
    · simp
    · simp only [List.mem_cons, ih]
      exact or_left_comm

theorem mem_sort {before : α → α → Bool} {item : α} {items : List α} :
    item ∈ sort before items ↔ item ∈ items := by
  induction items with
  | nil => simp [sort]
  | cons head rest ih =>
    rw [List.mem_cons, ← ih]
    exact mem_insert

end TwoTier.Sorted
