namespace TwoTier

abbrev Table (α : Type) := List (String × α)

namespace Table

variable {α : Type}

def get? (name : String) : Table α → Option α
  | [] => none
  | (key, value) :: rest => if key = name then some value else get? name rest

/-- Enters a value; a name that is already there keeps its place. -/
def set (name : String) (value : α) : Table α → Table α
  | [] => [(name, value)]
  | (key, old) :: rest =>
    if key = name then (key, value) :: rest else (key, old) :: set name value rest

def erase (name : String) (table : Table α) : Table α := table.filter fun entry => entry.1 ≠ name

def keys (table : Table α) : List String := table.map (·.1)

/-- What is found in a table is an entry of it. -/
theorem mem_of_get? {name : String} {value : α} {table : Table α}
    (found : table.get? name = some value) : (name, value) ∈ table := by
  induction table with
  | nil => cases found
  | cons entry rest ih =>
    obtain ⟨key, first⟩ := entry
    rw [get?] at found
    split at found
    · rename_i same
      cases found
      exact same ▸ List.mem_cons_self
    · exact List.mem_cons_of_mem _ (ih found)

theorem get?_set (name asked : String) (value : α) (table : Table α) :
    get? asked (set name value table) = if name = asked then some value else get? asked table := by
  induction table with
  | nil => simp [set, get?]
  | cons entry rest ih =>
    obtain ⟨key, old⟩ := entry
    by_cases same : key = name
    · subst key
      by_cases asks : name = asked <;> simp [set, get?, asks]
    · by_cases asks : key = asked
      · subst key
        simp [set, get?, same, Ne.symm same]
      · simp [set, get?, same, asks, ih]

end Table
end TwoTier
