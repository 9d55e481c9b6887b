import TwoTier.Typed.Body

namespace TwoTier.Typed

theorem Purity.join_eq_mutatesContainer {first second : Purity} :
    first.join second = .mutatesContainer ↔
      first = .mutatesContainer ∨ second = .mutatesContainer := by
  cases first <;> cases second <;> decide

theorem Body.purity_eq_mutatesContainer {body : Body} :
    body.purity = .mutatesContainer ↔
      ∃ routine ∈ body.routines, routine.purity = .mutatesContainer := by
  have joined (routines : List Routine) : ∀ start : Purity,
      routines.foldl (fun purity routine => purity.join routine.purity) start =
          .mutatesContainer ↔
        start = .mutatesContainer ∨ ∃ routine ∈ routines, routine.purity = .mutatesContainer := by
    induction routines with
    | nil => simp
    | cons routine rest ih =>
      intro start
      rw [List.foldl_cons, ih, Purity.join_eq_mutatesContainer]
      simp [or_assoc]
  exact (joined body.routines .pure).trans (or_iff_right (by decide))

end TwoTier.Typed
