import TwoTier.Proofs.Surface.Placement
import TwoTier.Proofs.Worlds.Evaluation

/-! How a call fills the parameters of a function. -/

namespace TwoTier.Interp

open Surface (Expr FunctionDef Param)

theorem of_takeKeyword?_eq_none {keywords : Table Value}
    (missing : takeKeyword? name keywords = none) :
    keywords.get? name = none ∧ name ∉ keywords.keys := by
  induction keywords with
  | nil => exact ⟨rfl, nofun⟩
  | cons entry rest ih =>
    rw [takeKeyword?] at missing
    split at missing
    · cases missing
    · rename_i differs
      obtain ⟨absent, unlisted⟩ := ih (Option.map_eq_none_iff.1 missing)
      exact ⟨(if_neg differs).trans absent, List.not_mem_cons_of_ne_of_not_mem (Ne.symm differs) unlisted⟩

/-- Parameters take, one after the other, their positional arguments, then the values of their
keywords and else of their defaults. -/
inductive Fills (evalDefault : Expr → Run (World τ) Value) (keywords : Table Value) :
    List Param → List Value → World τ → List Value → World τ → Prop
  | done : Fills evalDefault keywords [] [] world [] world
  | positional : Fills evalDefault keywords params args world values after →
      Fills evalDefault keywords (param :: params) (arg :: args) world (arg :: values) after
  | keyword : keywords.get? param.name.name = some value →
      Fills evalDefault keywords params [] world values after →
      Fills evalDefault keywords (param :: params) [] world (value :: values) after
  | default : keywords.get? param.name.name = none → param.default = some expr →
      evalDefault expr world = .ok value between →
      Fills evalDefault keywords params [] between values after →
      Fills evalDefault keywords (param :: params) [] world (value :: values) after

/-- Keywords that name parameters, each at most once. -/
def Named (params : List Param) (keywords : Table Value) : Prop :=
  (∀ name ∈ keywords.keys, name ∈ params.map (·.name.name)) ∧ keywords.keys.Nodup

section Binding

variable {evalDefault : Expr → Run (World τ) Value} {keywords others : Table Value}
  {params : List Param} {args values : List Value} {world after : World τ}

theorem Fills.congr (same : ∀ param ∈ params,
      keywords.get? param.name.name = others.get? param.name.name)
    (filled : Fills evalDefault keywords params args world values after) :
    Fills evalDefault others params args world values after := by
  induction filled with
  | done => exact .done
  | positional _ ih => exact .positional (ih (List.forall_mem_cons.1 same).2)
  | keyword given _ ih =>
    obtain ⟨first, rest⟩ := List.forall_mem_cons.1 same
    exact .keyword (first.symm.trans given) (ih rest)
  | default missing declared evaluated _ ih =>
    obtain ⟨first, rest⟩ := List.forall_mem_cons.1 same
    exact .default (first.symm.trans missing) declared evaluated (ih rest)

theorem named_take (fresh : param.name.name ∉ params.map (·.name.name))
    (taken : takeKeyword? param.name.name keywords = some (value, others)) :
    Named (param :: params) keywords ↔ Named params others := by
  have moved : keywords.keys.Perm (param.name.name :: others.keys) :=
    (of_takeKeyword? taken).1.map Prod.fst
  unfold Named
  rw [moved.nodup_iff, List.nodup_cons]
  simp only [moved.mem_iff, List.map_cons, List.mem_cons]
  constructor
  · rintro ⟨named, once, distinct⟩
    refine ⟨fun name listed => (named name (.inr listed)).resolve_left ?_, distinct⟩
    rintro rfl
    exact once listed
  · rintro ⟨named, distinct⟩
    refine ⟨fun name listed => listed.imp_right (named name), fun listed => ?_, distinct⟩
    exact fresh (named _ listed)

theorem named_skip (missing : param.name.name ∉ keywords.keys) :
    Named (param :: params) keywords ↔ Named params keywords := by
  refine and_congr_left fun _ => forall₂_congr fun name listed => ?_
  rw [List.map_cons, List.mem_cons, or_iff_right]
  rintro rfl
  exact missing listed

theorem bind_cons_eq_ok {run : Run σ (List Value × Table Value)} {state after : σ} :
    (run >>= fun (values, unused) => pure (value :: values, unused)) state =
        .ok (values, unused) after ↔
      ∃ rest, values = value :: rest ∧ run state = .ok (rest, unused) after := by
  rw [Run.bind_eq_ok]
  constructor
  · rintro ⟨⟨rest, left⟩, between, ran, ended⟩
    cases ended
    exact ⟨rest, rfl, ran⟩
  · rintro ⟨rest, rfl, ran⟩
    exact ⟨(rest, unused), after, ran, rfl⟩

theorem bindParams_eq_ok (distinct : (params.map (·.name.name)).Nodup)
    (few : args.length ≤ params.length) :
    bindParams callee evalDefault params args keywords world = .ok (values, []) after ↔
      Named (params.drop args.length) keywords ∧
        Fills evalDefault keywords params args world values after := by
  induction params generalizing args keywords world values with
  | nil =>
    cases List.length_eq_zero_iff.1 (Nat.le_zero.1 few)
    constructor
    · rintro ⟨⟩
      exact ⟨⟨fun _ absent => absurd absent List.not_mem_nil, .nil⟩, .done⟩
    · rintro ⟨⟨named, _⟩, ⟨⟩⟩
      rw [List.map_eq_nil_iff.1 (List.eq_nil_iff_forall_not_mem.2 fun name listed =>
        absurd (named name listed) List.not_mem_nil)]
      rfl
  | cons param params ih =>
    obtain ⟨fresh, distinct⟩ := List.nodup_cons.1 distinct
    unfold bindParams
    cases args with
    | cons arg args =>
      cases taken : takeKeyword? param.name.name keywords with
      | some found =>
        constructor
        · intro bound
          cases bound
        · rintro ⟨⟨named, _⟩, _⟩
          -- the keyword names a parameter that has its value
          have listed := ((of_takeKeyword? taken).1.map Prod.fst).mem_iff.2 (.head _)
          obtain ⟨other, later, same⟩ := List.mem_map.1 (named _ listed)
          exact (fresh (List.mem_map.2 ⟨other, List.mem_of_mem_drop later, same⟩)).elim
      | none =>
        simp only [bind_cons_eq_ok, ih distinct (Nat.le_of_succ_le_succ few), List.length_cons,
          List.drop_succ_cons]
        constructor
        · rintro ⟨_, rfl, named, filled⟩
          exact ⟨named, .positional filled⟩
        · rintro ⟨named, ⟨⟩⟩
          exact ⟨_, rfl, named, ‹_›⟩
    | nil =>
      have ended : ([] : List Value).length ≤ params.length := Nat.zero_le _
      rw [List.length_nil, List.drop_zero]
      cases taken : takeKeyword? param.name.name keywords with
      | some found =>
        obtain ⟨value, others⟩ := found
        obtain ⟨_, got, kept⟩ := of_takeKeyword? taken
        have same : ∀ other ∈ params,
            keywords.get? other.name.name = others.get? other.name.name := by
          refine fun other member => kept _ fun clash => fresh ?_
          exact List.mem_map.2 ⟨other, member, clash⟩
        simp only [bind_cons_eq_ok, named_take fresh taken, ih distinct ended, List.length_nil,
          List.drop_zero]
        constructor
        · rintro ⟨_, rfl, named, filled⟩
          exact ⟨named, .keyword got (filled.congr fun other member => (same other member).symm)⟩
        · rintro ⟨named, filled⟩
          cases filled with
          | keyword given rest =>
            cases got.symm.trans given
            exact ⟨_, rfl, named, rest.congr same⟩
          | default missing => cases got.symm.trans missing
      | none =>
        obtain ⟨absent, unlisted⟩ := of_takeKeyword?_eq_none taken
        rw [named_skip unlisted]
        cases declared : param.default with
        | none =>
          constructor
          · intro bound
            cases bound
          · rintro ⟨_, filled⟩
            cases filled with
            | keyword given => cases absent.symm.trans given
            | default _ promised => cases declared.symm.trans promised
        | some expr =>
          rw [Run.bind_eq_ok]
          simp only [bind_cons_eq_ok, ih distinct ended]
          constructor
          · rintro ⟨value, between, evaluated, _, rfl, named, filled⟩
            exact ⟨named, .default absent declared evaluated filled⟩
          · rintro ⟨named, filled⟩
            cases filled with
            | keyword given => cases absent.symm.trans given
            | default _ promised evaluated rest =>
              cases declared.symm.trans promised
              exact ⟨_, _, evaluated, _, rfl, named, rest⟩

end Binding

/-- Completing the arguments of a call of a function that was read. It succeeds exactly if there are
no more positional arguments than parameters, each keyword names another parameter, none twice, and
all parameters left have a keyword or a default that has a value. -/
theorem completeArguments_eq_ok (read : Surface.readModule source = .ok module)
    (held : module.Holds enclosure (.define definition)) {τ : Type}
    (evalDefault : Expr → Run (World τ) Value) (args values : List Value) (keywords : Table Value)
    (world after : World τ) :
    completeArguments evalDefault definition args keywords world = .ok values after ↔
      args.length ≤ definition.params.length ∧
      Named (definition.params.drop args.length) keywords ∧
      Fills evalDefault keywords definition.params args world values after := by
  have distinct := Surface.Stmt.enclosed_define.2 (held.enclosed read)
  unfold completeArguments
  split
  · rename_i many
    constructor
    · intro completed
      cases completed
    · rintro ⟨few, _⟩
      exact absurd few (Nat.not_le.2 many)
  · rename_i few
    have few := Nat.not_lt.1 few
    rw [Run.bind_eq_ok, ← bindParams_eq_ok distinct few]
    constructor
    · rintro ⟨⟨given, unused⟩, between, bound, ended⟩
      cases unused with
      | nil =>
        cases ended
        exact ⟨few, bound⟩
      | cons => cases ended
    · rintro ⟨_, bound⟩
      exact ⟨_, _, bound, rfl⟩

def callSource : String := "def f(a, b, c=2):\n    return a\n"

/-- One parameter takes an argument, one a keyword and one its default. -/
theorem completeArguments_eq_ok_each : ∃ module definition,
    Surface.readModule callSource = .ok module ∧ definition ∈ module.functions ∧
      ∀ world : World Unit, completeArguments (fun _ => pure (.int 2)) definition [.int 1]
        [("b", .int 7)] world = .ok [.int 1, .int 7, .int 2] world := by
  have evaluated : ((Surface.readModule callSource).toOption.any fun module =>
      module.functions.any fun definition => decide (definition.params.map (fun param =>
        (param.name.name, param.default.isSome)) = [("a", false), ("b", false), ("c", true)])) =
      true := by decide +kernel
  obtain ⟨module, read, found⟩ := (Option.any_eq_true _ _).1 evaluated
  obtain ⟨definition, member, shape⟩ := List.any_eq_true.1 found
  obtain ⟨a, _, params, _, shape⟩ := List.map_eq_cons_iff.1 (of_decide_eq_true shape)
  obtain ⟨b, _, rfl, second, shape⟩ := List.map_eq_cons_iff.1 shape
  obtain ⟨c, _, rfl, third, shape⟩ := List.map_eq_cons_iff.1 shape
  cases List.map_eq_nil_iff.1 shape
  obtain ⟨second, _⟩ := Prod.mk.inj second
  obtain ⟨third, default⟩ := Prod.mk.inj third
  obtain ⟨expr, declared⟩ := Option.isSome_iff_exists.1 default
  have read := eq_ok_of_toOption read
  refine ⟨module, definition, read, member, fun world => ?_⟩
  refine (completeArguments_eq_ok read (.top (Surface.define_mem_body member)) ..).2 ?_
  rw [params]
  refine ⟨by simp, ⟨by simp [Table.keys, second], by simp [Table.keys]⟩, .positional ?_⟩
  exact .keyword (by rw [second]; rfl) (.default (by rw [third]; rfl) declared rfl .done)

end TwoTier.Interp
