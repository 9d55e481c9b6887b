import TwoTier.Proofs.Forms.Formed
import TwoTier.Typed.Folding

namespace TwoTier.Typed

open Passes (Place)

variable {x y z : Scalar} {expr : Expr}

section Literals

theorem type_of_foldUnary? {op : UnaryOp} (takes : op.takes x.type = true)
    (folded : foldUnary? op x = some y) : y.type = (Expr.unary op (.const x)).type := by
  cases op <;> cases x <;> simp_all [foldUnary?, Expr.type, Scalar.type]
  all_goals grind

theorem type_of_foldArith? {op : ArithOp} (folded : foldArith? op x y = some z) :
    z.type = x.type := by
  cases x <;> cases y <;> simp only [foldArith?, Option.map_eq_some_iff, reduceCtorEq] at folded
  all_goals
    obtain ⟨_, _, rfl⟩ := folded
    rfl

theorem type_of_foldCompare? {op : Comparison} (folded : foldCompare? op x y = some z) :
    z.type = .bool := by
  cases x <;> cases y <;> simp only [foldCompare?, Option.some.injEq, reduceCtorEq] at folded
  all_goals
    subst folded
    rfl

theorem type_of_foldCast? {op : CastOp} (folded : foldCast? op x = some y) : y.type = op.type := by
  cases op <;> cases x <;> simp only [foldCast?, Option.map_eq_some_iff, Option.some.injEq,
    reduceCtorEq] at folded
  all_goals grind [Scalar.type, CastOp.type]

theorem type_of_foldAbs? (folded : foldAbs? x = some y) : y.type = x.type := by
  cases x <;> simp only [foldAbs?, Option.map_eq_some_iff] at folded
  all_goals grind [Scalar.type]

theorem type_of_foldExtremum? {op : Extremum} (folded : foldExtremum? op x y = some z) :
    z.type = x.type := by
  cases op <;> cases x <;> cases y <;>
    simp only [foldExtremum?, Option.some.injEq, reduceCtorEq] at folded
  all_goals
    subst folded
    rfl

end Literals

variable {env : Env}

theorem Expr.Formed.foldNode? {folded : Expr} (formed : expr.Formed env)
    (done : expr.foldNode? = some folded) : folded.Has env expr.type := by
  unfold Expr.foldNode? at done
  split at done
  · obtain ⟨y, found, rfl⟩ := Option.map_eq_some_iff.1 done
    exact ⟨trivial, type_of_foldUnary? formed.2 found⟩
  · obtain ⟨z, found, rfl⟩ := Option.map_eq_some_iff.1 done
    exact ⟨trivial, type_of_foldArith? found⟩
  · obtain ⟨z, found, rfl⟩ := Option.map_eq_some_iff.1 done
    exact ⟨trivial, type_of_foldCompare? found⟩
  · obtain ⟨y, found, rfl⟩ := Option.map_eq_some_iff.1 done
    exact ⟨trivial, type_of_foldCast? found⟩
  · obtain ⟨y, found, rfl⟩ := Option.map_eq_some_iff.1 done
    exact ⟨trivial, type_of_foldAbs? found⟩
  · obtain ⟨z, found, rfl⟩ := Option.map_eq_some_iff.1 done
    exact ⟨trivial, type_of_foldExtremum? found⟩
  · cases done
    split
    · exact ⟨trivial, rfl⟩
    · exact ⟨formed.1.2, formed.2.symm⟩
  · cases done
    split
    · exact ⟨formed.1.2.1, rfl⟩
    · exact ⟨formed.1.2.2, formed.2.2.symm⟩
  · cases done

theorem Expr.Has.foldNode {type : NumType} (has : expr.Has env type) (count : Nat) :
    (expr.foldNode count).2.Has env type := by
  unfold Expr.foldNode
  split
  · exact has.2 ▸ has.1.foldNode? ‹_›
  · exact has

mutual

theorem Expr.Formed.folded {expr : Expr} (formed : expr.Formed env) :
    expr.folded.2.Has env expr.type := by
  match expr with
  | .const _ => exact ⟨trivial, rfl⟩
  | .var _ _ => exact ⟨formed, rfl⟩
  | .len _ => exact ⟨formed, rfl⟩
  | .unary op operand =>
    have inner := formed.1.folded
    apply Expr.Has.foldNode
    refine ⟨⟨inner.1, inner.2 ▸ formed.2⟩, ?_⟩
    cases op with
    | not => rfl
    | neg | invert => exact inner.2
  | .cast _ _ | .abs _ =>
    have inner := formed.1.folded
    apply Expr.Has.foldNode
    refine ⟨⟨inner.1, inner.2 ▸ formed.2⟩, ?_⟩
    first | rfl | exact inner.2
  | .index _ _ _ =>
    have inner := formed.2.1.folded
    exact ⟨⟨formed.1, inner.1, inner.2.trans formed.2.2⟩, rfl⟩
  | .binary _ _ _ | .extremum _ _ _ | .compare _ _ _ | .logic _ _ _ =>
    have first := formed.1.1.folded
    have second := formed.1.2.folded
    apply Expr.Has.foldNode
    refine ⟨⟨⟨first.1, second.1⟩, ?_⟩, by first | rfl | exact first.2⟩
    rw [first.2, second.2]
    exact formed.2
  | .select cond yes no =>
    have test := formed.1.1.folded
    have first := formed.1.2.1.folded
    have second := formed.1.2.2.folded
    apply Expr.Has.foldNode
    exact ⟨⟨⟨test.1, first.1, second.1⟩, test.2.trans formed.2.1,
      first.2.trans (formed.2.2.trans second.2.symm)⟩, first.2⟩
  | .call _ _ _ =>
    obtain ⟨profile, known, gives, passed⟩ := formed
    exact ⟨⟨profile, known, gives, passed.folded⟩, rfl⟩

theorem ArgsFormed.folded : ∀ {args : List (ArgOf Expr)} {kinds : List Kind},
    ArgsFormed env args kinds → ArgsFormed env (Expr.foldedArgs args).2 kinds
  | [], _, formed => formed
  | .scalar _ :: _, _, ⟨others, same, first, rest⟩ =>
    have folded := first.folded
    ⟨others, by rw [same, ← folded.2], folded.1, rest.folded⟩
  | .array _ :: _, _, ⟨element, others, same, declared, rest⟩ =>
    ⟨element, others, same, declared, rest.folded⟩

end

theorem Expr.Has.folded {type : NumType} (has : expr.Has env type) : expr.folded.2.Has env type :=
  ⟨has.1.folded.1, has.1.folded.2.trans has.2⟩

section Packed

theorem Expr.Packs.foldNode (packs : expr.Packs) (count : Nat) :
    (expr.foldNode count).2.Packs ∧ (expr.foldNode count).2.var? = expr.var? := by
  unfold Expr.foldNode
  split
  · rename_i folded done
    unfold Expr.foldNode? at done
    split at done
    all_goals first
      | obtain ⟨_, _, rfl⟩ := Option.map_eq_some_iff.1 done
        exact ⟨trivial, rfl⟩
      | exact packs.elim
      | cases done
  · exact ⟨packs, rfl⟩

theorem Expr.Packs.folded : ∀ {expr : Expr}, expr.Packs →
    expr.folded.2.Packs ∧ expr.folded.2.var? = expr.var?
  | .const _, _ | .var _ _, _ => ⟨trivial, rfl⟩
  | .index _ _ _, packs => by
    obtain ⟨id, type, rfl⟩ := packs
    exact ⟨⟨id, type, rfl⟩, rfl⟩
  | .binary op left right, packs => by
    have node : (Expr.binary op left.folded.2 right.folded.2).Packs :=
      ⟨packs.1, packs.2.1.folded.1, packs.2.2.folded.1⟩
    exact node.foldNode _
  | .unary .neg operand, packs => by
    have held : operand.Packs := packs
    have node : (Expr.unary .neg operand.folded.2).Packs := held.folded.1
    exact node.foldNode _

theorem foldNode_update {op : ArithOp} (count : Nat)
    (updates : left.var? = some acc ∨ right.var? = some acc) :
    ((Expr.binary op left right).foldNode count).2 = .binary op left right := by
  unfold Expr.foldNode Expr.foldNode?
  cases left <;> cases right <;> simp_all [Expr.var?]

theorem Stmt.Packs.folded {stmt : Stmt} (packs : stmt.Packs reductions) :
    ∃ after : Stmt, stmt.folded.2 = [after] ∧ after.Packs reductions := by
  match stmt with
  | .store array index value =>
    obtain ⟨⟨id, type, rfl⟩, inner⟩ := packs
    exact ⟨_, rfl, ⟨id, type, rfl⟩, inner.folded.1⟩
  | .assign acc (.binary op left right) =>
    obtain ⟨member, known, updates, first, second⟩ := packs
    have kept := updates.imp first.folded.2.trans second.folded.2.trans
    refine ⟨.assign acc (.binary op left.folded.2 right.folded.2), ?_, member, known, kept,
      first.folded.1, second.folded.1⟩
    exact congrArg (fun value => [Stmt.assign acc value])
      (foldNode_update (left.folded.1 + right.folded.1) kept)

theorem packs_foldedBlock : ∀ {body : List Stmt}, (∀ stmt ∈ body, stmt.Packs reductions) →
      ∀ stmt ∈ (Stmt.foldedBlock body).2, stmt.Packs reductions
  | [], _ => nofun
  | first :: rest, packs => by
    obtain ⟨after, same, held⟩ := (packs first (.head _)).folded
    have others := packs_foldedBlock fun stmt member => packs stmt (.tail _ member)
    intro stmt member
    have split : stmt ∈ first.folded.2 ++ (Stmt.foldedBlock rest).2 := member
    rw [same] at split
    obtain _ | ⟨_, later⟩ := split
    · exact held
    · exact others stmt later

end Packed

variable {domain : Domain}

theorem ForHead.Formed.folded {head : ForHead} (formed : head.Formed domain) :
    head.folded.2.Formed domain where
  counter := formed.counter
  start := formed.start.folded
  stop := formed.stop.folded
  step := formed.step.folded
  resumes := fun kept => by
    have same : head.folded.2.start = head.start.folded.2 := rfl
    rw [same, formed.resumes kept]
    rfl

mutual

theorem Stmt.Formed.folded {place : Place} {stmt : Stmt} (formed : stmt.Formed domain place) :
    BlockFormed domain place stmt.folded.2 := by
  match stmt with
  | .assign _ _ => exact ⟨⟨formed.2.folded.2 ▸ formed.1, formed.2.folded.1⟩, blockFormed_nil⟩
  | .store _ _ _ =>
    exact ⟨⟨⟨formed.2.2.folded.2 ▸ formed.1.1, formed.1.2⟩, formed.2.1.folded, formed.2.2.folded.1⟩,
      blockFormed_nil⟩
  | .eval value =>
    have held : value.Formed domain := formed
    exact ⟨held.folded.1, blockFormed_nil⟩
  | .branch _ _ _ =>
    have first := formed.2.1.folded
    have second := formed.2.2.folded
    have tested := formed.1.folded
    simp only [Stmt.folded]
    split
    · exact first
    · exact second
    · exact ⟨⟨tested, first, second⟩, blockFormed_nil⟩
  | .whileLoop _ _ _ =>
    have inner := formed.2.folded
    have tested := formed.1.folded
    simp only [Stmt.folded]
    split
    · exact blockFormed_nil
    · exact ⟨⟨tested, inner⟩, blockFormed_nil⟩
  | .forLoop _ _ => exact ⟨⟨formed.1.folded, formed.2.folded⟩, blockFormed_nil⟩
  | .leave | .skip | .exit _ => exact ⟨formed, blockFormed_nil⟩
  | .giveBack (some (.scalar value)) =>
    have inner := formed.1.1.folded
    exact ⟨⟨⟨inner.1, inner.2 ▸ formed.1.2⟩, formed.2⟩, blockFormed_nil⟩
  | .giveBack (some (.array _)) | .giveBack none => exact ⟨formed, blockFormed_nil⟩
  | .block _ body =>
    have inner : BlockFormed domain _ body := formed
    exact ⟨inner.folded, blockFormed_nil⟩
  | .vector _ _ =>
    have head := formed.1.1
    exact ⟨⟨⟨⟨head.counter, head.start.folded, head.stop.folded, head.accumulators⟩, formed.1.2⟩,
      fun isPacked => packs_foldedBlock (formed.2.1 isPacked), formed.2.2.folded⟩, blockFormed_nil⟩
  | .parallel _ _ =>
    have head := formed.1.1
    exact ⟨⟨⟨{ head with start := head.start.folded, stop := head.stop.folded }, formed.1.2⟩, formed.2⟩,
      blockFormed_nil⟩

theorem BlockFormed.folded : ∀ {place : Place} {body : List Stmt}, BlockFormed domain place body →
    BlockFormed domain place (Stmt.foldedBlock body).2
  | _, [], _ => blockFormed_nil
  | _, _ :: _, formed => blockFormed_append.2 ⟨formed.1.folded, formed.2.folded⟩

end

end TwoTier.Typed
