import TwoTier.Passes.Inlining
import TwoTier.Proofs.Forms.Formed

/-! A copy of well-formed code is well formed where it is put. -/

set_option linter.unusedSectionVars false

namespace TwoTier

namespace Passes

/-- How the rule for a routine relates to the rule for code that it is copied into. -/
structure Rule.Copies (inner outer : Rule) : Prop where
  placed : outer.placed → inner.placed
  exits : outer.nearExits → inner.nearExits
  returns : outer.nearExits → inner.outerReturns
  unlowered : outer.unlowered → inner.unlowered
  storeless : outer.storeless → inner.storeless

def Place.renamed (labels : Typed.Label → Typed.Label) (rule : Rule) (place : Place) : Place :=
  { place with rule, labels := place.labels.map labels }

end Passes

namespace Typed

open Passes (Place Rule)

/-- Names of one domain for the locals of another one. -/
structure Domain.Maps (inner outer : Domain) (rename : LocalId → LocalId) : Prop where
  declares : ∀ {id kind}, inner.Declares id kind → outer.Declares (rename id) kind
  profile? : outer.profile? = inner.profile?

section Renaming

variable {inner outer : Domain} {rename : LocalId → LocalId}

@[simp] theorem Expr.type_mapLocals : ∀ expr : Expr, (expr.mapLocals rename).type = expr.type
  | .const _ | .var _ _ | .len _ | .cast _ _ | .index _ _ _ | .compare _ _ _ | .call _ _ _ => rfl
  | .unary .not _ => rfl
  | .unary .neg operand | .unary .invert operand => operand.type_mapLocals
  | .abs operand => operand.type_mapLocals
  | .binary _ left _ | .logic _ left _ | .extremum _ left _ => left.type_mapLocals
  | .select _ yes _ => yes.type_mapLocals

theorem Expr.Packs.mapLocals : ∀ {expr : Expr}, expr.Packs → (expr.mapLocals rename).Packs
  | .const _, _ => trivial
  | .var _ _, _ => trivial
  | .index _ _ _, ⟨id, type, same⟩ => ⟨rename id, type, by rw [same, Expr.mapLocals]⟩
  | .binary _ _ _, packs => ⟨packs.1, packs.2.1.mapLocals, packs.2.2.mapLocals⟩
  | .unary .neg operand, packs =>
    have held : operand.Packs := packs
    held.mapLocals

variable {expr : Expr}

theorem Expr.var?_mapLocals {id : LocalId} (named : expr.var? = some id) :
    (expr.mapLocals rename).var? = some (rename id) := by
  cases expr <;> simp_all [Expr.var?, Expr.mapLocals]

variable {labels : Label → Label} {reductions : List Reduction}

theorem Stmt.Packs.renamed {stmt : Stmt}
    (packs : stmt.Packs reductions) :
    (stmt.renamed rename labels).Packs (reductions.map (renameAcc rename)) := by
  match stmt with
  | .store _ _ _ =>
    obtain ⟨⟨id, type, rfl⟩, inside⟩ := packs
    exact ⟨⟨rename id, type, rfl⟩, inside.mapLocals⟩
  | .assign _ (.binary _ _ _) =>
    obtain ⟨⟨reduction, member, rfl⟩, known, updates, first, second⟩ := packs
    exact ⟨⟨renameAcc rename reduction, List.mem_map_of_mem member, rfl⟩, known,
      updates.imp Expr.var?_mapLocals Expr.var?_mapLocals, first.mapLocals, second.mapLocals⟩

theorem packs_renamedAll :
    ∀ {body : List Stmt}, (∀ stmt ∈ body, stmt.Packs reductions) →
      ∀ stmt ∈ Stmt.renamedAll rename labels body, stmt.Packs (reductions.map (renameAcc rename))
  | [], _ => nofun
  | _ :: _, packs => List.forall_mem_cons.2 ⟨(packs _ (.head _)).renamed,
      packs_renamedAll fun stmt member => packs stmt (.tail _ member)⟩

section

variable (maps : inner.Maps outer rename)

include maps

mutual

theorem Expr.Formed.mapLocals :
    ∀ {expr : Expr}, expr.Formed inner → (expr.mapLocals rename).Formed outer
  | .const _, _ => trivial
  | .var _ _, formed => maps.declares formed
  | .len _, ⟨element, declared⟩ => ⟨element, maps.declares declared⟩
  | .unary _ _, formed | .abs _, formed | .cast _ _, formed => ⟨formed.1.mapLocals, by
      rw [Expr.type_mapLocals]
      exact formed.2⟩
  | .index _ _ _, formed => ⟨maps.declares formed.1, formed.2.1.mapLocals, by
      rw [Expr.type_mapLocals]
      exact formed.2.2⟩
  | .binary _ _ _, formed | .compare _ _ _, formed | .logic _ _ _, formed
  | .extremum _ _ _, formed => ⟨⟨formed.1.1.mapLocals, formed.1.2.mapLocals⟩, by
      simp only [Expr.type_mapLocals]
      exact formed.2⟩
  | .select _ _ _, formed =>
    ⟨⟨formed.1.1.mapLocals, formed.1.2.1.mapLocals, formed.1.2.2.mapLocals⟩, by
      simp only [Expr.type_mapLocals]
      exact formed.2⟩
  | .call _ _ _, ⟨profile, known, gives, passed⟩ =>
    ⟨profile, (congrFun maps.profile? _).trans known, gives, passed.mapLocals⟩

theorem ArgsFormed.mapLocals :
    ∀ {args : List (ArgOf Expr)} {kinds : List Kind}, ArgsFormed inner args kinds →
      ArgsFormed outer (Expr.mapArgLocals rename args) kinds
  | [], _, formed => formed
  | .scalar _ :: _, _, ⟨others, same, first, rest⟩ =>
    ⟨others, by rw [same, Expr.type_mapLocals], first.mapLocals, rest.mapLocals⟩
  | .array _ :: _, _, ⟨element, others, same, declared, rest⟩ =>
    ⟨element, others, same, maps.declares declared, rest.mapLocals⟩

end

theorem Expr.Has.mapLocals {type : NumType} (has : expr.Has inner type) :
    (expr.mapLocals rename).Has outer type :=
  ⟨has.1.mapLocals maps, (Expr.type_mapLocals expr).trans has.2⟩

theorem ForHead.Formed.mapLocals {head : ForHead} (formed : head.Formed inner) :
    (head.mapLocals rename).Formed outer where
  counter := maps.declares formed.counter
  start := formed.start.mapLocals maps
  stop := formed.stop.mapLocals maps
  step := formed.step.mapLocals maps
  resumes := fun kept => congrArg (Expr.mapLocals rename) (formed.resumes kept)

theorem VectorHead.Formed.mapLocals {head : VectorHead} (formed : head.Formed inner) :
    (head.mapLocals rename).Formed outer where
  counter := maps.declares formed.counter
  start := formed.start.mapLocals maps
  stop := formed.stop.mapLocals maps
  accumulators := List.forall_mem_map.2 fun reduction member =>
    maps.declares (formed.accumulators reduction member)

theorem ParallelHead.Formed.mapLocals {head : ParallelHead} (formed : head.Formed inner) :
    (head.mapLocals rename).Formed outer where
  counter := maps.declares formed.counter
  start := formed.start.mapLocals maps
  stop := formed.stop.mapLocals maps
  lower := maps.declares formed.lower
  upper := maps.declares formed.upper
  captures := List.forall_mem_map.2 fun id member =>
    (formed.captures id member).imp fun _ held => maps.declares held
  arrays := List.forall_mem_map.2 fun id member =>
    (formed.arrays id member).imp fun _ held => maps.declares held
  accumulator := by
    rintro _ member
    obtain ⟨reduction, found, rfl⟩ := Option.map_eq_some_iff.1 member
    exact maps.declares (formed.accumulator reduction found)

variable {labels : Label → Label} {rule : Rule} (broken : ¬ rule.unbroken)

include broken

mutual

/-- Code of lowered loops holds no return, so renaming alone keeps it well formed. -/
theorem Stmt.Formed.renamed {place : Place} {stmt : Stmt} (formed : stmt.Formed inner place)
    (copies : place.rule.Copies rule) (inside : place.lowered = true) :
    (stmt.renamed rename labels).Formed outer (place.renamed labels rule) := by
  match stmt with
  | .assign _ _ =>
    exact ⟨(Expr.type_mapLocals _).symm ▸ maps.declares formed.1, formed.2.mapLocals maps⟩
  | .store _ _ _ =>
    exact ⟨⟨(Expr.type_mapLocals _).symm ▸ maps.declares formed.1.1, formed.1.2 ∘ copies.storeless⟩,
      formed.2.1.mapLocals maps, formed.2.2.mapLocals maps⟩
  | .eval value =>
    have held : value.Formed inner := formed
    exact held.mapLocals maps
  | .branch _ _ _ =>
    exact ⟨formed.1.mapLocals maps, formed.2.1.renamed copies inside,
      formed.2.2.renamed copies inside⟩
  | .whileLoop _ _ _ | .forLoop _ _ =>
    exact ⟨formed.1.mapLocals maps, formed.2.renamed copies inside⟩
  | .leave => exact ⟨formed.1 ∘ copies.placed, fun asked => absurd asked broken⟩
  | .skip => exact formed ∘ copies.placed
  | .giveBack _ => exact nomatch inside.symm.trans formed.2.1
  | .block label body =>
    have held : BlockFormed inner (place.inBlock label) body := formed
    exact held.renamed copies inside
  | .exit _ => exact fun asked => List.mem_map_of_mem (formed (copies.exits asked))
  | .vector _ _ =>
    exact ⟨⟨formed.1.1.mapLocals maps, formed.1.2 ∘ copies.unlowered⟩,
      fun isPacked => packs_renamedAll (formed.2.1 isPacked),
      formed.2.2.renamed copies rfl⟩
  | .parallel _ _ =>
    exact ⟨⟨formed.1.1.mapLocals maps, formed.1.2 ∘ copies.unlowered⟩,
      formed.2.renamed copies rfl⟩

theorem BlockFormed.renamed : ∀ {place : Place} {body : List Stmt}, BlockFormed inner place body →
    place.rule.Copies rule → place.lowered = true →
      BlockFormed outer (place.renamed labels rule) (Stmt.renamedAll rename labels body)
  | _, [], _, _, _ => blockFormed_nil
  | _, _ :: _, formed, copies, inside =>
    ⟨formed.1.renamed copies inside, formed.2.renamed copies inside⟩

end

end

end Renaming

section Copies

/-- How the place of a copied statement relates to the place it had: blocks and loops are still
there, and a return finds the block of the copy. No loop of a copy is lowered where breaks are not
taken. -/
structure Carries (outer inner : Place) (labels : Label → Label) (label : Label) : Prop where
  kept : ∀ {other}, other ∈ inner.labels → labels other ∈ outer.labels
  copy : inner.looped = false → inner.lowered = false → label ∈ outer.labels
  looped : inner.looped = true → outer.looped = true
  rule : inner.rule.Copies outer.rule
  calm : outer.rule.unbroken → inner.rule.unlowered ∧ outer.lowered = false

variable {outside inside : Place} {labels : Label → Label} {label : Label}

theorem Carries.inLoop (carries : Carries outside inside labels label) :
    Carries outside.inLoop inside.inLoop labels label :=
  ⟨nofun, nofun, fun _ => rfl, carries.rule, carries.calm⟩

theorem Carries.inLowered (carries : Carries outside inside labels label)
    (lowers : ¬ inside.rule.unlowered) :
    Carries outside.inLowered inside.inLowered labels label :=
  ⟨nofun, nofun, fun _ => rfl, carries.rule, fun asked => absurd (carries.calm asked).1 lowers⟩

theorem Carries.inBlock (other : Label) (carries : Carries outside inside labels label) :
    Carries (outside.inBlock (labels other)) (inside.inBlock other) labels label where
  kept member := (List.mem_cons.1 member).elim (· ▸ List.mem_cons_self)
    (.tail _ <| carries.kept ·)
  copy free unlowered := .tail _ (carries.copy free unlowered)
  looped := carries.looped
  rule := carries.rule
  calm := carries.calm

theorem returnsToExitsAll_of_packs {result : Option LocalId}
    (packs : ∀ stmt ∈ body, stmt.Packs reductions) :
    Passes.returnsToExitsAll result label body = body :=
  packs_induction (fun body => Passes.returnsToExitsAll result label body = body) rfl
    (congrArg (List.cons _)) (congrArg (List.cons _)) packs

variable {inner outer : Domain} {rename : LocalId → LocalId} {result : Option LocalId}

section

variable (maps : inner.Maps outer rename) (lands : ∀ type id, inner.result = .scalar type →
  result = some id → outer.Declares id (.scalar type))

include maps lands

/-- A return of a copy assigns the result, if there is one, and leaves the copy. -/
theorem Result.Formed.copied {value : Option Result} (formed : Result.Formed inner value)
    (leaves : outside.rule.nearExits → label ∈ outside.labels) :
    BlockFormed outer outside
      (Passes.returnsToExits result label ((Stmt.giveBack value).renamed rename labels)) := by
  match value, result with
  | some (.scalar value), some id =>
    have here := lands _ id formed.2 rfl
    exact ⟨⟨(Expr.type_mapLocals value).symm ▸ here, formed.1.mapLocals maps⟩, leaves,
      blockFormed_nil⟩
  | some (.scalar _), none | some (.array _), _ | none, _ => exact ⟨leaves, blockFormed_nil⟩

mutual

/-- A statement of the callee is well formed in the caller, with its own locals and labels and with
exits for its returns. -/
theorem Stmt.Formed.copied {outside inside : Place} {stmt : Stmt}
    (carries : Carries outside inside labels label) (formed : stmt.Formed inner inside) :
    BlockFormed outer outside
      (Passes.returnsToExits result label (stmt.renamed rename labels)) := by
  match stmt with
  | .assign _ _ =>
    exact ⟨⟨(Expr.type_mapLocals _).symm ▸ maps.declares formed.1, formed.2.mapLocals maps⟩,
      blockFormed_nil⟩
  | .store _ _ _ =>
    exact ⟨⟨⟨(Expr.type_mapLocals _).symm ▸ maps.declares formed.1.1, formed.1.2 ∘ carries.rule.storeless⟩,
      formed.2.1.mapLocals maps, formed.2.2.mapLocals maps⟩, blockFormed_nil⟩
  | .eval value =>
    have held : value.Formed inner := formed
    exact ⟨held.mapLocals maps, blockFormed_nil⟩
  | .branch _ _ _ =>
    exact ⟨⟨formed.1.mapLocals maps, formed.2.1.copied carries,
      formed.2.2.copied carries⟩, blockFormed_nil⟩
  | .whileLoop _ _ _ | .forLoop _ _ =>
    exact ⟨⟨formed.1.mapLocals maps, formed.2.copied carries.inLoop⟩, blockFormed_nil⟩
  | .leave =>
    exact ⟨⟨fun asked => carries.looped (formed.1 (carries.rule.placed asked)),
      fun asked => (carries.calm asked).2⟩, blockFormed_nil⟩
  | .skip =>
    exact ⟨fun asked => carries.looped (formed (carries.rule.placed asked)), blockFormed_nil⟩
  | .giveBack _ =>
    have leaves : outside.rule.nearExits → label ∈ outside.labels := fun asked =>
      carries.copy (formed.2.2 (carries.rule.returns asked)) formed.2.1
    exact formed.1.copied maps lands leaves
  | .block other body =>
    have held : BlockFormed inner _ body := formed
    exact ⟨held.copied (carries.inBlock other), blockFormed_nil⟩
  | .exit _ =>
    exact ⟨fun asked => carries.kept (formed (carries.rule.exits asked)), blockFormed_nil⟩
  | .vector _ body =>
    refine ⟨⟨⟨formed.1.1.mapLocals maps, formed.1.2 ∘ carries.rule.unlowered⟩, fun isPacked => ?_,
      formed.2.2.copied (carries.inLowered formed.1.2)⟩, blockFormed_nil⟩
    have packs : ∀ stmt ∈ Stmt.renamedAll rename labels body, stmt.Packs _ :=
      packs_renamedAll (formed.2.1 isPacked)
    rw [returnsToExitsAll_of_packs packs]
    exact packs
  | .parallel _ _ =>
    have broken := fun asked => formed.1.2 (carries.calm asked).1
    exact ⟨⟨⟨formed.1.1.mapLocals maps, formed.1.2 ∘ carries.rule.unlowered⟩,
      formed.2.renamed maps broken carries.rule rfl⟩, blockFormed_nil⟩

theorem BlockFormed.copied :
    ∀ {outside inside : Place} {body : List Stmt}, Carries outside inside labels label →
      BlockFormed inner inside body → BlockFormed outer outside
        (Passes.returnsToExitsAll result label (Stmt.renamedAll rename labels body))
  | _, _, [], _, _ => blockFormed_nil
  | _, _, _ :: _, carries, formed => blockFormed_append.2
    ⟨formed.1.copied carries, formed.2.copied carries⟩

end

end

end Copies

end Typed
end TwoTier
