import Mathlib.Data.List.Forall2
import TwoTier.Proofs.Eligibility.Rendering
import TwoTier.Proofs.Eligibility.Specialization

set_option linter.unusedSectionVars false

namespace TwoTier.Eligibility

open Interp (Program)

open Surface (BinOp BoolOp CmpOp FunctionDef UnaryOp)

open Typed (Arg Expr LocalId)

variable {program : Program} {layout : Layout} {subject : Subject} {scope : Scope} {α β : Type}

structure Layout.Holds (layout : Layout) (scope : Scope) : Prop where
  localNames : scope.localNames = layout.localNames
  locals : ∀ {id : LocalId} {decl}, scope.locals[id]? = some decl → layout.locals[id]? = some decl
  lookup : ∀ {name id}, scope.lookup? name = some id → layout.ids.get? name = some id

theorem Layout.Holds.isGlobal (holds : layout.Holds scope)
    (isLocal : ¬scope.localNames.contains name) : name ∉ layout.localNames := by
  rw [← holds.localNames]
  exact fun member => isLocal (List.contains_iff_mem.2 member)

structure Layout.Fits (layout : Layout) (draft : Draft) : Prop
    extends layout.Holds draft.scope where
  result : ∀ {result}, draft.result = some result → layout.result = result
  effects : draft.purity = .mutatesContainer → layout.purity = .mutatesContainer
  answers : ∀ {name kinds index result}, draft.closure.Answers name kinds index result →
    layout.signature? index = some ⟨name, kinds, result⟩

variable {result : ReturnKind}

theorem Closure.Answers.grows {before after : Closure} {index : Nat}
    (answers : before.Answers name kinds index result) (grows : before.Grows after) :
    after.Answers name kinds index result := by
  cases answers with
  | settled found =>
    obtain ⟨later, present, uses⟩ := grows index _ found
    cases uses
    exact .settled present
  | assumed found =>
    obtain ⟨later, present, uses⟩ := grows index _ found
    cases uses with
    | assumed _ kept =>
      rw [kept rfl] at present
      exact .assumed present

theorem Layout.Fits.before {before after : Draft} (fits : layout.Fits after)
    (grows : before.Grows program after) : layout.Fits before where
  localNames := grows.scope.localNames.symm.trans fits.localNames
  locals found := fits.locals (grows.scope.locals found)
  lookup found := fits.lookup (grows.scope.lookup found)
  result found := fits.result (grows.result found)
  effects noted := fits.effects (grows.effects noted)
  answers given := fits.answers (given.grows grows.closure.grows)

/-- Requests are answered by the closure of a program. -/
structure Subject.Served (program : Program) (subject : Subject) : Prop where
  same : subject.program = program
  specializes : subject.Specializes program
  answers : ∀ {name kinds span closure answer after},
    closure.Indexed → subject.specialize name kinds span closure = .ok answer after →
      after.Answers name kinds answer.1 answer.2

theorem served_specialize (fuel : Nat) (name : String) :
    Subject.Served program ⟨program, name, specialize program fuel⟩ where
  same := rfl
  specializes := specializes fuel
  answers keyed given := ((specialize_moves fuel _ _ _ _).ok given).2 keyed

section Operators

variable {draft after : Draft} {x y typed : Expr} {span : Span}

/-- Typed arithmetic is an operation on its operands, converted to a common type. -/
theorem operation_of_typeArith {op : BinOp}
    (given : subject.typeArith op x y span draft = .ok typed after) :
    Operation x y op typed ∧ after = draft := by
  refine ⟨?_, (subject.still_typeArith.ok given).symm⟩
  unfold Subject.typeArith at given
  split at given
  · cases given
  rename_i numbers
  rw [not_or] at numbers
  obtain ⟨found, named⟩ : ∃ found, Subject.arithOp? op = some found := by
    cases named : Subject.arithOp? op with
    | none =>
      rw [named] at given
      cases given
    | some found => exact ⟨found, rfl⟩
  rw [named] at given
  dsimp only at given
  split at given
  · rename_i ints
    unfold Subject.typeIntArith at given
    split at given
    · cases given
      cases op <;> cases named
      exact .quotient ints.1 ints.2
    · split at given
      · rename_i exponent
        split at given
        · rename_i nonnegative
          cases given
          exact .ints named nofun ints.1 ints.2 fun _ => ⟨exponent, rfl, nonnegative⟩
        · rename_i negative
          cases given
          cases op <;> cases named
          exact .inverse ints.1 rfl (Int64.not_le.1 negative)
      · cases given
    · rename_i whole power
      cases given
      exact .ints named whole ints.1 ints.2 fun same => absurd same power
  · rename_i float
    unfold Subject.typeFloatArith at given
    split at given
    all_goals cases given
    rename_i noAnd noOr noXor noShl noShr
    exact .floats named numbers float ⟨noAnd, noOr, noXor, noShl, noShr⟩

theorem inversion_of_typeUnary {op : UnaryOp}
    (given : subject.typeUnary op x span draft = .ok typed after) :
    Inversion x op typed ∧ after = draft := by
  refine ⟨?_, (subject.still_typeUnary.ok given).symm⟩
  unfold Subject.typeUnary at given
  split at given
  · cases given
    exact .not
  rename_i notNot
  split at given
  · cases given
  rename_i number
  split at given
  · cases given
    exact .pos number
  · cases given
    exact .neg number
  · split at given
    · rename_i notPos notNeg int
      cases given
      cases op with
      | neg => exact absurd rfl notNeg
      | pos => exact absurd rfl notPos
      | not => exact absurd rfl notNot
      | invert => exact .invert int
    · cases given

theorem test_of_typeComparison {op : CmpOp}
    (given : subject.typeComparison op x y span draft = .ok typed after) :
    Test x y op typed ∧ after = draft := by
  refine ⟨?_, (subject.still_typeComparison.ok given).symm⟩
  obtain ⟨found, named⟩ : ∃ found, Subject.comparison? op = some found := by
    cases named : Subject.comparison? op with
    | none =>
      rw [Subject.typeComparison, named] at given
      cases given
    | some found => exact ⟨found, rfl⟩
  rw [Subject.typeComparison, named] at given
  have decided (same : x.type = y.type) (chosen : typed = .compare found x y) :
      Test x y op typed := chosen ▸ .same named same
  cases leftType : x.type <;> cases rightType : y.type <;>
    rw [leftType, rightType] at given decided <;> cases given
  case int.float => exact .intFloat named leftType rightType
  case float.int => exact .floatInt named leftType rightType
  all_goals exact decided rfl rfl

theorem logic_of_typeLogic {op : BoolOp}
    (given : subject.typeLogic op x y span draft = .ok typed after) :
    (typed = .logic (logicOp op) x y ∧ x.type = y.type) ∧ after = draft := by
  unfold Subject.typeLogic at given
  dsimp only at given
  split at given
  · rename_i same
    cases given
    refine ⟨⟨?_, same⟩, rfl⟩
    cases op <;> rfl
  · cases given

theorem requireInt_eq_ok (given : subject.requireInt x span draft = .ok typed after) :
    (typed = x ∧ x.type = .int) ∧ after = draft := by
  unfold Subject.requireInt at given
  split at given
  · cases given
    exact ⟨⟨rfl, ‹_›⟩, rfl⟩
  · cases given

end Operators

section Locals

variable {id : LocalId} {expr : Surface.Expr}

theorem hasArray_of_array? (holds : layout.Holds scope)
    (found : scope.array? expr = some id) :
    (scope.decl id).kind = .array (scope.decl id).kind.numType ∧
      layout.HasArray expr id (scope.decl id).kind.numType := by
  obtain ⟨name, named, found⟩ := Option.bind_eq_some_iff.1 found
  obtain ⟨other, led, found⟩ := Option.bind_eq_some_iff.1 found
  split at found
  · rename_i array
    cases found
    cases expr <;> cases named
    have declared := Scope.locals_of_isArray array
    have kind : (scope.decl id).kind = .array (scope.decl id).kind.numType := by
      cases same : (scope.decl id).kind with
      | scalar =>
        rw [same] at array
        cases array
      | array => rfl
    exact ⟨kind, .name (holds.lookup led) (holds.locals declared) kind⟩
  · cases found

theorem hasScalar_of_lookup? (holds : layout.Holds scope) (sound : scope.Sound)
    (found : scope.lookup? name = some id) (scalar : (scope.decl id).kind = .scalar type) :
    layout.HasScalar name id type := by
  obtain ⟨decl, declared, -, -⟩ := sound.named found
  refine ⟨holds.lookup found, decl, holds.locals declared, ?_⟩
  rw [← scalar, Scope.decl, List.getD_eq_getElem?_getD, declared]
  rfl

theorem requireArray_eq_ok {after : Draft}
    (given : subject.requireArray expr draft = .ok id after) :
    draft.scope.array? expr = some id ∧ after = draft := by
  obtain ⟨scope, between, same, given⟩ := Attempt.bind_eq_ok.1 given
  cases same
  cases found : draft.scope.array? expr with
  | none =>
    rw [found] at given
    cases given
  | some other =>
    rw [found] at given
    cases given
    exact ⟨rfl, rfl⟩

end Locals

/-- Typing from a scope: the draft only grows, and something is sure of what is given. -/
structure Turns (program : Program) (layout : Layout) (scope : Scope) (sure good : α → Scope → Prop)
    (typing : Typing α) : Prop where
  run : ∀ {draft value after}, draft.scope = scope → draft.closure.Indexed →
    typing draft = .ok value after → draft.Grows program after ∧ sure value after.scope ∧
      (layout.Fits after → good value after.scope)

variable {next : α → Typing β} {value : α} {fine : β → Scope → Prop}

namespace Turns

variable {sure good : α → Scope → Prop} {typing : Typing α}

theorem pure (known : sure value scope) (holds : good value scope) :
    Turns program layout scope sure good (Pure.pure value) where
  run {draft _ _} here _ given := by
    cases given
    rw [here]
    exact ⟨refl_of (Draft.Grows program) draft, known, fun _ => holds⟩

theorem refuse :
    Turns program layout scope sure good (Attempt.refuse refusal) where
  run _ _ given := nomatch given

theorem bind (first : Turns program layout scope sure good typing)
    (rest : ∀ value middle, scope.Grows middle → sure value middle → Turns program layout middle
      also (fun result last => good value middle → fine result last) (next value)) :
    Turns program layout scope also fine (typing >>= next) where
  run {draft result after} here keyed given := by
    obtain ⟨value, between, ran, given⟩ := Attempt.bind_eq_ok.1 given
    obtain ⟨one, known, held⟩ := first.run here keyed ran
    obtain ⟨two, settled, leads⟩ :=
      (rest value _ (here ▸ one.scope) known).run rfl (one.closure.indexed keyed) given
    exact ⟨trans_of (Draft.Grows program) one two, settled,
      fun fits => leads fits (held (fits.before two))⟩

theorem held (turns : Turns program layout scope sure
      (fun value last => layout.Holds scope → good value last) typing) :
    Turns program layout scope sure good typing where
  run {draft value after} here keyed given := by
    obtain ⟨grows, known, leads⟩ := turns.run here keyed given
    exact ⟨grows, known, fun fits => leads fits (here ▸ (fits.before grows).toHolds)⟩

theorem look {next : Scope → Typing α}
    (rest : Turns program layout scope sure (fun value last => layout.Holds scope → good value last)
      (next scope)) :
    Turns program layout scope sure good (Typing.scope >>= next) where
  run here keyed given := by
    obtain ⟨_, _, entered, given⟩ := Attempt.bind_eq_ok.1 given
    cases entered
    rw [here] at given
    exact rest.held.run here keyed given

theorem mono {also fine : α → Scope → Prop} (turns : Turns program layout scope sure good typing)
    (settles : ∀ {value last}, sure value last → also value last)
    (leads : ∀ {value last}, sure value last → good value last → fine value last) :
    Turns program layout scope also fine typing where
  run here keyed given := by
    obtain ⟨grows, known, held⟩ := turns.run here keyed given
    exact ⟨grows, settles known, fun fits => leads known (held fits)⟩

theorem onPath {entry : Definite}
    (inner : Turns program layout { scope with definite := entry } sure good typing) :
    Turns program layout scope (fun value last => value.2 = last.definite ∧ sure value.1 last)
      (fun value last => good value.1 last) (Subject.onPath entry typing) where
  run {draft value after} here keyed given := by
    obtain ⟨_, _, placed, given⟩ := Attempt.bind_eq_ok.1 given
    have grows : draft.Grows program _ := Subject.grows_setDefinite.ok placed
    cases placed
    obtain ⟨_, _, ran, given⟩ := Attempt.bind_eq_ok.1 given
    obtain ⟨_, _, entered, ended⟩ := Attempt.bind_eq_ok.1 given
    cases entered
    cases ended
    obtain ⟨goes, known, held⟩ := inner.run (by rw [← here]) (grows.closure.indexed keyed) ran
    exact ⟨trans_of (Draft.Grows program) grows goes, ⟨rfl, known⟩, held⟩

theorem setDefinite (change : Definite → Definite) :
    Turns program layout scope
      (fun _ last => last = { scope with definite := change scope.definite }) (fun _ _ => True)
      (Typing.setDefinite change) where
  run here _ given := by
    refine ⟨Subject.grows_setDefinite.ok given, ?_, fun _ => trivial⟩
    cases given
    rw [← here]

end Turns

/-- Typing that leaves the scope as it is. -/
abbrev Shows (program : Program) (layout : Layout) (scope : Scope) (good : α → Prop)
    (typing : Typing α) : Prop :=
  Turns program layout scope (fun _ last => last = scope) (fun value _ => good value) typing

namespace Shows

variable {good : α → Prop} {typing : Typing α}

theorem pure (holds : good value) :
    Shows program layout scope good (Pure.pure value) :=
  Turns.pure rfl holds

theorem andThen (first : Shows program layout scope good typing)
    (rest : ∀ value, Turns program layout scope also (fun result last => good value → fine result
      last) (next value)) : Turns program layout scope also fine (typing >>= next) :=
  Turns.bind first fun value middle _ same => by
    subst same
    exact rest value

theorem bind {fine : β → Prop} (first : Shows program layout scope good typing)
    (rest : ∀ value, Shows program layout scope (fun result => good value → fine result)
      (next value)) :
    Shows program layout scope fine (typing >>= next) :=
  first.andThen rest

theorem look {next : Scope → Typing α}
    (rest : Shows program layout scope (fun value => layout.Holds scope → good value) (next scope)) :
    Shows program layout scope good (Typing.scope >>= next) :=
  Turns.look rest

theorem mono {fine : α → Prop} (shows : Shows program layout scope good typing)
    (leads : ∀ {value}, good value → fine value) : Shows program layout scope fine typing :=
  Turns.mono shows id fun _ => leads

theorem still (found : ∀ {draft value after}, typing draft = .ok value after →
    good value ∧ after = draft) : Shows program layout scope good typing where
  run here _ given := by
    obtain ⟨held, rfl⟩ := found given
    exact ⟨refl_of (Draft.Grows program) _, here, fun _ => held⟩

theorem requireArray :
    Shows program layout scope (scope.array? expr = some ·) (subject.requireArray expr) where
  run here _ given := by
    obtain ⟨found, rfl⟩ := requireArray_eq_ok given
    exact ⟨refl_of (Draft.Grows program) _, here, fun _ => here ▸ found⟩

theorem captureConstant {good : Expr → Prop} {value : Scalar} (holds : good (.const value)) :
    Shows program layout scope good (Subject.captureConstant name value) where
  run here _ given := by
    have requests : Draft.Requests program _ _ :=
      Subject.requests_captureConstant.ok given
    refine ⟨requests.grows, requests.scope.trans here, fun _ => ?_⟩
    cases given
    exact holds

end Shows

section Expressions

variable (served : subject.Served program)

include served

theorem known_typeModuleCall :
    Shows program layout scope
      (fun x => ∃ callee,
        (∃ type, x = .call callee type (args.map (·.2)) ∧
          layout.signature? callee = some ⟨name, args.map (·.1), .scalar type⟩) ∨
        (isStatement = true ∧ x = .call callee .int (args.map (·.2)) ∧
          layout.signature? callee = some ⟨name, args.map (·.1), .nothing⟩))
      (subject.typeModuleCall name args span isStatement) := by
  have answered : Shows program layout scope
      (fun answer => layout.signature? answer.1 = some ⟨name, args.map (·.1), answer.2⟩)
      (subject.requestCallee name (args.map (·.1)) span) := by
    constructor
    intro draft answer after here keyed given
    have requests := (subject.requests_requestCallee served.specializes).ok given
    refine ⟨requests.grows, requests.scope.trans here, fun fits => ?_⟩
    obtain ⟨closure, answered, rfl⟩ := Attempt.onPart_eq_ok.1 (Attempt.mapRefusal_eq_ok.1 given)
    exact fits.answers (served.answers keyed answered)
  refine .bind answered ?_
  rintro ⟨callee, result⟩
  cases result with
  | scalar type => exact .pure fun known => ⟨callee, .inl ⟨type, rfl, known⟩⟩
  | nothing =>
    dsimp only
    split
    · exact .pure fun known => ⟨callee, .inr ⟨‹_›, rfl, known⟩⟩
    · exact .refuse
  | array => exact .refuse

variable (same : layout.program = program) (sound : scope.Sound)
  (alive : scope.definite.dead = false)

include same sound alive

theorem renders_typeName :
    Shows program layout scope (Renders layout scope.definite.assigned (.name span name))
      (subject.typeName name span) := by
  apply Shows.look
  split
  · rename_i isLocal
    cases found : (scope.lookup? name).filter scope.definite.isAssigned with
    | none => exact .refuse
    | some id =>
      obtain ⟨found, hasValue⟩ := Option.filter_eq_some_iff.1 found
      dsimp only
      cases kind : (scope.decl id).kind with
      | array => exact .refuse
      | scalar type =>
        refine .pure fun holds => .var ?_ (hasScalar_of_lookup? holds sound found kind) ?_
        · rw [← holds.localNames]
          exact List.contains_iff_mem.1 isLocal
        · rw [Definite.isAssigned, alive] at hasValue
          exact List.contains_iff_mem.1 hasValue
  · rename_i isGlobal
    cases found : subject.program.constant? name with
    | none => exact .refuse
    | some value =>
      refine .captureConstant fun holds => .constant (holds.isGlobal isGlobal) ?_
      rw [same, ← served.same, found]

mutual

theorem renders_typeExpr {expr : Surface.Expr} :
    Shows program layout scope (Renders layout scope.definite.assigned expr)
      (subject.typeExpr expr) := by
  unfold Subject.typeExpr
  match expr with
  | .int _ _ => exact .pure .int
  | .float _ _ => exact .pure .float
  | .bool _ _ => exact .pure .bool
  | .name place text => exact renders_typeName served same sound alive
  | .binary _ op left right =>
    refine .bind renders_typeExpr fun x => .bind renders_typeExpr fun y => ?_
    exact (Shows.still operation_of_typeArith).mono
      fun operation second first => .binary first second operation
  | .unary _ op operand =>
    refine .bind renders_typeExpr fun x => ?_
    exact (Shows.still inversion_of_typeUnary).mono fun inversion inner => .unary inner inversion
  | .boolOp _ op left right =>
    refine .bind renders_typeExpr fun x => .bind renders_typeExpr fun y => ?_
    apply (Shows.still logic_of_typeLogic).mono
    rintro _ ⟨rfl, agree⟩ second first
    exact .logic first second agree
  | .compare place left rest =>
    refine .bind renders_typeExpr fun x => ?_
    exact renders_typeChain.mono fun chain first => .compare first chain
  | .subscript _ value index =>
    refine .bind .requireArray fun id => .bind renders_typeExpr fun x => ?_
    refine .bind (.still requireInt_eq_ok) fun position => .look (.pure ?_)
    rintro holds ⟨rfl, int⟩ inner found
    exact .subscript (hasArray_of_array? holds found).2 inner int
  | .conditional _ cond yes no =>
    refine .bind renders_typeExpr fun test => .bind renders_typeExpr fun x =>
      .bind renders_typeExpr fun y => ?_
    split
    · exact .pure fun third second first => .conditional first second third ‹_›
    · exact .refuse
  | .call place func args keywords =>
    dsimp only
    cases named : func.name? with
    | none => exact .refuse
    | some name =>
      cases func <;> cases named
      apply Shows.look
      split
      · exact .refuse
      rename_i isLocal
      split
      · rename_i defined
        rw [served.same, ← same] at defined
        split
        · rename_i noKeywords
          rw [List.isEmpty_iff.1 noKeywords]
          refine .bind renders_typeArgs fun values => ?_
          apply (known_typeModuleCall served).mono
          rintro _ ⟨callee, ⟨type, rfl, known⟩ | ⟨⟨⟩, -, -⟩⟩ inner holds
          exact .call (holds.isGlobal isLocal) defined inner known
        · exact .refuse
      · rename_i undefined
        rw [served.same, ← same, Option.not_isSome_iff_eq_none] at undefined
        split
        · rename_i noKeywords
          rw [List.isEmpty_iff.1 noKeywords]
          exact (renders_typeBuiltin name args place place _).mono
            fun renders holds => renders ⟨holds.isGlobal isLocal, undefined⟩
        · exact .refuse
  | .none _ | .str _ _ | .member _ _ _ | .list _ _ | .tuple _ _ | .dict _ _ | .lambda _ _ _ =>
    exact .refuse

theorem renders_typeChain {left : Expr} {before : Option Expr}
    {rest : List (CmpOp × Surface.Expr)} :
    Shows program layout scope (RendersChain layout scope.definite.assigned left before rest)
      (subject.typeChain span left before rest) := by
  unfold Subject.typeChain
  match rest with
  | [] =>
    cases before with
    | none => exact .refuse
    | some chain => exact .pure .done
  | (op, written) :: rest =>
    refine .bind renders_typeExpr fun right => ?_
    split
    · exact .refuse
    rename_i simple
    refine .bind (.still test_of_typeComparison) fun test => ?_
    refine renders_typeChain.mono fun others compares first =>
      .more first ?_ compares others
    rcases rest with _ | ⟨_, _⟩
    · exact .inl rfl
    · exact .inr (by simpa using simple)

theorem renders_typeArgs {args : List Surface.Expr} :
    Shows program layout scope
      (fun values => RendersArgs layout scope.definite.assigned args (values.map (·.1))
        (values.map (·.2)))
      (subject.typeArgs args) := by
  unfold Subject.typeArgs
  match args with
  | [] => exact .pure .nil
  | arg :: rest =>
    apply Shows.look
    cases found : scope.array? arg with
    | some id =>
      dsimp only
      rw [pure_bind]
      refine .bind renders_typeArgs fun others => .pure fun inner holds => ?_
      obtain ⟨kind, array⟩ := hasArray_of_array? holds found
      rw [List.map_cons, List.map_cons, kind]
      exact .array array inner
    | none =>
      refine .bind renders_typeExpr fun x => ?_
      rw [pure_bind]
      exact .bind renders_typeArgs fun others =>
        .pure fun inner first _ => .scalar first inner

/-- A call of a builtin is rendered by the code for that builtin, as long as its name is not
taken. -/
theorem renders_typeBuiltin (name : String) (args : List Surface.Expr) (span place origin : Span) :
    Shows program layout scope
      (fun x => layout.IsBuiltin name →
        Renders layout scope.definite.assigned (.call place (.name origin name) args []) x)
      (subject.typeBuiltin name args span) := by
  unfold Subject.typeBuiltin
  match args with
  | [] | _ :: _ :: _ :: _ => split <;> exact .refuse
  | [arg] =>
    split
    · apply Shows.look
      cases found : scope.array? arg with
      | none => exact .refuse
      | some id => exact .pure fun holds builtin => .len builtin (hasArray_of_array? holds found).2
    · refine .bind renders_typeExpr fun x => ?_
      unfold Subject.typeAbs
      split
      · exact .refuse
      · exact .pure fun inner builtin => .abs builtin inner ‹_›
    · exact .refuse
    · exact .refuse
    · exact .bind renders_typeExpr fun x =>
        .pure fun inner builtin => .convert (.inl rfl) builtin inner
    · exact .bind renders_typeExpr fun x =>
        .pure fun inner builtin => .convert (.inr rfl) builtin inner
    · exact .refuse
    · exact .refuse
  | [a, b] =>
    -- the two operations differ in their name only
    have both (other : String) : Shows program layout scope
        (fun x => ∃ y z, Renders layout scope.definite.assigned a y ∧
          Renders layout scope.definite.assigned b z ∧ y.type = z.type ∧ y.type ≠ .bool ∧
          x = .extremum (if other = "min" then .min else .max) y z)
        (do
          let left ← subject.typeExpr a
          let right ← subject.typeExpr b
          subject.typeExtremum other left right span) := by
      refine .bind renders_typeExpr fun y => .bind renders_typeExpr fun z => ?_
      unfold Subject.typeExtremum
      by_cases apart : y.type ≠ z.type ∨ y.type = .bool
      · rw [if_pos apart]
        exact .refuse
      · rw [if_neg apart]
        have agree := not_or.1 apart
        rw [Decidable.not_not] at agree
        exact .pure fun second first => ⟨y, z, first, second, agree.1, agree.2, rfl⟩
    split
    · exact .refuse
    · exact .refuse
    · apply (both "min").mono
      rintro _ ⟨y, z, first, second, agree, number, rfl⟩ builtin
      exact .min builtin first second agree number
    · apply (both "max").mono
      rintro _ ⟨y, z, first, second, agree, number, rfl⟩ builtin
      exact .max builtin first second agree number
    all_goals exact .refuse

end

theorem renders_typeEffect {expr : Surface.Expr} :
    Shows program layout scope (RendersEffect layout scope.definite.assigned expr)
      (subject.typeEffect expr) := by
  have plain := (@renders_typeExpr _ _ _ _ served same sound alive expr).mono RendersEffect.value
  unfold Subject.typeEffect
  split
  · rename_i span func args keywords
    apply Shows.look
    have plain := plain.mono fun renders (_ : layout.Holds scope) => renders
    cases named : func.name? with
    | none => exact plain
    | some name =>
      cases func <;> cases named
      dsimp only
      split
      · rename_i called
        rw [Bool.and_eq_true, Bool.not_eq_true', ← Bool.not_eq_true, served.same, ← same] at called
        split
        · rename_i noKeywords
          rw [List.isEmpty_iff.1 noKeywords]
          refine .bind (renders_typeArgs served same sound alive) fun values => ?_
          apply (known_typeModuleCall served).mono
          intro x known inner holds
          have isGlobal := holds.isGlobal called.1
          obtain ⟨callee, ⟨type, rfl, known⟩ | ⟨-, rfl, known⟩⟩ := known
          · exact .value (.call isGlobal called.2 inner known)
          · exact .call isGlobal called.2 inner known
        · exact .refuse
      · exact plain
  · exact plain

theorem renders_typeBounds (args : List Surface.Expr) :
    Shows program layout scope
      (List.Forall₂ (fun arg bound => Renders layout scope.definite.assigned arg bound ∧
        bound.type = .int) args)
      (subject.typeBounds args) := by
  unfold Subject.typeBounds
  induction args with
  | nil => exact .pure .nil
  | cons arg args ih =>
    rw [List.mapM_cons]
    refine .bind (.bind (renders_typeExpr served same sound alive) fun x => ?_) fun bound =>
      .bind ih fun others => .pure fun rest first => .cons first rest
    split
    · exact .pure fun renders => ⟨renders, ‹_›⟩
    · exact .refuse

/-- What a loop runs over is a call of the builtin `range` whose bounds are rendered. -/
theorem renders_typeRange {iter : Surface.Expr} :
    Shows program layout scope
      (fun range => ∃ origin spot bounds, iter = .call origin (.name spot "range") bounds [] ∧
        "range" ∉ layout.localNames ∧
        RendersRange layout scope.definite.assigned bounds range.1 range.2.1 range.2.2)
      (subject.typeRange iter) := by
  unfold Subject.typeRange
  split
  · rename_i origin func args keywords
    apply Shows.look
    split
    · exact .refuse
    rename_i plain
    simp only [Bool.or_eq_true, decide_eq_true_eq, Bool.not_eq_true', not_or, Decidable.not_not,
      Bool.not_eq_false, ne_eq] at plain
    obtain ⟨⟨named, isLocal⟩, noKeywords⟩ := plain
    cases func <;> cases named
    rename_i spot
    cases List.isEmpty_iff.1 noKeywords
    refine .bind (renders_typeBounds served same sound alive args) fun bounds => ?_
    split
    · refine .pure fun renders holds => ⟨origin, spot, args, rfl, holds.isGlobal isLocal, ?_⟩
      obtain _ | ⟨⟨ends, stopInt⟩, _ | _⟩ := renders
      exact .stop ends stopInt
    · refine .pure fun renders holds => ⟨origin, spot, args, rfl, holds.isGlobal isLocal, ?_⟩
      obtain _ | ⟨⟨begins, startInt⟩, _ | ⟨⟨ends, stopInt⟩, _ | _⟩⟩ := renders
      exact .bounds begins startInt ends stopInt
    · refine .pure fun renders holds => ⟨origin, spot, args, rfl, holds.isGlobal isLocal, ?_⟩
      obtain _ | ⟨⟨begins, startInt⟩, _ | ⟨⟨ends, stopInt⟩, _ | ⟨⟨moves, stepInt⟩, _ | _⟩⟩⟩ :=
        renders
      exact .strided begins startInt ends stopInt moves stepInt
    · exact .refuse
  · exact .refuse

end Expressions

section Statements

theorem turns_bindLocal (sound : scope.Sound) :
    Turns program layout scope (fun _ last => last.definite = scope.definite)
      (fun id _ => layout.HasScalar name id type)
      (subject.bindLocal name (.scalar type) span) where
  run {draft id after} here _ given := by
    subst here
    refine ⟨subject.grows_bindLocal.ok given, ?_⟩
    rcases subject.bindLocal_eq_ok given with ⟨fresh, rfl, rfl⟩ | ⟨found, kind, rfl⟩
    · refine ⟨rfl, fun fits => ⟨fits.lookup ?_, ⟨name, .scalar type, .user⟩, fits.locals ?_, rfl⟩⟩
      · rw [Scope.lookup?_declare, if_pos rfl]
      · exact List.getElem?_concat_length
    · exact ⟨rfl, fun fits => hasScalar_of_lookup? fits.toHolds sound found kind⟩

theorem turns_temp (hint : String) (type : NumType) :
    Turns program layout scope
      (fun id last => id = scope.locals.length ∧ last.definite = scope.definite ∧
        last.locals.length = scope.locals.length + 1)
      (fun id _ => layout.HasTemp id type) (Typing.onScope (·.temp hint (.scalar type))) where
  run {draft id after} here _ given := by
    subst here
    refine ⟨Subject.grows_temp.ok given, ?_⟩
    cases given
    refine ⟨⟨rfl, rfl, List.length_append⟩, fun fits => ?_⟩
    exact ⟨_, fits.locals List.getElem?_concat_length, rfl, rfl⟩

theorem turns_intoTemp (hint : String) (x : Expr) :
    Turns program layout scope
      (fun temp last => temp = (scope.locals.length, .assign scope.locals.length x) ∧
        last.definite = scope.definite.assign scope.locals.length ∧
        last.locals.length = scope.locals.length + 1)
      (fun _ _ => layout.HasTemp scope.locals.length x.type) (Subject.intoTemp hint x) := by
  refine .bind (turns_temp hint x.type) fun id middle _ declared => ?_
  obtain ⟨rfl, kept, length⟩ := declared
  refine .bind (.setDefinite _) fun _ last _ same => ?_
  subst same
  exact .pure ⟨rfl, by rw [← kept], length⟩ fun _ fresh => fresh

theorem turns_raisePurity :
    Shows program layout scope (fun _ => layout.purity = .mutatesContainer)
      (Typing.raisePurity .mutatesContainer) where
  run here _ given := by
    refine ⟨Subject.grows_raisePurity.ok given, ?_⟩
    cases given
    exact ⟨here, fun fits => fits.effects (Typed.Purity.join_eq_mutatesContainer.2 (.inr rfl))⟩

theorem turns_storeElement {value : Expr} :
    Turns program layout scope
      (fun stmts last => value.type = (scope.decl array).kind.numType ∧
        stmts = [.store array index value] ∧ last = scope)
      (fun _ _ => layout.purity = .mutatesContainer)
      (subject.storeElement array index value span) := by
  apply Turns.look
  dsimp only
  split
  · exact Shows.andThen turns_raisePurity fun _ => .pure ⟨‹_›, rfl, rfl⟩ fun noted _ => noted
  · exact .refuse

theorem turns_recordReturn :
    Shows program layout scope (fun _ => layout.result = kind)
      (subject.recordReturn kind span) where
  run {draft done after} here _ given := by
    refine ⟨subject.grows_recordReturn.ok given, ?_⟩
    unfold Subject.recordReturn at given
    split at given
    · cases given
      exact ⟨here, fun fits => fits.result rfl⟩
    · rename_i found first
      split at given
      · rename_i agree
        cases given
        exact ⟨here, fun fits => agree ▸ fits.result first⟩
      · cases given

theorem Subject.storeTargets_cons (target : Surface.Expr) (x : Expr)
    (rest : List (Surface.Expr × Expr)) :
    subject.storeTargets ((target, x) :: rest) = (do
      let first ← subject.storeTarget target x
      let others ← subject.storeTargets rest
      pure (first ++ others)) := by
  simp [Subject.storeTargets]

variable (served : subject.Served program) (same : layout.program = program)

include served same

theorem stores_storeTarget (sound : scope.Sound) (alive : scope.definite.dead = false)
    (target : Surface.Expr) (x : Expr) :
    Turns program layout scope (fun _ last => last.definite.dead = false)
      (fun stmts last => Stores layout scope.definite.assigned x target stmts
        last.definite.assigned)
      (subject.storeTarget target x) := by
  unfold Subject.storeTarget
  split
  · refine .bind (turns_bindLocal sound) fun id middle _ kept => ?_
    refine .bind (.setDefinite _) fun _ last _ same => ?_
    subst same
    refine .pure ?_ fun _ scalar => ?_
    · change middle.definite.dead = false
      rw [kept, alive]
    · rw [kept]
      exact .name scalar
  · refine Shows.andThen .requireArray fun array =>
      Shows.andThen (renders_typeExpr served same sound alive) fun position =>
      Shows.andThen (.still requireInt_eq_ok) fun _ =>
      .held (turns_storeElement.mono ?_ ?_)
    · rintro _ _ ⟨-, -, rfl⟩
      exact alive
    · rintro _ _ ⟨agree, rfl, rfl⟩ noted holds ⟨rfl, int⟩ inner found
      have array := (hasArray_of_array? holds found).2
      rw [← agree] at array
      exact .element array noted inner int
  · exact .refuse

theorem storesAll_storeTargets (targets : List Surface.Expr) :
    ∀ {scope : Scope} (temps : List (LocalId × NumType)), targets.length = temps.length →
      scope.Sound → scope.definite.dead = false →
        Turns program layout scope (fun _ last => last.definite.dead = false)
          (fun stmts last => StoresAll layout scope.definite.assigned targets temps stmts
            last.definite.assigned)
          (subject.storeTargets (targets.zip (temps.map fun temp => .var temp.1 temp.2))) := by
  induction targets with
  | nil =>
    intro scope temps lengths _ alive
    cases temps with
    | nil => exact .pure alive .nil
    | cons => cases lengths
  | cons target targets ih =>
    intro scope temps lengths sound alive
    cases temps with
    | nil => cases lengths
    | cons temp temps =>
      rw [List.map_cons, List.zip_cons_cons, Subject.storeTargets_cons]
      refine .bind (stores_storeTarget served same sound alive target _) fun first middle grows here =>
        .bind (ih temps (Nat.succ.inj lengths) (grows.sound sound) here) fun others last _ still =>
        .pure still fun later first => .cons first later

/-- The values of an unpacking are kept in temporaries of their own, in the order of the source. -/
theorem spills_mapM (exprs : List Surface.Expr) : ∀ {scope : Scope}, scope.Sound →
    scope.definite.dead = false →
      Turns program layout scope
        (fun pairs last => last.definite.dead = false ∧ ∃ temps : List (LocalId × NumType),
          temps.length = exprs.length ∧
            pairs.map (·.1) = temps.map (fun temp => Expr.var temp.1 temp.2))
        (fun pairs last => ∃ temps : List (LocalId × NumType),
          pairs.map (·.1) = temps.map (fun temp => Expr.var temp.1 temp.2) ∧
          Spills layout scope.definite.assigned exprs temps (pairs.map (·.2))
            last.definite.assigned ∧
          ∀ temp ∈ temps, scope.locals.length ≤ temp.1)
        (exprs.mapM fun expr => do
          let typed ← subject.typeExpr expr
          let temp ← Subject.intoTemp "unpack" typed
          pure (Expr.var temp.1 typed.type, temp.2)) := by
  induction exprs with
  | nil => exact fun _ alive => .pure ⟨alive, [], rfl, rfl⟩ ⟨[], rfl, .nil, nofun⟩
  | cons expr exprs ih =>
    intro scope sound alive
    rw [List.mapM_cons, bind_assoc]
    refine Shows.andThen (renders_typeExpr served same sound alive) fun x => ?_
    rw [bind_assoc]
    refine .bind (turns_intoTemp "unpack" x) fun temp middle grows spilled => ?_
    obtain ⟨rfl, definite, length⟩ := spilled
    rw [pure_bind]
    refine .bind (ih (grows.sound sound) (by rw [definite]; exact alive)) fun others last _ rest => ?_
    obtain ⟨still, temps, lengths, named⟩ := rest
    refine .pure ⟨still, (_, x.type) :: temps, congrArg Nat.succ lengths, congrArg _ named⟩ ?_
    rintro ⟨temps, named, spills, later⟩ fresh inner
    rw [length] at later
    rw [definite] at spills
    refine ⟨(_, x.type) :: temps, congrArg _ named, .cons inner fresh ?_ spills, ?_⟩
    · exact fun temp member => Nat.ne_of_gt (later temp member)
    · exact List.forall_mem_cons.2 ⟨.refl, fun temp member => Nat.le_of_succ_le (later temp member)⟩

omit served same in
private theorem pairs_eq_zip (targets : List Surface.Expr) (id : LocalId) (type : NumType) :
    targets.map (fun target => (target, Expr.var id type)) =
      targets.zip ((List.replicate targets.length (id, type)).map fun temp =>
        .var temp.1 temp.2) := by
  induction targets with
  | nil => rfl
  | cons target targets ih =>
    rw [List.map_cons, ih, List.length_cons, List.replicate_succ, List.map_cons,
      List.zip_cons_cons]

section Alive

variable (sound : scope.Sound) (alive : scope.definite.dead = false)

include sound alive

theorem renders_typeUnpacking {items : List Surface.Expr}
    (display : ∃ place, target = .tuple place items ∨ target = .list place items)
    (value : Surface.Expr) (span : Span) :
    Turns program layout scope (fun _ last => last.definite.dead = false)
      (fun stmts last => RendersAssign layout scope.definite.assigned [target] value stmts
        last.definite.assigned)
      (subject.typeUnpacking items value span) := by
  unfold Subject.typeUnpacking
  split
  · rename_i values
    split
    · rename_i lengths
      refine .bind (spills_mapM served same values sound alive) fun pairs middle grows spilled => ?_
      obtain ⟨alive, temps, count, named⟩ := spilled
      rw [named]
      refine .bind (storesAll_storeTargets served same items temps (lengths.symm.trans count.symm)
        (grows.sound sound) alive) fun stores last _ still => .pure still ?_
      rintro stored ⟨others, also, spills, -⟩
      have distinct : Function.Injective fun temp : LocalId × NumType => Expr.var temp.1 temp.2 := by
        rintro ⟨_, _⟩ ⟨_, _⟩ ⟨⟩
        rfl
      cases List.map_injective_iff.2 distinct also
      exact .unpack display spills stored
    · exact .refuse
  · exact .refuse

theorem renders_typeAssign {value : Surface.Expr} :
    Turns program layout scope (fun _ last => last.definite.dead = false)
      (fun stmts last => RendersAssign layout scope.definite.assigned targets value stmts
        last.definite.assigned)
      (subject.typeAssign targets value span) := by
  unfold Subject.typeAssign
  split
  · split
    · rename_i single
      rw [List.isEmpty_iff.1 single]
      exact renders_typeUnpacking served same sound alive ⟨_, .inl rfl⟩ value span
    · exact .refuse
  · split
    · rename_i single
      rw [List.isEmpty_iff.1 single]
      exact renders_typeUnpacking served same sound alive ⟨_, .inr rfl⟩ value span
    · exact .refuse
  · apply Turns.look
    cases found : scope.array? value with
    | some => exact .refuse
    | none =>
      refine Shows.andThen (renders_typeExpr served same sound alive) fun x => ?_
      split
      · exact (stores_storeTarget served same sound alive _ x).mono id
          fun _ stores inner _ => .single inner stores
      · refine .bind (turns_intoTemp "chain" x) fun temp middle grows spilled => ?_
        obtain ⟨rfl, definite, -⟩ := spilled
        dsimp only
        rw [pairs_eq_zip]
        refine .bind (storesAll_storeTargets served same targets _ List.length_replicate.symm
          (grows.sound sound) (by rw [definite]; exact alive)) fun stores last _ still =>
          .pure still fun stored fresh inner _ => .chain inner fresh ?_
        rwa [definite] at stored

theorem renders_typeUpdate {value : Surface.Expr} :
    Turns program layout scope (fun _ last => last.definite.dead = false)
      (fun stmts last => RendersUpdate layout scope.definite.assigned target op value stmts
        last.definite.assigned)
      (subject.typeUpdate target op value span) := by
  unfold Subject.typeUpdate
  split
  · refine Shows.andThen (renders_typeExpr served same sound alive) fun current =>
      Shows.andThen (renders_typeExpr served same sound alive) fun operand =>
      Shows.andThen (.still operation_of_typeArith) fun updated => ?_
    exact (stores_storeTarget served same sound alive _ updated).mono id
      fun _ stores operation second first => .name first second operation stores
  · refine Shows.andThen .requireArray fun array =>
      Shows.andThen (renders_typeExpr served same sound alive) fun position =>
      Shows.andThen (.still requireInt_eq_ok) fun _ => ?_
    refine .bind (turns_intoTemp "idx" _) fun temp middle grows spilled => ?_
    obtain ⟨rfl, definite, -⟩ := spilled
    have alive : middle.definite.dead = false := by
      rw [definite]
      exact alive
    apply Turns.look
    refine Shows.andThen (renders_typeExpr served same (grows.sound sound) alive)
      fun operand => Shows.andThen (.still operation_of_typeArith) fun updated => ?_
    refine .bind turns_storeElement fun stores last _ stored => ?_
    obtain ⟨agree, rfl, rfl⟩ := stored
    refine .pure alive ?_
    rintro noted operation inner holds fresh ⟨rfl, int⟩ indexed found
    have array := (hasArray_of_array? holds (grows.array? found)).2
    rw [definite] at inner ⊢
    rw [int] at fresh
    rw [← agree] at array operation
    exact .element array noted indexed int fresh inner operation
  · exact .refuse

theorem renders_typeReturn {value : Option Surface.Expr} :
    Shows program layout scope (RendersReturn layout scope.definite.assigned value)
      (subject.typeReturn value span) := by
  unfold Subject.typeReturn
  split
  · exact .bind turns_recordReturn fun _ => .pure .nothing
  · exact .bind turns_recordReturn fun _ => .pure .none
  · rename_i expr _
    apply Shows.look
    cases found : scope.array? expr with
    | some id =>
      exact .bind turns_recordReturn fun _ => .pure fun agrees holds =>
        .array (hasArray_of_array? holds found).2 agrees
    | none =>
      exact .bind (renders_typeExpr served same sound alive) fun x =>
        .bind turns_recordReturn fun _ => .pure fun agrees inner _ => .scalar inner agrees

theorem writes_typeLoopHead :
    Turns program layout scope (fun _ last => last.definite = scope.definite)
      (fun head _ => ∀ {body typed inside},
        WritesBlock layout (head.2.2.foldl Definite.assign scope.definite) body typed inside →
          Writes layout scope.definite (.forLoop span target iter body)
            [.forLoop head.1 (head.2.1 ++ typed)] scope.definite)
      (subject.typeLoopHead target iter span) := by
  have lives (assigned : List LocalId) :
      ({ scope.definite with assigned } : Definite) = ⟨assigned, false⟩ := by
    rw [← alive]
  unfold Subject.typeLoopHead
  split
  · apply Turns.look
    cases found : scope.array? iter with
    | some array =>
      refine .bind (turns_temp "iter" .int) fun counter middle grows declared => ?_
      refine .bind (turns_bindLocal (grows.sound sound)) fun id last _ kept => ?_
      refine .pure (kept.trans declared.2.1) fun scalar temp holds => ?_
      intro body typed inside repeats
      have repeats : WritesBlock layout { scope.definite with
        assigned := id :: counter :: scope.definite.assigned } body typed inside := repeats
      rw [lives] at repeats
      exact .forArray (hasArray_of_array? holds found).2 temp scalar repeats
    | none =>
      refine Shows.andThen (renders_typeRange served same sound alive) fun range => ?_
      refine .bind (turns_bindLocal sound) fun id last _ kept => ?_
      refine .pure kept fun scalar inner _ => ?_
      obtain ⟨origin, spot, bounds, rfl, isGlobal, inner⟩ := inner
      intro body typed inside repeats
      have repeats : WritesBlock layout { scope.definite with
        assigned := id :: scope.definite.assigned } body typed inside := repeats
      rw [lives] at repeats
      exact .forRange isGlobal inner scalar repeats
  · exact .refuse

end Alive

omit served same in
private theorem assigned_of_kill (endless : Bool) (definite : Definite) :
    (if endless then definite.kill else definite).assigned = definite.assigned := by
  cases endless <;> rfl

mutual

theorem writes_typeStmt {scope : Scope} (sound : scope.Sound) (alive : scope.definite.dead = false)
    (stmt : Surface.Stmt) :
    Turns program layout scope (fun _ _ => True)
      (fun stmts last => Writes layout scope.definite stmt stmts last.definite)
      (subject.typeStmt stmt) := by
  have lives {definite : Definite} (alive : definite.dead = false) :
      definite = ⟨definite.assigned, false⟩ := by
    rw [← alive]
  unfold Subject.typeStmt
  match stmt with
  | .pass _ => exact .pure trivial .pass
  | .expr _ value =>
    exact Shows.andThen (renders_typeEffect served same sound alive) fun x =>
      .pure trivial .expr
  | .assign span targets value =>
    refine (renders_typeAssign served same sound alive).mono (fun _ => trivial)
      fun still inner => ?_
    rw [lives still]
    exact .assign inner
  | .update span target op value =>
    refine (renders_typeUpdate served same sound alive).mono
      (fun _ => trivial) fun still inner => ?_
    rw [lives still]
    exact .update inner
  | .giveBack span value =>
    refine Shows.andThen (renders_typeReturn served same sound alive) fun result =>
      .bind (.setDefinite _) fun _ _ _ same => ?_
    subst same
    exact .pure trivial fun _ inner => .giveBack inner
  | .branch _ cond yes no =>
    dsimp only [Subject.typeCondition]
    rw [bind_assoc]
    refine Shows.andThen (renders_typeExpr served same sound alive) fun x => ?_
    rw [pure_bind]
    refine .look (.bind (.onPath (writes_typeBlock ((scope.grows_definite _).sound sound) yes))
      fun typedYes one first atYes => ?_)
    refine .bind (.onPath (writes_typeBlock
      ((one.grows_definite _).sound (first.sound sound)) no)) fun typedNo two _ atNo => ?_
    refine .bind (.setDefinite _) fun _ _ _ same => ?_
    subst same
    refine .pure trivial fun _ whenNo whenYes _ inner => ?_
    rw [← atYes.1] at whenYes
    rw [← atNo.1] at whenNo
    exact .branch inner whenYes whenNo
  | .whileLoop span cond body =>
    dsimp only [Subject.typeCondition]
    rw [bind_assoc]
    refine Shows.andThen (renders_typeExpr served same sound alive) fun x => ?_
    rw [pure_bind]
    refine .look (.bind (.onPath (writes_typeBlock ((scope.grows_definite _).sound sound) body))
      fun typed middle _ _ => .bind (.setDefinite _) fun _ _ _ same => ?_)
    subst same
    refine .pure trivial fun _ repeats _ inner => .whileLoop inner repeats ?_ ?_
    · exact assigned_of_kill _ _
    · intro dead
      dsimp only at dead
      split at dead
      · rename_i always
        split at dead
        · rename_i stays
          exact ⟨always, by simpa using stays⟩
        · rw [alive] at dead
          cases dead
      · rw [if_neg Bool.false_ne_true, alive] at dead
        cases dead
  | .forLoop span target iter body =>
    refine .bind (writes_typeLoopHead served same sound alive)
      fun head middle grows kept => .look ?_
    refine .bind (.onPath (writes_typeBlock ((middle.grows_definite _).sound (grows.sound sound))
      body)) fun typed last _ _ => .bind (.setDefinite _) fun _ _ _ same => ?_
    subst same
    refine .pure trivial fun _ repeats _ around => ?_
    rw [kept] at repeats
    change Writes layout _ _ _ middle.definite
    rw [kept]
    exact around repeats
  | .leave _ | .skip _ =>
    refine .bind (.setDefinite _) fun _ _ _ same => ?_
    subst same
    first | exact .pure trivial fun _ => .leave | exact .pure trivial fun _ => .skip
  | .importNames _ _ | .importFrom _ _ _ | .globals _ _ | .nonlocals _ _ | .attempt _ _ _ _
  | .raise _ _ | .define _ => exact .refuse

theorem writes_typeBlock {scope : Scope} (sound : scope.Sound) (body : List Surface.Stmt) :
    Turns program layout scope (fun _ _ => True)
      (fun stmts last => WritesBlock layout scope.definite body stmts last.definite)
      (subject.typeBlock body) := by
  match body with
  | [] =>
    unfold Subject.typeBlock
    exact .pure trivial .nil
  | stmt :: rest =>
    unfold Subject.typeBlock
    apply Turns.look
    split
    · rename_i unreachable
      exact .pure trivial fun _ => .dead unreachable
    · rename_i reachable
      have reachable := Bool.not_eq_true _ ▸ reachable
      exact .bind (writes_typeStmt sound reachable stmt) fun first middle grows _ =>
        .bind (writes_typeBlock (grows.sound sound) rest) fun others last _ _ =>
        .pure trivial fun later first _ => .cons reachable first later

end

end Statements

section Functions

def Closure.signature? (closure : Closure) (index : Typed.RoutineIndex) : Option Signature :=
  match closure.entries[index]? with
  | some ⟨name, kinds, .settled routine⟩ => some ⟨name, kinds, routine.result⟩
  | _ => none

variable {before closure : Closure} {name : String} {kinds : List Kind} {index : Nat}

theorem Closure.Answers.signature?
    (answers : before.Answers name kinds index result) (leads : before.Leads closure)
    (settled : ∀ {index : Nat} {entry}, closure.entries[index]? = some entry →
      ∃ routine, entry.progress = .settled routine) :
    closure.signature? index = some ⟨name, kinds, result⟩ := by
  cases answers with
  | settled found =>
    obtain ⟨later, present, becomes⟩ := leads index _ found
    rcases becomes with ⟨⟨⟩⟩
    rw [Closure.signature?, present]
  | assumed found =>
    obtain ⟨later, present, becomes⟩ := leads index _ found
    obtain ⟨routine, done⟩ := settled present
    cases done
    cases becomes with
    | uses goes => cases goes
    | settled confirmed => rw [Closure.signature?, present, ← confirmed rfl]

theorem writes_typeBody (served : subject.Served program) (same : layout.program = program)
    (sound : scope.Sound) (definition : FunctionDef) :
    Turns program layout scope (fun _ _ => True)
      (fun stmts last => WritesBlock layout scope.definite definition.body stmts last.definite ∧
        (last.definite.dead = false → layout.result = .nothing))
      (subject.typeBody definition) := by
  refine .bind (writes_typeBlock served same sound definition.body) fun body middle _ _ =>
    .look ?_
  split
  · exact Shows.andThen turns_recordReturn fun _ =>
      .pure trivial fun agrees _ writes => ⟨writes, fun _ => agrees⟩
  · rename_i dead
    exact .pure trivial fun _ writes => ⟨writes, fun alive => absurd (by rw [alive]; rfl) dead⟩

/-- A routine of the closure was typed from its function, in a scope that had nothing but the
parameters in it. -/
theorem typed_of_stems (stems : Stems program closure name kinds routine) :
    ∃ fuel definition directives start scope body draft, Compilable program name kinds definition ∧
      start.Indexed ∧
      scope.localNames = Surface.assignedNames definition.body ++ definition.paramNames ∧
      scope.locals = (definition.paramNames.zip kinds).zipIdx.map
        (fun param => ⟨param.1.1, param.1.2, .param param.2⟩) ∧
      scope.definite = ⟨(List.range kinds.length).reverse, false⟩ ∧ scope.Sound ∧
      Subject.typeBody ⟨program, name, specialize program fuel⟩ definition
        { closure := start, scope } = .ok body draft ∧
      draft.closure.Leads closure ∧
      routine =
        { name, argKinds := kinds, params := List.range kinds.length, locals := draft.scope.locals
          body, result := draft.result.getD .nothing, purity := draft.purity, directives
          globalsRead := draft.globalsRead, nextLabel := 0 } := by
  obtain ⟨fuel, definition, directives, start, finish, compilable, keyed, typed, leads⟩ := stems
  unfold Subject.typeFunction at typed
  dsimp only at typed
  have lengths : (definition.paramNames.zip kinds).length = kinds.length := by
    rw [List.length_zip, Surface.FunctionOf.paramNames, List.length_map, compilable.arity,
      Nat.min_self]
  let names := Surface.assignedNames definition.body ++ definition.paramNames
  obtain ⟨scope, declared, localNames, locals, definite, sound⟩ :=
    Scope.foldl_declareParam (definition.paramNames.zip kinds) [] { localNames := names }
      (fun param member => List.mem_append_right _ (List.of_mem_zip member).1) ⟨nofun, nofun, nofun⟩
  have declared : Scope.declareParams { localNames := names } (definition.paramNames.zip kinds) =
      (List.range' 0 (definition.paramNames.zip kinds).length, scope) := declared
  rw [declared, lengths, ← List.range_eq_range'] at typed
  split at typed
  · rename_i body draft given
    cases typed
    refine ⟨fuel, definition, directives, start, scope, body, draft, compilable, keyed, localNames,
      ?_, ?_, sound, given, leads, rfl⟩
    · rw [locals]
      rfl
    · rw [definite, lengths, List.append_nil, List.range_eq_range']
      rfl
  · cases typed
  · cases typed

/-- A routine of a settled closure renders the function that it was made from. -/
theorem rendition_of_stems (stems : Stems program closure name kinds routine)
    (settled : ∀ {index : Nat} {entry}, closure.entries[index]? = some entry → ∃ routine,
      entry.progress = .settled routine) :
    ∃ definition layout, Compilable program name kinds definition ∧ layout.program = program ∧
      layout.signature? = closure.signature? ∧ Rendition layout definition kinds routine := by
  obtain ⟨fuel, definition, directives, start, scope, body, draft, compilable, keyed, localNames,
    locals, definite, sound, given, leads, rfl⟩ := typed_of_stems stems
  let layout : Layout :=
    { program, localNames := draft.scope.localNames, ids := draft.scope.ids
      locals := draft.scope.locals, result := draft.result.getD .nothing
      purity := draft.purity, signature? := closure.signature? }
  have fits : layout.Fits draft :=
    { localNames := rfl
      locals := id
      lookup := id
      result := fun found => congrArg (Option.getD · .nothing) found
      effects := id
      answers := fun answers => answers.signature? leads settled }
  have same : layout.program = program := rfl
  obtain ⟨grows, -, held⟩ :=
    (writes_typeBody (served_specialize fuel name) same sound definition).run rfl keyed given
  obtain ⟨writes, ends⟩ := held fits
  have sound := grows.scope.sound sound
  refine ⟨definition, layout, compilable, rfl, rfl, ?_, rfl, rfl, rfl, ?_, rfl, ?_, ?_⟩
  · exact grows.scope.localNames.trans localNames
  · exact ⟨sound.named, sound.arrays, sound.params⟩
  · intro position asked kind found
    apply grows.scope.locals
    rw [locals, List.getElem?_map, List.getElem?_zipIdx, found]
    simp
  · rw [definite] at writes
    exact ⟨_, writes, ends⟩

end Functions

end TwoTier.Eligibility
