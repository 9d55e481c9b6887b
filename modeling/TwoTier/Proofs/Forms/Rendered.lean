import TwoTier.Proofs.Eligibility.Typing
import TwoTier.Proofs.Forms.Sound
import TwoTier.Proofs.Surface.Placement

/-! Typing writes sound code. -/

set_option linter.unusedSectionVars false

namespace TwoTier.Eligibility

open Typed (Arg ArgsFormed BlockSound Domain Env Expr Gained LocalId Profile RoutineIndex Stmt
  Suffices)

variable {id : LocalId} {typed : Expr} {target : Surface.Expr}

/-- Code is read against what was known when it was typed. -/
structure Covers (layout : Layout) (domain : Domain) (inputs : List (LocalId × Kind))
    (storing : Prop) : Prop where
  locals : domain.locals = layout.locals
  result : domain.result = layout.result
  calls : ∀ {callee name kinds result}, layout.signature? callee = some ⟨name, kinds, result⟩ →
    domain.profile? callee = some ⟨kinds, result⟩
  inputs : ∀ {expr id element}, layout.HasArray expr id element → (id, Kind.array element) ∈ inputs
  effects : layout.purity = .mutatesContainer → storing

variable {layout : Layout} {domain : Domain} {inputs : List (LocalId × Kind)} {storing : Prop}
  {assigned : List LocalId}

section

variable (covers : Covers layout domain inputs storing)

include covers

theorem Covers.scalar
    (scalar : layout.HasScalar name id type) : domain.Declares id (.scalar type) := by
  obtain ⟨_, decl, found, kind⟩ := scalar
  exact ⟨decl, covers.locals ▸ found, kind⟩

theorem Covers.temp (temp : layout.HasTemp id type) :
    domain.Declares id (.scalar type) := by
  obtain ⟨decl, found, kind, _⟩ := temp
  exact ⟨decl, covers.locals ▸ found, kind⟩

theorem Covers.array {expr : Surface.Expr} (array : layout.HasArray expr id element) :
    domain.Declares id (.array element) ∧ (id, Kind.array element) ∈ inputs := by
  have input := covers.inputs array
  obtain ⟨_, found, kind⟩ := array
  exact ⟨⟨_, covers.locals ▸ found, kind⟩, input⟩

end

section Operators

variable {env : Env}

theorem has_truth {expr : Expr} (formed : expr.Formed env) : expr.truth.Has env .bool := by
  unfold Expr.truth
  split
  · exact ⟨formed, ‹_›⟩
  · rename_i number
    exact ⟨⟨formed, by simpa [Typed.CastOp.takes] using number⟩, rfl⟩

theorem has_promoted {expr : Expr} (formed : expr.Formed env) (number : expr.type ≠ .bool) :
    expr.promoted.Has env .float := by
  unfold Expr.promoted
  split
  · rename_i int
    exact ⟨⟨formed, by simpa [Typed.CastOp.takes] using int⟩, rfl⟩
  · refine ⟨formed, ?_⟩
    cases type : expr.type <;> simp_all

theorem takes_float {op : ArithOp}
    (real : op ≠ .bitAnd ∧ op ≠ .bitOr ∧ op ≠ .bitXor ∧ op ≠ .shl ∧ op ≠ .shr) :
    op.takes .float = true := by
  simp [ArithOp.takes, real]

theorem Operation.formed {op : Surface.BinOp} (operation : Operation left right op typed)
    (first : left.Formed env) (second : right.Formed env) : typed.Formed env := by
  cases operation with
  | ints named whole leftInt rightInt =>
    refine ⟨⟨first, second⟩, leftInt.trans rightInt.symm, ?_⟩
    simp [leftInt, ArithOp.takes, whole]
  | quotient leftInt rightInt =>
    exact ⟨⟨⟨first, by simp [Typed.CastOp.takes, leftInt]⟩, second,
      by simp [Typed.CastOp.takes, rightInt]⟩, rfl, rfl⟩
  | inverse leftInt literal =>
    exact ⟨⟨⟨first, by simp [Typed.CastOp.takes, leftInt]⟩, second,
      by simp [Typed.CastOp.takes, literal, Expr.type, Scalar.type]⟩, rfl, rfl⟩
  | floats named numbers float real =>
    have one := has_promoted first numbers.1
    have other := has_promoted second numbers.2
    exact ⟨⟨one.1, other.1⟩, one.2.trans other.2.symm, one.2 ▸ takes_float real⟩

theorem Inversion.formed {op : Surface.UnaryOp} (inversion : Inversion operand op typed)
    (formed : operand.Formed env) : typed.Formed env := by
  cases inversion with
  | not => exact ⟨(has_truth formed).1, by rw [(has_truth formed).2]; rfl⟩
  | pos => exact formed
  | neg number => exact ⟨formed, by simpa [Typed.UnaryOp.takes] using number⟩
  | invert int => exact ⟨formed, by simp [Typed.UnaryOp.takes, int]⟩

theorem Test.formed {op : Surface.CmpOp} (test : Test left right op typed) (first : left.Formed env)
    (second : right.Formed env) : typed.Has env .bool := by
  cases test with
  | same named same => exact ⟨⟨⟨first, second⟩, same⟩, rfl⟩
  | intFloat named leftInt rightFloat =>
    exact ⟨⟨⟨⟨first, by simp [Typed.CastOp.takes, leftInt]⟩, second⟩, rightFloat.symm⟩, rfl⟩
  | floatInt named leftFloat rightInt =>
    exact ⟨⟨⟨first, second, by simp [Typed.CastOp.takes, rightInt]⟩, leftFloat⟩, rfl⟩

theorem formed_convert (formed : operand.Formed env) :
    (Subject.convert name operand).Formed env := by
  unfold Subject.convert
  split <;> first
    | exact formed
    | exact ⟨formed, by simp [Typed.CastOp.takes, *]⟩

end Operators

variable {looped breaks : Prop} {after : List LocalId} {stmts : List Stmt}

theorem Stores.subset {value : Expr} (stores : Stores layout assigned value target stmts after) :
    assigned ⊆ after := by
  cases stores with
  | name => exact List.subset_cons_self _ _
  | element => exact List.Subset.refl _

/-- What a point has gained, if a path leads to it. -/
def Definite.gained (definite : Definite) : Option (List LocalId) :=
  if definite.dead then none else some definite.assigned

theorem Definite.gained_of_live {definite : Definite} (live : definite.dead = false) :
    definite.gained = some definite.assigned := by
  simp [gained, live]

theorem Definite.suffices_join (a b : Definite) :
    Suffices a.gained (a.join b).gained ∧ Suffices b.gained (a.join b).gained := by
  unfold join
  split
  · rename_i dead
    exact ⟨by simp [gained, dead, Suffices.of_none], .refl⟩
  · split
    · rename_i dead
      exact ⟨.refl, by simp [gained, dead, Suffices.of_none]⟩
    · rename_i first second
      simp only [gained, first, second]
      refine ⟨fun now same => ⟨_, rfl, ?_⟩, fun now same => ⟨_, rfl, ?_⟩⟩
      · cases same
        exact fun id member => (List.mem_filter.1 member).1
      · cases same
        intro id member
        simpa using (List.mem_filter.1 member).2

/-- Where no path leads, no code is written. -/
theorem WritesBlock.of_dead {known after : Definite} {body : List Surface.Stmt} {typed : List Stmt}
    (writes : WritesBlock layout known body typed after) (dead : known.dead = true) :
    typed = [] ∧ after = known := by
  cases writes with
  | nil | dead => exact ⟨rfl, rfl⟩
  | cons reachable => cases reachable.symm.trans dead

section

variable (covers : Covers layout domain inputs storing)

include covers

mutual

theorem Renders.formed {written : Surface.Expr} {typed : Expr}
    (renders : Renders layout assigned written typed) :
    typed.Formed (domain.reading inputs assigned) := by
  cases renders with
  | int | float | bool | constant => trivial
  | var isLocal scalar hasValue => exact ⟨covers.scalar scalar, hasValue⟩
  | binary first second operation => exact operation.formed first.formed second.formed
  | unary inner inversion => exact inversion.formed inner.formed
  | logic first second same => exact ⟨⟨first.formed, second.formed⟩, same⟩
  | compare first chain => exact (chain.formed first.formed nofun).1
  | call isGlobal defined inner known => exact ⟨_, covers.calls known, rfl, inner.formed⟩
  | len builtin array => exact ⟨_, covers.array array⟩
  | abs builtin inner number => exact ⟨inner.formed, number⟩
  | min builtin first second same number | max builtin first second same number =>
    exact ⟨⟨first.formed, second.formed⟩, same, number⟩
  | convert conversion builtin inner => exact formed_convert inner.formed
  | subscript array inner int => exact ⟨covers.array array, inner.formed, int⟩
  | conditional condition first second same =>
    have test := has_truth condition.formed
    exact ⟨⟨test.1, first.formed, second.formed⟩, test.2, same⟩

theorem RendersChain.formed {left typed : Expr} {before : Option Expr}
    {rest : List (Surface.CmpOp × Surface.Expr)}
    (chain : RendersChain layout assigned left before rest typed)
    (formed : left.Formed (domain.reading inputs assigned))
    (earlier : ∀ tests ∈ before, tests.Has (domain.reading inputs assigned) .bool) :
    typed.Has (domain.reading inputs assigned) .bool := by
  cases chain with
  | done => exact earlier _ rfl
  | more next simple compares others =>
    have right := next.formed
    have test := compares.formed formed right
    refine others.formed right ?_
    rintro _ ⟨⟩
    cases before with
    | none => exact test
    | some tests =>
      have tested := earlier tests rfl
      exact ⟨⟨⟨tested.1, test.1⟩, tested.2.trans test.2.symm⟩, tested.2⟩

theorem RendersArgs.formed {written : List Surface.Expr} {kinds : List Kind} {values : List Arg}
    (renders : RendersArgs layout assigned written kinds values) :
    ArgsFormed (domain.reading inputs assigned) values kinds := by
  cases renders with
  | nil => rfl
  | scalar first others => exact ⟨_, rfl, first.formed, others.formed⟩
  | array first others => exact ⟨_, _, rfl, covers.array first, others.formed⟩

end

theorem RendersEffect.effect {written : Surface.Expr}
    (renders : RendersEffect layout assigned written typed) :
    typed.Effect (domain.reading inputs assigned) := by
  cases renders with
  | value inner => exact .value (inner.formed covers)
  | call isGlobal defined inner known => exact .call (covers.calls known) (inner.formed covers)

theorem Stores.sound {value : Expr} (stores : Stores layout assigned value target stmts after)
    (formed : value.Formed (domain.reading inputs assigned)) :
    BlockSound domain inputs storing looped breaks assigned stmts (some after) := by
  cases stores with
  | name scalar =>
    exact Stmt.Sound.block ⟨⟨covers.scalar scalar, formed⟩, _, rfl, List.Subset.refl _⟩
  | element array noted inner int =>
    exact Stmt.Sound.block ⟨⟨⟨covers.array array, covers.effects noted⟩, ⟨inner.formed covers, int⟩, formed⟩, _, rfl,
      List.Subset.refl _⟩

theorem StoresAll.sound {targets : List Surface.Expr} {temps : List (LocalId × NumType)}
    (stores : StoresAll layout assigned targets temps stmts after)
    (spilled : ∀ temp ∈ temps, domain.Declares temp.1 (.scalar temp.2) ∧ temp.1 ∈ assigned) :
    BlockSound domain inputs storing looped breaks assigned stmts (some after) := by
  induction stores with
  | nil => exact ⟨_, rfl, List.Subset.refl _⟩
  | @cons assigned _ _ _ _ temp type _ _ _ first rest ih =>
    have reads : (Expr.var temp type).Formed (domain.reading inputs assigned) := spilled _ (.head _)
    have later := ih fun temp member =>
      (spilled temp (.tail _ member)).imp_right fun known => first.subset known
    exact (first.sound covers reads).append (later.mono (List.subset_append_left _ _) .refl id)

theorem Spills.sound {exprs : List Surface.Expr}
    {temps : List (LocalId × NumType)} (spills : Spills layout assigned exprs temps stmts after) :
    BlockSound domain inputs storing looped breaks assigned stmts (some after) ∧ assigned ⊆ after ∧
      ∀ temp ∈ temps, domain.Declares temp.1 (.scalar temp.2) ∧ temp.1 ∈ after := by
  induction spills with
  | nil => exact ⟨⟨_, rfl, List.Subset.refl _⟩, List.Subset.refl _, nofun⟩
  | @cons assigned after _ _ id x _ _ inner temp fresh rest ih =>
    obtain ⟨sound, subset, spilled⟩ := ih
    have declared := covers.temp temp
    refine ⟨.inr ⟨[id], ⟨⟨declared, inner.formed covers⟩, _, rfl, ?_⟩, sound⟩, ?_, ?_⟩
    · exact List.cons_subset_cons id (List.nil_subset assigned)
    · exact List.Subset.trans (List.subset_cons_self _ _) subset
    · exact List.forall_mem_cons.2 ⟨⟨declared, subset (.head _)⟩, spilled⟩

theorem RendersAssign.sound {targets : List Surface.Expr}
    {value : Surface.Expr} (renders : RendersAssign layout assigned targets value stmts after) :
    BlockSound domain inputs storing looped breaks assigned stmts (some after) := by
  cases renders with
  | single inner stores => exact stores.sound covers (inner.formed covers)
  | @chain _ _ _ id _ _ inner temp stores =>
    have declared := covers.temp temp
    refine .inr ⟨[id], ⟨⟨declared, inner.formed covers⟩, _, rfl, ?_⟩, stores.sound covers ?_⟩
    · exact List.cons_subset_cons id (List.nil_subset assigned)
    · intro other member
      rw [(List.mem_replicate.1 member).2]
      exact ⟨declared, .head _⟩
  | unpack display spilled stored =>
    obtain ⟨sound, _, temps⟩ := spilled.sound covers
    exact sound.append ((stored.sound covers temps).mono (List.subset_append_left _ _) .refl id)

theorem RendersUpdate.sound {value : Surface.Expr}
    {op : Surface.BinOp} (renders : RendersUpdate layout assigned target op value stmts after) :
    BlockSound domain inputs storing looped breaks assigned stmts (some after) := by
  cases renders with
  | name reads inner operation stores =>
    exact stores.sound covers (operation.formed (reads.formed covers) (inner.formed covers))
  | @element _ _ _ _ _ _ id _ _ _ known noted place int temp inner operation =>
    have declared := covers.temp temp
    have array := covers.array known
    have position : (Expr.var id .int).Has (domain.reading inputs (id :: assigned)) .int :=
      ⟨⟨declared, .head _⟩, rfl⟩
    have element : Expr.Formed (domain.reading inputs (id :: assigned)) (.index _ _ (.var id .int)) :=
      ⟨array, position.1, rfl⟩
    have updated := operation.formed element (inner.formed covers)
    refine .inr ⟨[id], ⟨⟨int ▸ declared, place.formed covers⟩, _, rfl, ?_⟩,
      Stmt.Sound.block ⟨⟨⟨array, covers.effects noted⟩, position, updated⟩, _, rfl, List.Subset.refl _⟩⟩
    exact List.cons_subset_cons id (List.nil_subset assigned)

theorem RendersRange.formed {bounds : List Surface.Expr}
    {start stop step : Expr} (renders : RendersRange layout assigned bounds start stop step) :
    start.Has (domain.reading inputs assigned) .int ∧
      stop.Has (domain.reading inputs assigned) .int ∧
      step.Has (domain.reading inputs assigned) .int := by
  cases renders with
  | stop ends stopInt => exact ⟨Expr.has_int, ⟨ends.formed covers, stopInt⟩, Expr.has_int⟩
  | bounds begins startInt ends stopInt =>
    exact ⟨⟨begins.formed covers, startInt⟩, ⟨ends.formed covers, stopInt⟩, Expr.has_int⟩
  | strided begins startInt ends stopInt moves stepInt =>
    exact ⟨⟨begins.formed covers, startInt⟩, ⟨ends.formed covers, stopInt⟩,
      ⟨moves.formed covers, stepInt⟩⟩

variable (steady : layout.scope.Sound)

include steady

theorem RendersReturn.sound {value : Option Surface.Expr} {result : Option Typed.Result}
    (renders : RendersReturn layout assigned value result) :
    (Stmt.giveBack result).Sound domain inputs storing looped breaks assigned gained := by
  cases renders with
  | nothing agrees | none agrees => exact ⟨covers.result.trans agrees, trivial⟩
  | array array agrees =>
    have input := covers.inputs array
    obtain ⟨named, found, kind⟩ := array
    obtain ⟨_, position, origin⟩ := steady.arrays named found (by rw [kind]; rfl)
    exact ⟨⟨⟨_, covers.result.trans agrees⟩, _, position, covers.locals ▸ found, origin⟩, _,
      covers.result.trans agrees, input⟩
  | scalar inner agrees =>
    have formed := inner.formed covers
    exact ⟨⟨formed.read, covers.result.trans agrees⟩, formed⟩

mutual

/-- What is written for a statement of the source reads only locals that have a value there. -/
theorem Writes.sound {known after : Definite} {stmt : Surface.Stmt} {typed : List Stmt}
    {looped breaks : Prop}
    (writes : Writes layout known stmt typed after) (live : known.dead = false)
    (placed : ¬ looped → stmt.Enclosed ⟨false, true⟩) (loose : leavesLoop stmt = true → breaks) :
    BlockSound domain inputs storing looped breaks known.assigned typed after.gained := by
  have here : Gained known.gained known.assigned :=
    ⟨_, Definite.gained_of_live live, List.Subset.refl _⟩
  cases writes with
  | pass => exact here
  | expr inner => exact Stmt.Sound.block ⟨inner.effect covers, here⟩
  | assign inner => exact inner.sound covers
  | update inner => exact inner.sound covers
  | giveBack inner => exact (inner.sound covers steady).block
  | @branch _ afterYes afterNo _ _ _ yes no _ _ condition whenYes whenNo =>
    have first : BlockSound domain inputs storing looped breaks known.assigned _ afterYes.gained :=
      whenYes.sound live (fun asked => (placed asked).1)
        fun leaves => loose (by simp [leavesLoop, leaves])
    have second : BlockSound domain inputs storing looped breaks known.assigned _ afterNo.gained :=
      whenNo.sound live (fun asked => (placed asked).2)
        fun leaves => loose (by simp [leavesLoop, leaves])
    obtain ⟨one, other⟩ := Definite.suffices_join afterYes afterNo
    exact Stmt.Sound.block ⟨has_truth (condition.formed covers),
      first.mono (List.Subset.refl _) one id, second.mono (List.Subset.refl _) other id⟩
  | whileLoop condition repeats kept endless =>
    refine Stmt.Sound.block ⟨has_truth (condition.formed covers), ?_⟩
    cases dead : after.dead with
    | false =>
      refine .inl ⟨⟨_, Definite.gained_of_live dead, kept ▸ List.Subset.refl _⟩, ?_⟩
      exact (repeats.sound live (absurd trivial) fun _ => trivial).mono
        (List.Subset.refl _) .nothing id
    | true =>
      obtain ⟨constant, stays⟩ := endless dead
      refine .inr ⟨constant, (repeats.sound live (absurd trivial) ?_).mono
        (List.Subset.refl _) .nothing id⟩
      intro leaves
      rw [stays] at leaves
      cases leaves
  | forRange isGlobal range scalar repeats =>
    refine Stmt.Sound.block ⟨⟨⟨covers.scalar scalar, rfl⟩, range.formed covers⟩, here, ?_⟩
    exact (repeats.sound rfl (absurd trivial) fun _ => trivial).mono
      (List.Subset.refl _) .nothing id
  | @forArray _ _ _ _ _ _ _ counter id element _ _ listed temp scalar repeats =>
    have declared := covers.temp temp
    have array := covers.array listed
    refine Stmt.Sound.block ⟨⟨⟨declared, rfl⟩, Expr.has_int, ⟨⟨_, array⟩, rfl⟩, Expr.has_int⟩, here,
      .inr ⟨[id], ⟨⟨covers.scalar scalar, array, ⟨declared, .head _⟩, rfl⟩, _, rfl, ?_⟩,
        ?_⟩⟩
    · exact List.cons_subset_cons id (List.nil_subset _)
    · exact (repeats.sound rfl (absurd trivial) fun _ => trivial).mono
        (List.Subset.refl _) .nothing fun held => held
  | leave =>
    have inside : looped := Classical.byContradiction fun asked => nomatch placed asked
    exact Stmt.Sound.block ⟨inside, loose rfl⟩
  | skip => exact Stmt.Sound.block (Classical.byContradiction fun asked => nomatch placed asked)

theorem WritesBlock.sound {known after : Definite} {body : List Surface.Stmt} {typed : List Stmt}
    {looped breaks : Prop}
    (writes : WritesBlock layout known body typed after) (live : known.dead = false)
    (placed : ¬ looped → Surface.Stmt.AllEnclosed ⟨false, true⟩ body)
    (loose : anyLeavesLoop body = true → breaks) :
    BlockSound domain inputs storing looped breaks known.assigned typed after.gained := by
  cases writes with
  | nil => exact ⟨_, Definite.gained_of_live live, List.Subset.refl _⟩
  | dead unreachable => cases live.symm.trans unreachable
  | @cons _ between _ stmt rest first others reachable writes follows =>
    have here : BlockSound domain inputs storing looped breaks known.assigned first between.gained :=
      writes.sound live (fun asked => (placed asked).1)
        fun leaves => loose (by simp [anyLeavesLoop, leaves])
    cases dead : between.dead with
    | true =>
      obtain ⟨rfl, rfl⟩ := follows.of_dead dead
      rwa [List.append_nil]
    | false =>
      rw [Definite.gained_of_live dead] at here
      have later : BlockSound domain inputs storing looped breaks between.assigned others after.gained :=
        follows.sound dead (fun asked => (placed asked).2)
          fun leaves => loose (by simp [anyLeavesLoop, leaves])
      exact here.append (later.mono (List.subset_append_left _ _) .refl id)

end

end

section

variable {definition : Surface.FunctionDef} {kinds : List Kind} {routine : Typed.Routine}
  (rendition : Rendition layout definition kinds routine)
  (arity : definition.params.length = kinds.length) (argKinds : routine.argKinds = kinds)
include rendition arity argKinds

theorem Rendition.input
    (first : ∀ {id position : Nat} {decl : Typed.LocalDecl}, routine.locals[id]? = some decl →
      decl.origin = .param position → id < kinds.length) {expr : Surface.Expr}
    (array : layout.HasArray expr id element) : (id, Kind.array element) ∈ routine.inputs := by
  obtain ⟨named, declared, kind⟩ := array
  obtain ⟨_, position, origin⟩ := rendition.sound.arrays named declared (by rw [kind]; rfl)
  have here : id < kinds.length := first (rendition.locals ▸ declared) origin
  have inside : id < definition.paramNames.length := by
    simpa [Surface.FunctionOf.paramNames, arity] using here
  have found := rendition.param (List.getElem?_zip_eq_some.2
    ⟨List.getElem?_eq_getElem inside, List.getElem?_eq_getElem here⟩)
  cases declared.symm.trans found
  rw [Typed.Routine.inputs, rendition.params, argKinds]
  refine List.mem_iff_getElem.2 ⟨id, by simpa using here, ?_⟩
  simpa using kind

theorem Rendition.param_declared {profile? : RoutineIndex → Option Profile} :
    List.Forall₂ (routine.domain profile?).Declares routine.params routine.argKinds := by
  rw [rendition.params, argKinds, List.forall₂_iff_get]
  refine ⟨by simp, fun position low high => ?_⟩
  have here : position < kinds.length := by simpa using low
  have named : position < definition.paramNames.length := by
    simpa [Surface.FunctionOf.paramNames, arity] using here
  have found := rendition.param (List.getElem?_zip_eq_some.2
    ⟨List.getElem?_eq_getElem named, List.getElem?_eq_getElem here⟩)
  rw [rendition.locals] at found
  exact ⟨_, by simpa [Typed.Routine.domain] using found, rfl⟩

/-- A rendition of a function is sound; its jumps have loops if those in the text have. -/
theorem Rendition.routineSound (loops : placed → Surface.Stmt.AllEnclosed ⟨false, true⟩ definition.body)
    {profile? : RoutineIndex → Option Profile}
    (calls : ∀ {callee name kinds result}, layout.signature? callee = some ⟨name, kinds, result⟩ →
      profile? callee = some ⟨kinds, result⟩)
    (first : ∀ {id position : Nat} {decl : Typed.LocalDecl}, routine.locals[id]? = some decl →
      decl.origin = .param position → id < kinds.length) : routine.Sound profile? placed := by
  have covers : Covers layout (routine.domain profile?) routine.inputs
      (routine.purity = .mutatesContainer) :=
    ⟨rendition.locals.symm, rendition.result.symm, calls, rendition.input arity argKinds first,
      (rendition.purity ▸ ·)⟩
  obtain ⟨after, writes, ends⟩ := rendition.body
  refine ⟨rendition.param_declared arity argKinds, ?_, after.gained, ?_, fun now gained => ?_⟩
  · rw [rendition.params]
    exact List.nodup_range
  · rw [rendition.params]
    exact (writes.sound covers rendition.sound rfl (fun asked => loops (not_not.1 asked))
      fun _ => trivial).mono (by simp) .refl id
  · rw [← rendition.result]
    refine ends (Bool.eq_false_iff.2 fun dead => ?_)
    simp [Definite.gained, dead] at gained

end

end TwoTier.Eligibility
