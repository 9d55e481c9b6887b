import TwoTier.Proofs.Forms.Copying
import TwoTier.Proofs.Forms.Temporaries

namespace TwoTier

namespace Passes

/-- Copies may stand at a place: if lowered loops are to hold no breaks, none is lowered yet. -/
structure Place.Takes (rule : Rule) (place : Place) : Prop where
  same : place.rule = rule
  calm : rule.unbroken → rule.unlowered ∧ place.lowered = false

namespace Place.Takes

variable {rule : Rule} {place : Place}

theorem inLoop (takes : place.Takes rule) : place.inLoop.Takes rule := ⟨takes.same, takes.calm⟩

theorem inBlock (takes : place.Takes rule) : (place.inBlock label).Takes rule :=
  ⟨takes.same, takes.calm⟩

theorem inLowered (takes : place.Takes rule) (lowers : ¬ place.rule.unlowered) :
    place.inLowered.Takes rule :=
  ⟨takes.same, fun asked => absurd (takes.calm asked).1 (takes.same ▸ lowers)⟩

end Place.Takes

end Passes

namespace Typed

open Passes (Always Place Rule Site Work NewNames)

variable {large : Domain} {kind : Kind} {args : List Arg} {names : NewNames} {callee : Routine}
  {type : NumType}

section Names

variable {start : Routine} {domain inner : Domain}

def ArgFits (domain : Domain) (arg : Arg) (kind : Kind) : Prop :=
  match arg with
  | .scalar value => value.Formed domain ∧ kind = .scalar value.type
  | .array id => (∃ element, kind = .array element) ∧ domain.Declares id kind

theorem ArgFits.grow (fits : ArgFits small arg kind) (within : small.Within large) :
    ArgFits large arg kind := by
  match arg with
  | .scalar _ => exact ⟨fits.1.grow within, fits.2⟩
  | .array _ => exact ⟨fits.1, fits.2.grow within⟩

theorem ArgsFormed.fits {params : List LocalId} (passed : ArgsFormed domain args kinds)
    (declared : List.Forall₂ inner.Declares params kinds) :
    ∀ pair ∈ params.zip args, ∃ kind, inner.Declares pair.1 kind ∧ ArgFits domain pair.2 kind := by
  induction declared generalizing args with
  | nil => nofun
  | @cons param kind params kinds first others ih =>
    match args with
    | .scalar value :: rest =>
      obtain ⟨_, same, formed, later⟩ := passed
      obtain ⟨rfl, rfl⟩ := List.cons.inj same
      exact List.forall_mem_cons.2 ⟨⟨_, first, formed, rfl⟩, ih later⟩
    | .array id :: rest =>
      obtain ⟨element, _, same, here, later⟩ := passed
      obtain ⟨rfl, rfl⟩ := List.cons.inj same
      exact List.forall_mem_cons.2 ⟨⟨_, first, ⟨element, rfl⟩, here⟩, ih later⟩

/-- New names have the kinds of the locals that they stand for. -/
structure NamesFormed (inner domain : Domain) (names : NewNames) : Prop where
  kinds : ∀ {id new kind}, names.pairs.lookup id = some new → inner.Declares id kind →
    domain.Declares new kind
  opening : ∀ place, BlockFormed domain place names.opening

theorem NamesFormed.grow (formed : NamesFormed inner small names) (within : small.Within large) :
    NamesFormed inner large names :=
  ⟨fun found declared => (formed.kinds found declared).grow within,
    fun place => (formed.opening place).grow within⟩

theorem NamesFormed.cons (formed : NamesFormed inner domain names) {id new : LocalId}
    {more : List Stmt} (kinds : ∀ {kind}, inner.Declares id kind → domain.Declares new kind)
    (opening : ∀ place, BlockFormed domain place more) :
    NamesFormed inner domain ⟨(id, new) :: names.pairs, names.opening ++ more⟩ where
  kinds := by
    intro other name kind found declared
    rw [List.lookup_cons] at found
    split at found
    · rename_i same
      cases found
      exact kinds (eq_of_beq same ▸ declared)
    · exact formed.kinds found declared
  opening place := blockFormed_append.2 ⟨formed.opening place, opening place⟩

theorem kind_of_declares {id : LocalId} (same : inner.locals = callee.locals)
    (declared : inner.Declares id kind) : (callee.decl id).kind = kind := by
  obtain ⟨decl, found, rfl⟩ := declared
  rw [same] at found
  rw [Routine.decl, List.getD_eq_getElem?_getD, found]
  rfl

theorem yields_bindParam (same : inner.locals = callee.locals)
    (formed : NamesFormed inner domain names) {param : LocalId}
    (declared : inner.Declares param kind) (fits : ArgFits domain arg kind) :
    Yields (Hosts start) domain (NamesFormed inner) (Passes.bindParam callee names param arg) := by
  match arg with
  | .array id =>
    have kinds {other : Kind} (again : inner.Declares param other) : domain.Declares id other :=
      declared.eq again ▸ fits.2
    have more := formed.cons kinds fun _ => blockFormed_nil
    rw [List.append_nil] at more
    exact .pure more
  | .scalar value =>
    refine .bind (yields_addTemp _ _) fun temp within fresh => .pure ?_
    rw [kind_of_declares same declared] at fresh
    refine (formed.grow within).cons (fun again => declared.eq again ▸ fresh) fun place => ?_
    exact ⟨⟨fits.2 ▸ fresh, fits.1.grow within⟩, blockFormed_nil⟩

theorem yields_bindLocal (same : inner.locals = callee.locals)
    (formed : NamesFormed inner domain names) (id : LocalId) :
    Yields (Hosts start) domain (NamesFormed inner) (Passes.bindLocal callee names id) := by
  unfold Passes.bindLocal
  split
  · exact .pure formed
  · refine .bind (yields_addTemp _ _) fun temp within fresh => .pure ?_
    have kinds {kind : Kind} (declared : inner.Declares id kind) : Domain.Declares _ temp kind :=
      kind_of_declares same declared ▸ fresh
    have more := (formed.grow within).cons kinds fun _ => blockFormed_nil
    rwa [List.append_nil] at more

theorem bindLocals_names (callee : Routine) (args : List Arg) :
    Always (fun names => ∀ id < callee.locals.length, (names.pairs.lookup id).isSome = true)
      (Passes.bindLocals callee args) := by
  refine .after fun names => ?_
  generalize callee.locals.length = count
  induction count with
  | zero => exact fun _ => nofun
  | succ count ih =>
    rw [List.range_succ, List.foldlM_append]
    refine .bind ih fun named every => ?_
    suffices last : Always
        (fun names => ∀ id < count + 1, (names.pairs.lookup id).isSome = true)
        (Passes.bindLocal callee named count) from last.bind fun _ done => .pure done
    unfold Passes.bindLocal
    split
    · rename_i present
      exact .pure fun id below => (Nat.lt_succ_iff_lt_or_eq.1 below).elim (every id) (· ▸ present)
    · refine .after fun temp => .pure fun id below => ?_
      rw [List.lookup_cons]
      split
      · rfl
      · rename_i other
        refine every id ((Nat.lt_succ_iff_lt_or_eq.1 below).resolve_right fun last => ?_)
        simp [last] at other

theorem yields_bindLocals (same : inner.locals = callee.locals)
    (passed : ArgsFormed domain args kinds)
    (declared : List.Forall₂ inner.Declares callee.params kinds) :
    Yields (Hosts start) domain (NamesFormed inner) (Passes.bindLocals callee args) := by
  have bound : Yields (Hosts start) domain (NamesFormed inner)
      ((callee.params.zip args).foldlM
        (fun names pair => Passes.bindParam callee names pair.1 pair.2) {}) := by
    refine .foldlM ⟨nofun, fun _ => blockFormed_nil⟩ fun names pair within member formed => ?_
    obtain ⟨kind, here, fits⟩ := passed.fits declared pair member
    exact yields_bindParam same formed here (fits.grow within)
  exact bound.bind fun names _ formed => .foldlM formed fun _ id _ _ formed =>
    yields_bindLocal same formed id

end Names

section Expansion

variable {start : Routine} {domain : Domain} {rule : Rule}

/-- A routine that may be copied into code that calls it. -/
structure Copyable (rule : Rule) (domain : Domain) (callee : Routine) (profile : Profile) :
    Prop where
  profile : callee.profile = profile
  formed : ∃ own : Rule, own.Copies rule ∧ callee.Formed domain.profile? own

theorem Copyable.grow {profile : Profile} (copyable : Copyable rule domain callee profile)
    (within : domain.Within large) : Copyable rule large callee profile :=
  ⟨copyable.profile, within.profile? ▸ copyable.formed⟩

theorem NamesFormed.maps (formed : NamesFormed (callee.domain domain.profile?) domain names)
    (every : ∀ id < callee.locals.length, (names.pairs.lookup id).isSome = true) :
    (callee.domain domain.profile?).Maps domain names.apply where
  declares := by
    intro id kind declared
    obtain ⟨new, found⟩ := Option.isSome_iff_exists.1 (every id declared.lt)
    rw [NewNames.apply, found]
    exact formed.kinds found declared
  profile? := rfl

/-- What a call gives way to: well-formed statements, and an expression of its type. -/
structure ExpansionFormed (rule : Rule) (type : NumType) (domain : Domain)
    (expansion : List Stmt × Expr) : Prop where
  before : ∀ {place : Place}, place.Takes rule → BlockFormed domain place expansion.1
  value : expansion.2.Has domain type

theorem ExpansionFormed.bare {value : Expr} (has : value.Has domain type) :
    ExpansionFormed rule type domain ([], value) :=
  ⟨fun _ => blockFormed_nil, has⟩

/-- The expansion of a call runs a well-formed copy of the callee, and what is left has the type
that the call had. -/
theorem yields_expand (copyable : Copyable rule domain callee profile) (gives : profile.Gives type)
    (passed : ArgsFormed domain args profile.kinds) :
    Yields (Hosts start) domain (ExpansionFormed rule type) (Passes.expand callee args) := by
  obtain ⟨rfl, own, copies, declared, formed⟩ := copyable
  refine .bind ((yields_bindLocals rfl passed declared).always (bindLocals_names callee args))
    fun {middle} names within ⟨named, every⟩ => ?_
  -- the copy, at a place where its result has a home
  have copied {large : Domain} (further : middle.Within large) (result : Option LocalId)
      (lands : ∀ type id, callee.result = .scalar type → result = some id →
        large.Declares id (.scalar type)) (labels : Label × Label) {place : Place}
      (takes : place.Takes rule) : BlockFormed large place (names.opening ++ [.block labels.2
        (Passes.returnsToExitsAll result labels.2
          (Stmt.renamedAll names.apply (labels.1 + ·) callee.body))]) := by
    have moved := named.grow further
    rw [← (within.trans further).profile?] at moved formed
    obtain ⟨rfl, calm⟩ := takes
    have carries : Carries (place.inBlock labels.2) { rule := own } (labels.1 + ·) labels.2 :=
      ⟨nofun, fun _ _ => List.mem_cons_self, nofun, copies,
        fun asked => (calm asked).imp_left copies.unlowered⟩
    exact blockFormed_append.2 ⟨moved.opening place,
      BlockFormed.copied (moved.maps every) lands carries formed, blockFormed_nil⟩
  have unchanged {large : Domain} : Yields (Hosts start) large (fun _ _ => True)
      (Passes.takeLabels callee) :=
    .still fun _ hosts => hosts.kept rfl ⟨List.prefix_rfl, rfl, rfl, rfl, id⟩
  have absorbed {large : Domain} : Yields (Hosts start) large (fun _ _ => True)
      (modify fun work : Work =>
        { work with routine := Passes.absorbEffects callee work.routine }) :=
    .still fun _ hosts => hosts.kept rfl ⟨List.prefix_rfl, rfl, rfl, rfl, fun stores =>
      Purity.join_eq_mutatesContainer.2 (.inl stores)⟩
  split
  · rename_i element isScalar
    have same : type = element := by
      obtain scalar | ⟨nothing, _⟩ := gives
      · cases isScalar.symm.trans scalar
        rfl
      · cases isScalar.symm.trans nothing
    refine .bind (yields_addTemp _ _) fun id first fresh => ?_
    simp only [pure_bind]
    refine .bind unchanged fun labels second _ => ?_
    refine .bind absorbed fun _ third _ => ?_
    refine .bind (yields_note _) fun _ fourth _ => .pure ?_
    have grown := ((second.trans third).trans fourth)
    refine ⟨copied (first.trans grown) _ (fun other home scalar here => ?_) labels, ?_⟩
    · cases isScalar.symm.trans scalar
      cases here
      exact fresh.grow grown
    · exact ⟨fresh.grow grown, same.symm⟩
  all_goals
    rename_i result
    have same : type = .int := by
      obtain scalar | ⟨_, isInt⟩ := gives
      · cases result.symm.trans scalar
      · exact isInt
    simp only [pure_bind]
    refine .bind unchanged fun labels first _ => ?_
    refine .bind absorbed fun _ second _ => ?_
    refine .bind (yields_note _) fun _ third _ => .pure ?_
    refine ⟨copied ((first.trans second).trans third) _ (fun _ _ _ here => ?_) labels, trivial,
      same.symm⟩
    cases here

def Supplies (site : Site) (rule : Rule) (domain : Domain) : Prop :=
  ∀ {callee profile}, domain.profile? callee = some profile →
    Copyable rule domain (site.body.routine callee) profile

theorem Supplies.grow (supplies : Supplies site rule domain) (within : domain.Within large) :
    Supplies site rule large :=
  fun known => (supplies (within.profile? ▸ known)).grow within

variable {site : Site} {readsArrays : Bool}

theorem yields_expandCall (supplies : Supplies site rule domain) {callee : RoutineIndex}
    (formed : (Expr.call callee type args).Formed domain) :
    Yields (Hosts start) domain (ExpansionFormed rule type)
      (site.expandCall readsArrays callee type args) := by
  refine .bind (.still fun _ hosts => hosts) fun _ within _ => ?_
  have grown := formed.grow within
  dsimp only
  split
  · refine .bind (yields_note _) fun _ further _ => .pure (.bare ?_)
    exact ⟨grown.grow further, rfl⟩
  · obtain ⟨profile, known, gives, passed⟩ := grown
    exact yields_expand (supplies.grow within known) gives passed

structure ArgsExpansionFormed (rule : Rule) (kinds : List Kind) (domain : Domain)
    (expansion : List Stmt × List Arg) : Prop where
  before : ∀ {place : Place}, place.Takes rule → BlockFormed domain place expansion.1
  args : ArgsFormed domain expansion.2 kinds

mutual

/-- With its calls taken out, a well-formed expression keeps its type, and what has to run before it
is well formed. -/
theorem yields_extract {domain : Domain} {expr : Expr} (supplies : Supplies site rule domain)
    (formed : expr.Formed domain) :
    Yields (Hosts start) domain (ExpansionFormed rule expr.type) (site.extract readsArrays expr) :=
      by
  unfold Site.extract
  match expr with
  | .const _ | .var _ _ | .len _ => exact .pure (.bare ⟨formed, rfl⟩)
  | .unary op operand =>
    refine .bind (yields_extract supplies formed.1) fun _ _ first => .pure ⟨first.before, ?_⟩
    refine ⟨⟨first.value.1, first.value.2 ▸ formed.2⟩, ?_⟩
    cases op with
    | not => rfl
    | neg | invert => exact first.value.2
  | .cast _ _ | .abs _ =>
    refine .bind (yields_extract supplies formed.1) fun _ _ first => .pure ⟨first.before, ?_⟩
    refine ⟨⟨first.value.1, first.value.2 ▸ formed.2⟩, ?_⟩
    first | rfl | exact first.value.2
  | .index _ _ _ =>
    refine .bind (yields_extract supplies formed.2.1) fun _ within first =>
      .pure ⟨first.before, ?_⟩
    exact ⟨⟨formed.1.grow within, first.value.1, first.value.2.trans formed.2.2⟩, rfl⟩
  | .binary _ _ _ | .extremum _ _ _ | .compare _ _ _ =>
    refine .bind (yields_extract supplies formed.1.1) fun _ within first => ?_
    refine .bind (yields_extract (supplies.grow within) (formed.1.2.grow within))
      fun _ further second => .pure ?_
    have before := first.value.grow further
    refine ⟨fun takes => blockFormed_append.2 ⟨(first.before takes).grow further,
      second.before takes⟩, ⟨⟨before.1, second.value.1⟩, ?_⟩, by first | rfl | exact before.2⟩
    rw [before.2, second.value.2]
    exact formed.2
  | .logic _ _ _ =>
    refine .bind (yields_extract supplies formed.1.1) fun _ within first => .pure ?_
    exact ⟨first.before, ⟨⟨first.value.1, formed.1.2.grow within⟩,
      first.value.2.trans formed.2⟩, first.value.2⟩
  | .select _ _ _ =>
    refine .bind (yields_extract supplies formed.1.1) fun _ within first => .pure ?_
    exact ⟨first.before, ⟨⟨first.value.1, formed.1.2.1.grow within, formed.1.2.2.grow within⟩,
      first.value.2.trans formed.2.1, formed.2.2⟩, rfl⟩
  | .call _ _ _ =>
    obtain ⟨profile, known, gives, passed⟩ := formed
    refine .bind (yields_extractArgs supplies passed) fun _ within first => ?_
    refine .bind (yields_expandCall (supplies.grow within)
      ⟨profile, within.known known, gives, first.args⟩) fun _ further second => .pure ?_
    exact ⟨fun takes => blockFormed_append.2 ⟨(first.before takes).grow further,
      second.before takes⟩, second.value⟩

theorem yields_extractArgs {domain : Domain} {args : List (ArgOf Expr)} {kinds : List Kind}
    (supplies : Supplies site rule domain) (formed : ArgsFormed domain args kinds) :
    Yields (Hosts start) domain (ArgsExpansionFormed rule kinds) (site.extractArgs readsArrays args)
      := by
  match args with
  | [] => exact .pure ⟨fun _ => blockFormed_nil, formed⟩
  | .scalar _ :: _ =>
    obtain ⟨others, same, first, rest⟩ := formed
    refine .bind (yields_extract supplies first) fun _ within value => ?_
    refine .bind (yields_extractArgs (supplies.grow within) (rest.grow within))
      fun _ further later => .pure ?_
    refine ⟨fun takes => blockFormed_append.2 ⟨(value.before takes).grow further,
      later.before takes⟩, others, ?_, (value.value.grow further).1, later.args⟩
    rw [same, value.value.2]
  | .array _ :: _ =>
    obtain ⟨element, others, same, declared, rest⟩ := formed
    refine .bind (yields_extractArgs supplies rest) fun _ within later => .pure ?_
    exact ⟨later.before, element, others, same, declared.grow within, later.args⟩

end

end Expansion

section Statements

variable {start : Routine} {site : Site} {rule : Rule}

theorem extract_of_packs {readsArrays : Bool} : ∀ {expr : Expr}, expr.Packs →
    site.extract readsArrays expr = pure ([], expr)
  | .const _, _ | .var _ _, _ => rfl
  | .index _ _ _, ⟨_, _, same⟩ => by
    rw [same]
    rfl
  | .binary _ _ _, packs => by
    unfold Site.extract
    rw [extract_of_packs packs.2.1, extract_of_packs packs.2.2]
    rfl
  | .unary .neg operand, packs => by
    have held : operand.Packs := packs
    unfold Site.extract
    rw [extract_of_packs held]
    rfl

theorem inlined_of_packs (packs : stmt.Packs reductions) : site.inlined stmt = pure [stmt] := by
  match stmt with
  | .store _ _ _ =>
    obtain ⟨⟨id, type, rfl⟩, packed⟩ := packs
    unfold Site.inlined
    rw [extract_of_packs packed]
    rfl
  | .assign _ (.binary op left right) =>
    have held : (Expr.binary op left right).Packs := ⟨packs.2.1, packs.2.2.2⟩
    unfold Site.inlined
    rw [extract_of_packs held]
    rfl

theorem inlinedBlock_of_packs : ∀ {body : List Stmt},
    (∀ stmt ∈ body, stmt.Packs reductions) → site.inlinedBlock body = pure body
  | [], _ => rfl
  | _ :: _, packs => by
    unfold Site.inlinedBlock
    rw [inlined_of_packs (packs _ (.head _)),
      inlinedBlock_of_packs fun stmt member => packs stmt (.tail _ member)]
    rfl

mutual

/-- The statements that take the place of a well-formed one, its calls expanded, are well formed
there. -/
theorem yields_inlined {domain : Domain} {place : Place} {stmt : Stmt}
    (supplies : Supplies site rule domain) (takes : place.Takes rule)
    (formed : stmt.Formed domain place) :
    Yields (Hosts start) domain (fun large after => BlockFormed large place after)
      (site.inlined stmt) := by
  match stmt with
  | .assign _ _ =>
    refine .bind (yields_extract supplies formed.2) fun _ within first => .pure ?_
    exact blockFormed_append.2 ⟨first.before takes,
      ⟨first.value.2 ▸ formed.1.grow within, first.value.1⟩, blockFormed_nil⟩
  | .store _ _ _ =>
    refine .bind (yields_extract supplies formed.2.1.1) fun _ within first => ?_
    refine .bind (yields_extract (supplies.grow within) (formed.2.2.grow within))
      fun _ further second => .pure ?_
    have index := first.value.grow further
    refine blockFormed_append.2 ⟨blockFormed_append.2 ⟨(first.before takes).grow further,
      second.before takes⟩, ⟨?_, ⟨index.1, index.2.trans formed.2.1.2⟩, second.value.1⟩, blockFormed_nil⟩
    exact ⟨second.value.2 ▸ formed.1.1.grow (within.trans further), formed.1.2⟩
  | .eval value =>
    have held : value.Formed _ := formed
    refine .bind (yields_extract supplies held) fun _ _ first => ?_
    dsimp only
    split
    · exact .pure (first.before takes)
    · exact .pure (blockFormed_append.2 ⟨first.before takes, first.value.1, blockFormed_nil⟩)
  | .branch _ _ _ =>
    refine .bind (yields_inlinedBlock supplies takes formed.2.1) fun _ one yes => ?_
    refine .bind (yields_inlinedBlock (supplies.grow one) takes (formed.2.2.grow one))
      fun _ two no => ?_
    have cond := (formed.1.grow one).grow two
    refine .bind (yields_extract (supplies.grow (one.trans two)) cond.1)
      fun _ three first => .pure ?_
    exact blockFormed_append.2 ⟨first.before takes, ⟨⟨first.value.1, first.value.2.trans cond.2⟩,
      yes.grow (two.trans three), no.grow three⟩, blockFormed_nil⟩
  | .whileLoop _ _ _ =>
    refine .bind (yields_inlinedBlock supplies takes.inLoop formed.2) fun _ within inner => .pure ?_
    exact ⟨⟨formed.1.grow within, inner⟩, blockFormed_nil⟩
  | .forLoop head body =>
    -- a loop that keeps its counter starts from it, and there is nothing to extract from that
    have kept : Always (fun expansion => head.exitValue = true → expansion.2 = .var head.var .int)
        (site.extract (Site.readsElements (.forLoop head body)) head.start) := by
      intro work keeps
      rw [formed.1.resumes keeps]
      rfl
    refine .bind (yields_inlinedBlock supplies takes.inLoop formed.2) fun _ one inner => ?_
    refine .bind ((yields_extract (supplies.grow one) (formed.1.start.grow one).1).always kept)
      fun _ two ⟨first, resumes⟩ => ?_
    have so := one.trans two
    refine .bind (yields_extract (supplies.grow so) (formed.1.stop.grow so).1)
      fun _ three second => ?_
    have so := so.trans three
    refine .bind (yields_extract (supplies.grow so) (formed.1.step.grow so).1)
      fun _ four third => .pure ?_
    have start := first.value.grow (three.trans four)
    have stop := second.value.grow four
    refine blockFormed_append.2 ⟨blockFormed_append.2 ⟨blockFormed_append.2
      ⟨(first.before takes).grow (three.trans four), (second.before takes).grow four⟩, third.before takes⟩,
      ⟨?_, inner.grow (two.trans (three.trans four))⟩, blockFormed_nil⟩
    exact ⟨formed.1.counter.grow (so.trans four), ⟨start.1, start.2.trans formed.1.start.2⟩,
      ⟨stop.1, stop.2.trans formed.1.stop.2⟩,
      ⟨third.value.1, third.value.2.trans formed.1.step.2⟩, resumes⟩
  | .giveBack (some (.scalar value)) =>
    refine .bind (yields_extract supplies formed.1.1) fun _ within first => .pure ?_
    refine blockFormed_append.2 ⟨first.before takes, ⟨⟨first.value.1, ?_⟩, formed.2⟩,
      blockFormed_nil⟩
    rw [within.result, first.value.2]
    exact formed.1.2
  | .block _ body =>
    have held : BlockFormed _ _ body := formed
    exact .bind (yields_inlinedBlock supplies takes.inBlock held) fun _ _ inner => .pure ⟨inner, blockFormed_nil⟩
  | .vector head body =>
    have kept : Always (fun after => head.form = .packed → after = body)
        (site.inlinedBlock body) := by
      intro work isPacked
      rw [inlinedBlock_of_packs (formed.2.1 isPacked)]
      rfl
    refine .bind ((yields_inlinedBlock supplies (takes.inLowered formed.1.2) formed.2.2).always kept)
      fun _ one ⟨inner, same⟩ => ?_
    refine .bind (yields_extract (supplies.grow one) (formed.1.1.start.grow one).1)
      fun _ two first => ?_
    refine .bind (yields_extract (supplies.grow (one.trans two))
      (formed.1.1.stop.grow (one.trans two)).1) fun _ three second => .pure ?_
    have later := two.trans three
    have start := first.value.grow three
    refine blockFormed_append.2 ⟨blockFormed_append.2 ⟨(first.before takes).grow three,
      second.before takes⟩, ⟨⟨?_, formed.1.2⟩, fun isPacked => ?_, inner.grow later⟩, blockFormed_nil⟩
    · have grown := formed.1.1.grow (one.trans later)
      exact { grown with
        start := ⟨start.1, start.2.trans formed.1.1.start.2⟩
        stop := ⟨second.value.1, second.value.2.trans formed.1.1.stop.2⟩ }
    · rw [same isPacked]
      exact formed.2.1 isPacked
  | .parallel _ _ =>
    refine .bind (yields_extract supplies formed.1.1.start.1) fun _ one first => ?_
    refine .bind (yields_extract (supplies.grow one) (formed.1.1.stop.grow one).1)
      fun _ two second => .pure ?_
    have start := first.value.grow two
    have grown := formed.1.1.grow (one.trans two)
    refine blockFormed_append.2 ⟨blockFormed_append.2 ⟨(first.before takes).grow two,
      second.before takes⟩, ⟨⟨?_, formed.1.2⟩, formed.2.grow (one.trans two)⟩, blockFormed_nil⟩
    exact { grown with
      start := ⟨start.1, start.2.trans formed.1.1.start.2⟩
      stop := ⟨second.value.1, second.value.2.trans formed.1.1.stop.2⟩ }
  | .leave | .skip | .exit _ | .giveBack none | .giveBack (some (.array _)) =>
    exact .pure ⟨formed, blockFormed_nil⟩

theorem yields_inlinedBlock {domain : Domain} {place : Place} {body : List Stmt}
    (supplies : Supplies site rule domain) (takes : place.Takes rule)
    (formed : BlockFormed domain place body) :
    Yields (Hosts start) domain (fun large after => BlockFormed large place after)
      (site.inlinedBlock body) := by
  match body with
  | [] => exact .pure blockFormed_nil
  | _ :: _ =>
    refine .bind (yields_inlined supplies takes formed.1) fun _ within first => ?_
    refine .bind (yields_inlinedBlock (supplies.grow within) takes (formed.2.grow within))
      fun _ further others => .pure ?_
    exact blockFormed_append.2 ⟨first.grow further, others⟩

end

end Statements

end Typed
end TwoTier
