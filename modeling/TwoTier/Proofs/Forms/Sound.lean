import TwoTier.Proofs.Forms.Pipeline

/-! Sound code, as typing writes it: on every path a local is assigned before it is read. -/

namespace TwoTier

namespace Typed

def Routine.inputs (routine : Routine) : List (LocalId × Kind) :=
  routine.params.zip routine.argKinds

/-- What may be read where only some locals have values. -/
abbrev Domain.reading (domain : Domain) (inputs : List (LocalId × Kind)) (known : List LocalId) :
    Env where
  scalar id type := domain.Declares id (.scalar type) ∧ id ∈ known
  array id element := domain.Declares id (.array element) ∧ (id, Kind.array element) ∈ inputs
  profile? := domain.profile?
  gives profile type := profile.result = .scalar type

/-- An expression that is a statement of its own. Only there may a call give nothing. -/
inductive Expr.Effect (env : Env) : Expr → Prop where
  | value {expr : Expr} (formed : expr.Formed env) : Effect env expr
  | call {callee : RoutineIndex} {kinds : List Kind} {args : List (ArgOf Expr)}
      (nothing : env.profile? callee = some ⟨kinds, .nothing⟩)
      (passed : ArgsFormed env args kinds) : Effect env (.call callee .int args)

def Result.Sound (domain : Domain) (inputs : List (LocalId × Kind)) (known : List LocalId) :
    Option Result → Prop
  | none => True
  | some (.scalar value) => value.Formed (domain.reading inputs known)
  | some (.array id) =>
    ∃ element, domain.result = .array element ∧ (id, Kind.array element) ∈ inputs

/-- These locals have values where some path leads on, and some path does. -/
def Gained (gained : Option (List LocalId)) (known : List LocalId) : Prop :=
  ∃ now, gained = some now ∧ now ⊆ known

section

variable (domain : Domain) (inputs : List (LocalId × Kind)) (storing : Prop)

mutual

/-- A statement reads only locals that have values, and assigns those that it gains wherever it goes
on. Jumps need a loop, which may be left only where breaks are taken into account. -/
def Stmt.Sound (looped breaks : Prop) (known : List LocalId) (stmt : Stmt)
    (gained : Option (List LocalId)) : Prop :=
  match stmt with
  | .assign id value =>
    (domain.Declares id (.scalar value.type) ∧ value.Formed (domain.reading inputs known)) ∧
      Gained gained (id :: known)
  | .store array index value =>
    (((domain.reading inputs known).array array value.type ∧ storing) ∧
      index.Has (domain.reading inputs known) .int ∧ value.Formed (domain.reading inputs known)) ∧
      Gained gained known
  | .eval value => value.Effect (domain.reading inputs known) ∧ Gained gained known
  | .branch cond yes no =>
    cond.Has (domain.reading inputs known) .bool ∧ BlockSound looped breaks known yes gained ∧
      BlockSound looped breaks known no gained
  | .whileLoop cond body _ =>
    cond.Has (domain.reading inputs known) .bool ∧
      (Gained gained known ∧ BlockSound True True known body (some []) ∨
        cond = .const (.bool true) ∧ BlockSound True False known body (some []))
  | .forLoop head body =>
    ((domain.Declares head.var (.scalar .int) ∧ head.exitValue = false) ∧
      head.start.Has (domain.reading inputs known) .int ∧
      head.stop.Has (domain.reading inputs known) .int ∧
      head.step.Has (domain.reading inputs known) .int) ∧
      Gained gained known ∧ BlockSound True True (head.var :: known) body (some [])
  | .leave => looped ∧ breaks
  | .skip => looped
  | .giveBack value => Result.Formed domain value ∧ Result.Sound domain inputs known value
  | .block _ _ => False
  | .exit _ => False
  | .vector _ _ => False
  | .parallel _ _ => False

/-- Nothing stands after a statement that never goes on. -/
def BlockSound (looped breaks : Prop) (known : List LocalId) (body : List Stmt)
    (gained : Option (List LocalId)) : Prop :=
  match body with
  | [] => Gained gained known
  | stmt :: rest =>
    stmt.Sound looped breaks known none ∧ rest = [] ∨
      ∃ first, stmt.Sound looped breaks known (some first) ∧
        BlockSound looped breaks (first ++ known) rest gained

end

end

/-- Where the first holds, the second does: nothing is left to say where no path leads. -/
def Suffices (gained fewer : Option (List LocalId)) : Prop :=
  ∀ now, gained = some now → Gained fewer now

section Gains

variable {known known' : List LocalId} {gained fewer : Option (List LocalId)}

theorem Gained.mono (held : Gained gained known) (subset : known ⊆ known') : Gained gained known' :=
  held.imp fun _ both => ⟨both.1, List.Subset.trans both.2 subset⟩

theorem Gained.weaken (held : Gained gained known) (enough : Suffices gained fewer) :
    Gained fewer known := by
  obtain ⟨now, same, subset⟩ := held
  exact (enough now same).mono subset

theorem Suffices.refl : Suffices gained gained := fun now same => ⟨now, same, List.Subset.refl _⟩

theorem Suffices.nothing : Suffices gained (some []) := fun _ _ => ⟨[], rfl, List.nil_subset _⟩

theorem Suffices.of_none : Suffices none fewer := fun _ same => by cases same

theorem append_subset_append (subset : known ⊆ known') : ids ++ known ⊆ ids ++ known' :=
  List.append_subset.2 ⟨List.subset_append_left _ _,
    List.Subset.trans subset (List.subset_append_right _ _)⟩

end Gains

variable {domain : Domain} {inputs : List (LocalId × Kind)} {known known' : List LocalId}
  {storing looped breaks : Prop} {gained : Option (List LocalId)}

variable {expr : Expr}

section Reading

theorem Domain.reading_mono (subset : known ⊆ known') :
    (domain.reading inputs known).Eases (fun _ => True) (domain.reading inputs known') :=
  ⟨fun read => ⟨read.1, subset read.2⟩, id, fun found _ => found, id⟩

theorem Expr.Formed.mono (formed : expr.Formed (domain.reading inputs known))
    (subset : known ⊆ known') : expr.Formed (domain.reading inputs known') :=
  formed.ease (Domain.reading_mono subset) fun _ _ => trivial

theorem Expr.Has.mono {type : NumType}
    (has : expr.Has (domain.reading inputs known) type) (subset : known ⊆ known') :
    expr.Has (domain.reading inputs known') type :=
  ⟨has.1.mono subset, has.2⟩

theorem Expr.Effect.mono (effect : expr.Effect (domain.reading inputs known))
    (subset : known ⊆ known') : expr.Effect (domain.reading inputs known') := by
  cases effect with
  | value formed => exact .value (formed.mono subset)
  | call nothing passed =>
    exact .call nothing (passed.ease (Domain.reading_mono subset) fun _ _ => trivial)

theorem Result.Sound.mono {value : Option Result} (sound : Result.Sound domain inputs known value)
    (subset : known ⊆ known') : Result.Sound domain inputs known' value := by
  match value with
  | none => trivial
  | some (.scalar expr) =>
    have held : expr.Formed (domain.reading inputs known) := sound
    exact held.mono subset
  | some (.array _) => exact sound

theorem Domain.reading_eases : (domain.reading inputs known).Eases (fun _ => True) domain.env :=
  ⟨And.left, And.left, fun found _ => found, .inl⟩

theorem Expr.Formed.read (formed : expr.Formed (domain.reading inputs known)) :
    expr.Formed domain :=
  formed.ease Domain.reading_eases fun _ _ => trivial

theorem Expr.Has.read {type : NumType}
    (has : expr.Has (domain.reading inputs known) type) : expr.Has domain type :=
  ⟨has.1.read, has.2⟩

theorem Expr.Effect.read (effect : expr.Effect (domain.reading inputs known)) :
    expr.Formed domain := by
  cases effect with
  | value formed => exact formed.read
  | call nothing passed =>
    exact ⟨_, nothing, .inr ⟨rfl, rfl⟩, passed.ease Domain.reading_eases fun _ _ => trivial⟩

end Reading

mutual

/-- More may be known before, and less is left to be known after. -/
theorem Stmt.Sound.mono {stmt : Stmt} {known known' : List LocalId} {looped breaks more : Prop}
    {gained fewer : Option (List LocalId)}
    (sound : stmt.Sound domain inputs storing looped breaks known gained) (subset : known ⊆ known')
    (enough : Suffices gained fewer) (loose : breaks → more) :
    stmt.Sound domain inputs storing looped more known' fewer := by
  match stmt with
  | .assign _ _ =>
    exact ⟨⟨sound.1.1, sound.1.2.mono subset⟩,
      (sound.2.mono (List.cons_subset_cons _ subset)).weaken enough⟩
  | .store _ _ _ =>
    exact ⟨⟨sound.1.1, sound.1.2.1.mono subset, sound.1.2.2.mono subset⟩,
      (sound.2.mono subset).weaken enough⟩
  | .eval _ => exact ⟨sound.1.mono subset, (sound.2.mono subset).weaken enough⟩
  | .branch _ _ _ =>
    exact ⟨sound.1.mono subset, sound.2.1.mono subset enough loose, sound.2.2.mono subset enough loose⟩
  | .whileLoop _ _ _ =>
    exact ⟨sound.1.mono subset, sound.2.imp
      (fun both => ⟨(both.1.mono subset).weaken enough, both.2.mono subset .refl id⟩)
      fun both => ⟨both.1, both.2.mono subset .refl id⟩⟩
  | .forLoop _ _ =>
    have bounds := sound.1.2
    exact ⟨⟨sound.1.1, bounds.1.mono subset, bounds.2.1.mono subset, bounds.2.2.mono subset⟩,
      (sound.2.1.mono subset).weaken enough,
      sound.2.2.mono (List.cons_subset_cons _ subset) .refl id⟩
  | .leave => exact ⟨sound.1, loose sound.2⟩
  | .skip => exact sound
  | .giveBack _ => exact ⟨sound.1, sound.2.mono subset⟩

theorem BlockSound.mono {body : List Stmt} {known known' : List LocalId} {looped breaks more : Prop}
    {gained fewer : Option (List LocalId)}
    (sound : BlockSound domain inputs storing looped breaks known body gained)
    (subset : known ⊆ known') (enough : Suffices gained fewer) (loose : breaks → more) :
    BlockSound domain inputs storing looped more known' body fewer := by
  match body with
  | [] => exact Gained.weaken (Gained.mono sound subset) enough
  | _ :: _ =>
    exact sound.imp (fun ends => ⟨ends.1.mono subset .refl loose, ends.2⟩) fun ⟨first, here, later⟩ =>
      ⟨first, here.mono subset .refl loose, later.mono (append_subset_append subset) enough loose⟩

end

theorem BlockSound.append {first others : List Stmt} {between : List LocalId}
    (sound : BlockSound domain inputs storing looped breaks known first (some between))
    (later : BlockSound domain inputs storing looped breaks (between ++ known) others gained) :
    BlockSound domain inputs storing looped breaks known (first ++ others) gained := by
  induction first generalizing known with
  | nil =>
    obtain ⟨_, ⟨⟩, subset⟩ := sound
    exact later.mono (List.append_subset.2 ⟨subset, List.Subset.refl _⟩) .refl id
  | cons stmt rest ih =>
    obtain ⟨ends, rfl⟩ | ⟨own, here, follows⟩ := sound
    · exact .inr ⟨between, ends.mono (List.Subset.refl _) .of_none id, later⟩
    · refine .inr ⟨own, here, ih follows (later.mono ?_ .refl id)⟩
      exact append_subset_append (List.subset_append_right own known)

theorem Stmt.Sound.block (sound : stmt.Sound domain inputs storing looped breaks known gained) :
    BlockSound domain inputs storing looped breaks known [stmt] gained := by
  cases gained with
  | none => exact .inl ⟨sound, rfl⟩
  | some own => exact .inr ⟨own, sound, own, rfl, List.subset_append_left own known⟩

theorem Expr.Effect.folded (effect : expr.Effect env) : expr.folded.2.Effect env := by
  cases effect with
  | value formed => exact .value formed.folded.1
  | call nothing passed => exact .call nothing passed.folded

mutual

theorem Stmt.Sound.folded {stmt : Stmt} {known : List LocalId} {looped breaks : Prop}
    {gained : Option (List LocalId)}
    (sound : stmt.Sound domain inputs storing looped breaks known gained) :
    BlockSound domain inputs storing looped breaks known stmt.folded.2 gained := by
  match stmt with
  | .assign id value =>
    have inner := sound.1.2.folded
    have folded : (Stmt.assign id value.folded.2).Sound domain inputs storing looped breaks known gained :=
      ⟨⟨inner.2 ▸ sound.1.1, inner.1⟩, sound.2⟩
    exact folded.block
  | .store array index value =>
    have inner := sound.1.2.2.folded
    have folded : (Stmt.store array index.folded.2 value.folded.2).Sound domain inputs storing looped breaks
        known gained :=
      ⟨⟨inner.2 ▸ sound.1.1, sound.1.2.1.folded, inner.1⟩, sound.2⟩
    exact folded.block
  | .eval value =>
    have folded : (Stmt.eval value.folded.2).Sound domain inputs storing looped breaks known gained :=
      ⟨sound.1.folded, sound.2⟩
    exact folded.block
  | .branch cond yes no =>
    have tested := sound.1.folded
    have first := sound.2.1.folded
    have second := sound.2.2.folded
    simp only [Stmt.folded]
    split
    · exact first
    · exact second
    · have folded : (Stmt.branch cond.folded.2 (Stmt.foldedBlock yes).2
          (Stmt.foldedBlock no).2).Sound domain inputs storing looped breaks known gained :=
        ⟨tested, first, second⟩
      exact folded.block
  | .whileLoop cond body span =>
    have folded : (Stmt.whileLoop cond.folded.2 (Stmt.foldedBlock body).2 span).Sound domain inputs storing
        looped breaks known gained := by
      refine ⟨sound.1.folded, sound.2.imp (fun both => ⟨both.1, both.2.folded⟩) fun both => ?_⟩
      exact ⟨by rw [both.1, Expr.folded], both.2.folded⟩
    simp only [Stmt.folded]
    split
    · rename_i never
      -- a loop that never starts is not one that never ends
      rw [never] at folded
      obtain ⟨held, _⟩ | ⟨endless, _⟩ := folded.2
      · exact held
      · cases endless
    · exact folded.block
  | .forLoop head body =>
    have bounds := sound.1.2
    have folded : (Stmt.forLoop head.folded.2 (Stmt.foldedBlock body).2).Sound domain inputs storing looped
        breaks known gained :=
      ⟨⟨sound.1.1, bounds.1.folded, bounds.2.1.folded, bounds.2.2.folded⟩, sound.2.1,
        sound.2.2.folded⟩
    exact folded.block
  | .giveBack (some (.scalar value)) =>
    have inner := Expr.Formed.folded sound.2
    have folded : (Stmt.giveBack (some (.scalar value.folded.2))).Sound domain inputs storing looped breaks
        known gained :=
      ⟨⟨sound.1.1.folded.1, inner.2 ▸ sound.1.2⟩, inner.1⟩
    exact folded.block
  | .leave | .skip | .giveBack none | .giveBack (some (.array _)) => exact sound.block

theorem BlockSound.folded : ∀ {body : List Stmt} {known : List LocalId} {looped breaks : Prop}
    {gained : Option (List LocalId)}, BlockSound domain inputs storing looped breaks known body gained →
      BlockSound domain inputs storing looped breaks known (Stmt.foldedBlock body).2 gained
  | [], _, _, _, _, sound => sound
  | stmt :: _, _, _, _, _, .inl ⟨ends, last⟩ => by
    have alone : (Stmt.foldedBlock [stmt]).2 = stmt.folded.2 := List.append_nil stmt.folded.2
    rw [last, alone]
    exact ends.folded.mono (List.Subset.refl _) .of_none id
  | _ :: _, _, _, _, _, .inr ⟨_, here, later⟩ => here.folded.append later.folded

end

end Typed

namespace Passes

/-- What is asked of written code: it has no exits and no lowered loops. -/
def Rule.written (placed storeless : Prop) : Rule := ⟨placed, True, False, True, True, storeless⟩

/-- Where written code stands. -/
structure Place.Written (storing looped : Prop) (place : Place) : Prop where
  loops : looped → place.rule.placed → place.looped = true
  unlowered : place.lowered = false
  returns : ¬ place.rule.outerReturns
  stores : storing → ¬ place.rule.storeless

theorem Place.Written.inLoop {storing looped : Prop} {place : Place}
    (written : place.Written storing looped) : place.inLoop.Written storing True :=
  ⟨fun _ _ => rfl, written.unlowered, written.returns, written.stores⟩

end Passes

namespace Typed

open Passes (Place Rule)

variable {domain : Domain} {inputs : List (LocalId × Kind)} {storing : Prop}

mutual

theorem Stmt.Sound.formed {stmt : Stmt} {place : Place} {known : List LocalId}
    {looped breaks : Prop} {gained : Option (List LocalId)}
    (sound : stmt.Sound domain inputs storing looped breaks known gained)
    (written : place.Written storing looped) : stmt.Formed domain place := by
  match stmt with
  | .assign _ _ => exact ⟨sound.1.1, sound.1.2.read⟩
  | .store _ _ _ =>
    exact ⟨⟨sound.1.1.1.1, written.stores sound.1.1.2⟩, sound.1.2.1.read, sound.1.2.2.read⟩
  | .eval _ => exact sound.1.read
  | .branch _ _ _ => exact ⟨sound.1.read, sound.2.1.formed written, sound.2.2.formed written⟩
  | .whileLoop _ _ _ =>
    exact ⟨sound.1.read, sound.2.elim (fun both => both.2.formed written.inLoop)
      fun both => both.2.formed written.inLoop⟩
  | .forLoop head _ =>
    have bounds := sound.1.2
    exact have visits (keeps : head.exitValue = true) : head.start = .var head.var .int :=
      nomatch keeps.symm.trans sound.1.1.2
    ⟨⟨sound.1.1.1, bounds.1.read, bounds.2.1.read, bounds.2.2.read, visits⟩,
      sound.2.2.formed written.inLoop⟩
  | .leave => exact ⟨written.loops sound.1, fun _ => written.unlowered⟩
  | .skip => exact written.loops sound
  | .giveBack _ => exact ⟨sound.1, written.unlowered, fun asked => absurd asked written.returns⟩

theorem BlockSound.formed : ∀ {body : List Stmt} {place : Place} {known : List LocalId}
    {looped breaks : Prop} {gained : Option (List LocalId)},
      BlockSound domain inputs storing looped breaks known body gained → place.Written storing looped →
        BlockFormed domain place body
  | [], _, _, _, _, _, _, _ => blockFormed_nil
  | _ :: _, _, _, _, _, _, .inl ⟨ends, last⟩, written =>
    ⟨ends.formed written, last ▸ blockFormed_nil⟩
  | _ :: _, _, _, _, _, _, .inr ⟨_, here, later⟩, written =>
    ⟨here.formed written, later.formed written⟩

end

/-- A routine with sound code, which reaches its end only if it returns nothing. -/
structure Routine.Sound (profile? : RoutineIndex → Option Profile) (placed : Prop)
    (routine : Routine) : Prop where
  params : List.Forall₂ (routine.domain profile?).Declares routine.params routine.argKinds
  distinct : routine.params.Nodup
  body : ∃ gained, BlockSound (routine.domain profile?) routine.inputs
      (routine.purity = .mutatesContainer) (¬ placed) True routine.params routine.body gained ∧
    ∀ now, gained = some now → routine.result = .nothing

variable {profile? : RoutineIndex → Option Profile} {placed : Prop} {routine : Routine}

theorem Routine.Sound.folded (sound : routine.Sound profile? placed) :
    routine.folded.2.Sound profile? placed := by
  obtain ⟨gained, body, silent⟩ := sound.body
  exact ⟨sound.params, sound.distinct, gained, body.folded, silent⟩

theorem Routine.Sound.formed (sound : routine.Sound profile? placed) :
    routine.Formed profile? (.written placed (routine.purity ≠ .mutatesContainer)) := by
  obtain ⟨gained, body, silent⟩ := sound.body
  exact ⟨sound.params, body.formed ⟨fun loose asked => absurd asked loose, rfl, id, not_not.2⟩⟩

end Typed
end TwoTier
