import TwoTier.Proofs.Buffers
import TwoTier.Proofs.Forms.Sound
import TwoTier.Proofs.Soundness.Agreement

/-! Evaluation of well-typed expressions gives a value of their type or leaves the code. -/

namespace TwoTier

/-- The type of the register that holds a result. -/
def ReturnKind.register : ReturnKind → NumType
  | .scalar type => type
  | .array _ => .int
  | .nothing => .int

theorem Typed.Profile.Gives.register {profile : Typed.Profile} (gives : profile.Gives type) :
    profile.result.register = type := by
  obtain scalar | ⟨nothing, rfl⟩ := gives
  · rw [scalar, ReturnKind.register]
  · rw [nothing, ReturnKind.register]

namespace Native

open Typed (ArgOf ArgsFormed CastOp Comparison Domain Expr Extremum LocalId Profile UnaryOp)

variable {op : ArithOp} {value : Scalar} {type element : NumType}

section Operators

variable {σ : Type} {x y : Scalar}

theorem settles_intArith (takes : op.takes .int = true) (x y : Int64) :
    (intArith op x y : Step σ Int64).Settles fun _ => True := by
  cases op with
  | add | sub | mul | floorDiv | mod | pow | shl | shr => exact .ofOption fun _ _ => trivial
  | bitAnd | bitOr | bitXor => exact .pure trivial
  | div => cases takes

theorem settles_floatArith (takes : op.takes .float = true) (x y : Float) :
    (floatArith op x y : Step σ Float).Settles fun _ => True := by
  cases op with
  | add | sub | mul => exact .pure trivial
  | div | floorDiv | mod | pow => exact .ofOption fun _ _ => trivial
  | bitAnd | bitOr | bitXor | shl | shr => cases takes

theorem settles_arith (takes : op.takes x.type = true) (same : y.type = x.type) :
    (arith op x y : Step σ Scalar).Settles (·.type = x.type) := by
  cases x with
  | int x =>
    cases y with
    | int y => exact (settles_intArith takes x y).map fun _ _ => rfl
    | float | bool => cases same
  | float x =>
    cases y with
    | float y => exact (settles_floatArith takes x y).map fun _ _ => rfl
    | int | bool => cases same
  | bool => cases takes

theorem settles_unary {op : UnaryOp} (takes : op.takes operand.type = true)
    (same : x.type = operand.type) :
    (unary op x : Step σ Scalar).Settles (·.type = (Expr.unary op operand).type) := by
  rw [← same] at takes
  cases op with
  | neg =>
    cases x with
    | int x =>
      have checked : (Step.ofOption (checkedNeg x) : Step σ Int64).Settles fun _ => True :=
        .ofOption fun _ _ => trivial
      exact checked.map fun _ _ => same
    | float x => exact .pure same
    | bool => cases takes
  | invert =>
    cases x with
    | int x => exact .pure same
    | float | bool => cases takes
  | not => exact .pure rfl

theorem settles_compare (op : Comparison) (same : y.type = x.type) :
    (compare op x y : Step σ Scalar).Settles (·.type = .bool) := by
  cases x <;> cases y <;> first
    | exact .pure rfl
    | cases same

theorem settles_cast {op : CastOp} (takes : op.takes x.type = true) :
    (cast op x : Step σ Scalar).Settles (·.type = op.type) := by
  cases op <;> cases x <;> try cases takes
  case intToFloatExact.int x =>
    rw [cast]
    split
    · exact .pure rfl
    · exact .deopt
  case floatToInt.float x =>
    have whole : (Step.ofOption (Binary64.toWord x).toOption : Step σ Int64).Settles fun _ => True :=
      .ofOption fun _ _ => trivial
    exact whole.map fun _ _ => rfl
  all_goals exact .pure rfl

theorem settles_absolute (number : x.type ≠ .bool) :
    (absolute x : Step σ Scalar).Settles (·.type = x.type) := by
  cases x with
  | int x =>
    have checked : (Step.ofOption (checkedAbs x) : Step σ Int64).Settles fun _ => True :=
      .ofOption fun _ _ => trivial
    exact checked.map fun _ _ => rfl
  | float => exact .pure rfl
  | bool => exact absurd rfl number

theorem settles_extremum (op : Extremum) (number : x.type ≠ .bool) (same : y.type = x.type) :
    (extremum op x y : Step σ Scalar).Settles (·.type = x.type) := by
  cases x with
  | int x =>
    cases y with
    | int y => cases op <;> exact .pure rfl
    | float | bool => cases same
  | float x =>
    cases y with
    | float y => cases op <;> exact .pure rfl
    | int | bool => cases same
  | bool => exact absurd rfl number

theorem settles_requireInt (int : x.type = .int) :
    (requireInt x : Step σ Int64).Settles fun _ => True := by
  cases x with
  | int => exact .pure trivial
  | float | bool => cases int

theorem settles_requireBool (bool : x.type = .bool) :
    (requireBool x : Step σ Bool).Settles (x = .bool ·) := by
  cases x with
  | bool => exact .pure rfl
  | int | float => cases bool

end Operators

abbrev Contents := Nat → Nat → Option NumType

def Shared.contents (shared : Shared) : Contents := fun buffer position =>
  (shared.element buffer position).map Scalar.type

theorem Shared.contents_put {shared : Shared}
    (fits : shared.contents buffer position = some value.type) :
    (shared.put buffer position value).contents = shared.contents := by
  funext other place
  unfold contents
  rw [element_put]
  split
  · rename_i here
    obtain ⟨rfl, rfl, _⟩ := here
    exact fits.symm
  · rfl

def Slot.Fits (contents : Contents) : Slot → Kind → Prop
  | .scalar value, .scalar type => value.type = type
  | .array none, .array _ => True
  | .array (some buffer), .array element =>
    ∀ position type, contents buffer position = some type → type = element
  | .scalar _, .array _ => False
  | .array _, .scalar _ => False

variable {contents : Contents} {slot : Slot}

theorem Slot.Fits.eq_scalar
    (fits : slot.Fits contents (.scalar type)) :
    ∃ value, slot = .scalar value ∧ value.type = type := by
  cases slot with
  | scalar value => exact ⟨value, rfl, fits⟩
  | array buffer => cases buffer <;> exact fits.elim

theorem Slot.Fits.eq_array
    (fits : slot.Fits contents (.array element)) : ∃ buffer, slot = .array buffer := by
  cases slot with
  | scalar => exact fits.elim
  | array buffer => exact ⟨buffer, rfl⟩

/-- Two machines that hold the same values, of the kinds declared, in the locals that have
values. -/
structure Paired (domain : Domain) (contents : Contents) (assigned : List LocalId)
    (bare full : Machine) : Prop where
  shared : bare.shared = full.shared
  typed : full.shared.contents = contents
  untracked : bare.distances = [] ∧ full.distances = []
  room : bare.slots.size = domain.locals.length ∧ full.slots.size = domain.locals.length
  held : ∀ {id kind}, id ∈ assigned → domain.Declares id kind →
    ∃ slot, slot.Fits contents kind ∧ bare.slots[id]? = some slot ∧ full.slots[id]? = some slot

section Accesses

variable {loose : Prop} {domain : Domain} {contents : Contents} {assigned : List LocalId}
  {id : LocalId}

theorem Paired.mono {fewer : List LocalId} {full : Machine}
    (paired : Paired domain contents assigned bare full) (subset : fewer ⊆ assigned) :
    Paired domain contents fewer bare full :=
  { paired with held := fun member => paired.held (subset member) }

theorem agrees_read (member : id ∈ assigned) (declared : domain.Declares id (.scalar type)) :
    StepsAgreeIn loose (Paired domain contents assigned) (·.type = type) (Machine.read id)
      (Machine.read id) where
  run paired := by
    obtain ⟨slot, fits, first, second⟩ := paired.held member declared
    obtain ⟨value, rfl, typed⟩ := fits.eq_scalar
    rw [Machine.read, Machine.read, first, second]
    exact .ok ⟨typed, paired⟩

theorem agrees_write (declared : domain.Declares id (.scalar value.type)) :
    StepsAgree loose (Paired domain contents assigned)
      (fun _ => Paired domain contents (id :: assigned)) (Machine.write id value)
      (Machine.write id value) where
  run {bare full} paired := by
    have inside : id < domain.locals.length := declared.lt
    rw [Machine.write, Machine.write, if_pos (paired.room.1 ▸ inside),
      if_pos (paired.room.2 ▸ inside)]
    refine .ok ⟨paired.shared, paired.typed, paired.untracked, ?_, ?_⟩
    · simpa using paired.room
    · intro other kind member again
      by_cases same : other = id
      · subst same
        cases declared.eq again
        refine ⟨.scalar value, rfl, ?_, ?_⟩
        · simp [paired.room.1, inside]
        · simp [paired.room.2, inside]
      · obtain ⟨slot, fits, first, second⟩ :=
          paired.held ((List.mem_cons.1 member).resolve_left same) again
        exact ⟨slot, fits, by simpa [Ne.symm same] using first, by simpa [Ne.symm same] using second⟩

/-- The length of an array, of which both machines hold the same. -/
def Sized (domain : Domain) (contents : Contents) (assigned : List LocalId) (id : LocalId)
    (length : Int64) (bare full : Machine) : Prop :=
  Paired domain contents assigned bare full ∧ ∃ buffer,
    bare.slots[id]? = some (.array buffer) ∧ full.slots[id]? = some (.array buffer) ∧
      length = Int64.ofNat ((buffer.map full.shared.extent).getD 0)

/-- An array that both machines hold, with an element of a type at a position. -/
def Located (domain : Domain) (contents : Contents) (assigned : List LocalId) (id : LocalId)
    (element : NumType) (position : Nat) (bare full : Machine) : Prop :=
  Paired domain contents assigned bare full ∧ ∃ buffer,
    bare.slots[id]? = some (.array (some buffer)) ∧ full.slots[id]? = some (.array (some buffer)) ∧
      contents buffer position = some element

theorem agrees_length (member : id ∈ assigned) (declared : domain.Declares id (.array element)) :
    StepsAgree loose (Paired domain contents assigned) (Sized domain contents assigned id)
      (Machine.length id) (Machine.length id) where
  run paired := by
    obtain ⟨slot, fits, first, second⟩ := paired.held member declared
    obtain ⟨buffer, rfl⟩ := fits.eq_array
    have same := paired.shared
    rw [Machine.length, Machine.length, first, second, same]
    cases buffer with
    | none => exact .ok ⟨paired, none, first, second, rfl⟩
    | some buffer => exact .ok ⟨paired, some buffer, first, second, rfl⟩

/-- A position inside an array, whose size need not fit in a word. -/
theorem lt_of_elementPosition {index : Int64}
    (found : elementPosition index (Int64.ofNat count) = some position) : position < count := by
  unfold elementPosition at found
  extract_lets word at found
  split at found
  · cases found
  · rename_i inside
    cases found
    have below := UInt64.lt_iff_toNat_lt.1 (UInt64.not_le.1 inside)
    have wraps : (Int64.ofNat count).toUInt64.toNat ≤ count := by
      exact Nat.mod_le _ _
    exact Nat.lt_of_lt_of_le below wraps

theorem agrees_position (member : id ∈ assigned) (declared : domain.Declares id (.array element))
    (index length : Int64) :
    StepsAgree loose (Sized domain contents assigned id length)
      (Located domain contents assigned id element) (Step.ofOption (elementPosition index length))
      (Step.ofOption (elementPosition index length)) where
  run {bare full} sized := by
    obtain ⟨paired, buffer, first, second, rfl⟩ := sized
    cases found : elementPosition index _ with
    | none => exact .deopt []
    | some position =>
      have below := lt_of_elementPosition found
      cases buffer with
      | none => cases below
      | some buffer =>
        obtain ⟨slot, fits, held, _⟩ := paired.held member declared
        cases held.symm.trans first
        have inside : position < full.shared.extent buffer := below
        obtain ⟨value, present⟩ := Option.ne_none_iff_exists'.1 fun none =>
          Nat.not_le.2 inside (Shared.element_eq_none.1 none)
        have typed : contents buffer position = some value.type := by
          rw [← paired.typed, Shared.contents, present, Option.map_some]
        exact .ok ⟨paired, buffer, first, second, fits position _ typed ▸ typed⟩

theorem agrees_load (position : Nat) :
    StepsAgree loose (Located domain contents assigned id element position)
      (fun value bare full => value.type = element ∧ Paired domain contents assigned bare full)
      (Machine.load id position) (Machine.load id position) where
  run {bare full} located := by
    obtain ⟨paired, buffer, first, second, typed⟩ := located
    rw [← paired.typed, Shared.contents, Option.map_eq_some_iff] at typed
    obtain ⟨value, present, same⟩ := typed
    have left : bare.shared.element buffer position = some value := by rw [paired.shared, present]
    rw [Machine.load_eq_ok.2 ⟨rfl, buffer, first, left⟩,
      Machine.load_eq_ok.2 ⟨rfl, buffer, second, present⟩]
    exact .ok ⟨same, paired⟩

theorem agrees_store (position : Nat) :
    StepsAgree loose (Located domain contents assigned id value.type position)
      (fun _ => Paired domain contents assigned) (Machine.store id position value)
      (Machine.store id position value) where
  run {bare full} located := by
    obtain ⟨paired, buffer, first, second, typed⟩ := located
    have stored : ∀ {machine : Machine}, machine.slots[id]? = some (.array (some buffer)) →
        Machine.store id position value machine =
          .ok () { machine with shared := machine.shared.put buffer position value } :=
      fun held => Machine.store_eq_ok.2 ⟨buffer, held, rfl⟩
    rw [stored first, stored second]
    refine .ok ⟨?_, ?_, paired.untracked, paired.room, paired.held⟩
    · rw [paired.shared]
    · rw [← paired.typed] at typed
      exact (Shared.contents_put typed).trans paired.typed

end Accesses

section Expressions

/-- Two ways to enter routines that agree on arguments of the kinds of the parameters. -/
def CallsAgree (loose : Prop) (domain : Domain) (contents : Contents) (call other : Callee) : Prop :=
  ∀ {callee profile args shared}, domain.profile? callee = some profile →
    List.Forall₂ (Slot.Fits contents) args profile.kinds → shared.contents = contents →
      Outcome.Agree loose (fun value first second =>
          value.type = profile.result.register ∧ first = second ∧ second.contents = contents)
        (call callee args shared) (other callee args shared)

/-- Two ways to run the code of one routine. -/
structure Sides where
  loose : Prop
  domain : Domain
  contents : Contents
  call : Callee
  other : Callee
  calls : CallsAgree loose domain contents call other

namespace Sides

variable (sides : Sides) (assigned : List LocalId)

abbrev Paired : Machine → Machine → Prop := Native.Paired sides.domain sides.contents assigned

/-- An expression has one value of its type on both machines, where it has a value. -/
def Evaluates (expr : Expr) : Prop :=
  StepsAgreeIn sides.loose (sides.Paired assigned) (·.type = expr.type) (eval sides.call expr)
    (eval sides.other expr)

def EvaluatesArgs (args : List (ArgOf Expr)) (kinds : List Kind) : Prop :=
  StepsAgreeIn sides.loose (sides.Paired assigned)
    (List.Forall₂ (Slot.Fits sides.contents) · kinds) (evalArgs sides.call args)
    (evalArgs sides.other args)

end Sides

variable {sides : Sides} {assigned : List LocalId} {id : LocalId}

namespace Sides.Evaluates

variable {x y : Expr}

theorem const : sides.Evaluates assigned (.const value) := by
  exact .pure fun paired => ⟨rfl, paired⟩

theorem var (member : id ∈ assigned)
    (declared : sides.domain.Declares id (.scalar type)) :
    sides.Evaluates assigned (.var id type) := by
  exact agrees_read member declared

section

variable (inner : sides.Evaluates assigned x)

include inner

theorem unary {op : UnaryOp} (takes : op.takes x.type = true) :
    sides.Evaluates assigned (.unary op x) := by
  exact inner.andThen fun _ typed => (settles_unary takes typed).agrees

theorem cast {op : CastOp} (takes : op.takes x.type = true) :
    sides.Evaluates assigned (.cast op x) := by
  exact inner.andThen fun _ typed => (settles_cast (typed ▸ takes)).agrees

theorem abs (number : x.type ≠ .bool) : sides.Evaluates assigned (.abs x) := by
  refine inner.andThen fun value typed => ?_
  have settles : (absolute value : Step Machine Scalar).Settles (·.type = value.type) :=
    settles_absolute (typed ▸ number)
  exact settles.agrees.weaken id fun ended => ⟨ended.1.trans typed, ended.2⟩

theorem requireBool (bool : x.type = .bool) :
    StepsAgreeIn sides.loose (sides.Paired assigned) (fun _ => True)
      (eval sides.call x >>= Native.requireBool) (eval sides.other x >>= Native.requireBool) :=
  StepsAgree.andThen inner fun _ typed =>
    (settles_requireBool (typed.trans bool)).agrees.weaken id fun ended => ⟨trivial, ended.2⟩

theorem evalInt (int : x.type = .int) :
    StepsAgreeIn sides.loose (sides.Paired assigned) (fun _ => True) (Native.evalInt sides.call x)
      (Native.evalInt sides.other x) :=
  StepsAgree.andThen inner fun _ typed => (settles_requireInt (typed.trans int)).agrees

end

section

variable (first : sides.Evaluates assigned x) (second : sides.Evaluates assigned y)
  (same : x.type = y.type)

include first second same

theorem binary (takes : op.takes x.type = true) : sides.Evaluates assigned (.binary op x y) := by
  refine first.andThen fun left one => second.andThen fun right two => ?_
  have settles : (arith op left right : Step Machine Scalar).Settles (·.type = left.type) :=
    settles_arith (one ▸ takes) (two.trans (same.symm.trans one.symm))
  exact settles.agrees.weaken id fun ended => ⟨ended.1.trans one, ended.2⟩

theorem compare {op : Comparison} : sides.Evaluates assigned (.compare op x y) := by
  exact first.andThen fun left one => second.andThen fun right two =>
    (settles_compare op (two.trans (same.symm.trans one.symm))).agrees

theorem logic {op : Typed.LogicOp} : sides.Evaluates assigned (.logic op x y) := by
  refine first.andThen fun left one => ?_
  split
  · exact .pure fun paired => ⟨one, paired⟩
  · exact second.weaken id fun ended => ⟨ended.1.trans same.symm, ended.2⟩

theorem extremum {op : Extremum} (number : x.type ≠ .bool) :
    sides.Evaluates assigned (.extremum op x y) := by
  refine first.andThen fun left one => second.andThen fun right two => ?_
  have settles : (Native.extremum op left right : Step Machine Scalar).Settles
      (·.type = left.type) :=
    settles_extremum op (one ▸ number) (two.trans (same.symm.trans one.symm))
  exact settles.agrees.weaken id fun ended => ⟨ended.1.trans one, ended.2⟩

end

theorem select {cond : Expr} (test : sides.Evaluates assigned cond)
    (first : sides.Evaluates assigned x)
    (second : sides.Evaluates assigned y) (bool : cond.type = .bool)
    (same : x.type = y.type) :
    sides.Evaluates assigned (.select cond x y) := by
  have tested := test.requireBool bool
  unfold Evaluates at first second ⊢
  rw [eval, eval, ← bind_assoc, ← bind_assoc]
  refine tested.andThen fun holds _ => ?_
  split
  · exact first
  · exact second.weaken id fun ended => ⟨ended.1.trans same.symm, ended.2⟩

theorem index (member : array ∈ assigned) (declared : sides.domain.Declares array (.array element))
    (inner : sides.Evaluates assigned x) (int : x.type = .int) :
    sides.Evaluates assigned (.index array element x) := by
  have position := inner.evalInt int
  unfold Evaluates
  rw [eval, eval, ← bind_assoc, ← bind_assoc]
  exact position.andThen fun index _ => (agrees_length member declared).bind fun length =>
    (agrees_position member declared index length).bind agrees_load

theorem len (member : array ∈ assigned) (declared : sides.domain.Declares array (.array element)) :
    sides.Evaluates assigned (.len array) := by
  exact (agrees_length member declared).bind fun _ => .pure fun sized => ⟨rfl, sized.1⟩

theorem invocation {result : NumType} {profile : Profile}
    (known : sides.domain.profile? callee = some profile) (gives : profile.Gives result)
    (inner : sides.EvaluatesArgs assigned args profile.kinds) :
    sides.Evaluates assigned (.call callee result args) := by
  refine StepsAgree.andThen inner fun values fits => ⟨fun {bare full} paired => ?_⟩
  have agree := sides.calls known fits paired.typed
  unfold Machine.onShared
  dsimp only
  rw [paired.shared]
  generalize sides.call callee values full.shared = outcome at agree ⊢
  generalize sides.other callee values full.shared = otherOutcome at agree ⊢
  cases agree with
  | ok held =>
    obtain ⟨typed, rfl, kept⟩ := held
    exact .ok ⟨typed.trans gives.register,
      ⟨rfl, kept, paired.untracked, paired.room, paired.held⟩⟩
  | deopt calls => exact .deopt calls
  | stuck may => exact .stuck may
  | exhausted => exact .exhausted

end Sides.Evaluates

namespace Sides.EvaluatesArgs

variable {rest : List (ArgOf Expr)} {kinds : List Kind}

theorem nil : sides.EvaluatesArgs assigned [] [] := by
  exact .pure fun paired => ⟨.nil, paired⟩

theorem scalar (first : sides.Evaluates assigned x)
    (others : sides.EvaluatesArgs assigned rest kinds) :
    sides.EvaluatesArgs assigned (.scalar x :: rest)
      (.scalar x.type :: kinds) := by
  exact StepsAgree.andThen first fun _ typed => others.andThen fun _ fits =>
    .pure fun paired => ⟨.cons typed fits, paired⟩

theorem array (member : id ∈ assigned)
    (declared : sides.domain.Declares id (.array element))
    (others : sides.EvaluatesArgs assigned rest kinds) :
    sides.EvaluatesArgs assigned (.array id :: rest)
      (.array element :: kinds) := by
  refine ⟨fun {bare full} paired => ?_⟩
  obtain ⟨slot, fits, first, second⟩ := paired.held member declared
  obtain ⟨buffer, rfl⟩ := fits.eq_array
  rw [evalArgs, evalArgs]
  dsimp only
  rw [first, second]
  have joined : StepsAgreeIn sides.loose (sides.Paired assigned)
      (List.Forall₂ (Slot.Fits sides.contents) · (.array element :: kinds))
      (evalArgs sides.call rest >>= fun values => pure (.array buffer :: values))
      (evalArgs sides.other rest >>= fun values => pure (.array buffer :: values)) :=
    others.andThen fun values held => .pure fun paired => ⟨.cons fits held, paired⟩
  exact joined.run paired

end Sides.EvaluatesArgs

/-- What may be read has a value of its kind, and calls have the types of their routines. -/
structure Reads (env : Typed.Env) (domain : Domain) (assigned : List LocalId) : Prop where
  scalar : ∀ {id type}, env.scalar id type → id ∈ assigned ∧ domain.Declares id (.scalar type)
  array : ∀ {id element}, env.array id element →
    id ∈ assigned ∧ domain.Declares id (.array element)
  profile? : env.profile? = domain.profile?
  gives : ∀ {profile type}, env.gives profile type → profile.Gives type

variable {env : Typed.Env} (reads : Reads env sides.domain assigned)

include reads

mutual

/-- A well-formed expression evaluates where all that it may read has a value. -/
theorem evaluates_of_formed :
    ∀ {expr : Expr}, expr.Formed env → sides.Evaluates assigned expr
  | .const _, _ => .const
  | .var _ _, formed => .var (reads.scalar formed).1 (reads.scalar formed).2
  | .len _, ⟨_, array⟩ => .len (reads.array array).1 (reads.array array).2
  | .unary _ _, formed => (evaluates_of_formed formed.1).unary formed.2
  | .abs _, formed => (evaluates_of_formed formed.1).abs formed.2
  | .cast _ _, formed => (evaluates_of_formed formed.1).cast formed.2
  | .index _ _ _, ⟨array, formed, int⟩ =>
    .index (reads.array array).1 (reads.array array).2 (evaluates_of_formed formed) int
  | .binary _ _ _, formed | .compare _ _ _, formed | .logic _ _ _, formed
  | .extremum _ _ _, formed => by
    have first := evaluates_of_formed formed.1.1
    have second := evaluates_of_formed formed.1.2
    first
    | exact first.binary second formed.2.1 formed.2.2
    | exact first.compare second formed.2
    | exact first.logic second formed.2
    | exact first.extremum second formed.2.1 formed.2.2
  | .select _ _ _, formed => by
    have test := evaluates_of_formed formed.1.1
    have first := evaluates_of_formed formed.1.2.1
    have second := evaluates_of_formed formed.1.2.2
    exact test.select first second formed.2.1 formed.2.2
  | .call _ _ _, ⟨_, known, gives, passed⟩ =>
    .invocation (reads.profile? ▸ known) (reads.gives gives)
      (evaluatesArgs_of_formed passed)

theorem evaluatesArgs_of_formed :
    ∀ {args : List (ArgOf Expr)} {kinds : List Kind}, ArgsFormed env args kinds →
      sides.EvaluatesArgs assigned args kinds
  | [], _, rfl => .nil
  | .scalar _ :: _, _, ⟨_, same, formed, later⟩ => by
    have first := evaluates_of_formed formed
    exact same ▸ .scalar first (evaluatesArgs_of_formed later)
  | .array _ :: _, _, ⟨_, _, same, array, later⟩ =>
    same ▸ .array (reads.array array).1 (reads.array array).2
      (evaluatesArgs_of_formed later)

end

/-- A statement of its own may also be a call that gives nothing. -/
theorem evaluates_of_effect (effect : expr.Effect env) : sides.Evaluates assigned expr := by
  cases effect with
  | value formed => exact evaluates_of_formed reads formed
  | call nothing passed =>
    exact .invocation (reads.profile? ▸ nothing) (.inr ⟨rfl, rfl⟩)
      (evaluatesArgs_of_formed reads passed)

end Expressions

end Native
end TwoTier
