import TwoTier.Proofs.Passes.Calls

/-! Well-formed code: locals, operands, calls and jumps are declared as they are used. -/

namespace TwoTier

def ArithOp.takes (op : ArithOp) : NumType → Bool
  | .int => op ≠ .div
  | .float => op ≠ .bitAnd && op ≠ .bitOr && op ≠ .bitXor && op ≠ .shl && op ≠ .shr
  | .bool => false

namespace Typed

def UnaryOp.takes : UnaryOp → NumType → Bool
  | .neg, type => type ≠ .bool
  | .invert, type => type = .int
  | .not, type => type = .bool

structure Profile where
  kinds : List Kind
  result : ReturnKind

/-- The type that a call has; a routine that returns nothing leaves an empty word. -/
def Profile.Gives (profile : Profile) (type : NumType) : Prop :=
  profile.result = .scalar type ∨ profile.result = .nothing ∧ type = .int

def CastOp.takes : CastOp → NumType → Bool
  | .intToFloat, type => type = .int
  | .intToFloatExact, type => type = .int
  | .floatToInt, type => type = .float
  | .boolToInt, type => type = .bool
  | .boolToFloat, type => type = .bool
  | .toBool, type => type ≠ .bool

/-- What expressions are read against: scalars, arrays, and routines with the types of their
calls. -/
structure Env where
  scalar : LocalId → NumType → Prop
  array : LocalId → NumType → Prop
  profile? : RoutineIndex → Option Profile
  gives : Profile → NumType → Prop

mutual

def Expr.Formed (env : Env) (expr : Expr) : Prop :=
  match expr with
  | .const _ => True
  | .var id type => env.scalar id type
  | .unary op operand => operand.Formed env ∧ op.takes operand.type = true
  | .binary op left right =>
    (left.Formed env ∧ right.Formed env) ∧ left.type = right.type ∧ op.takes left.type = true
  | .compare _ left right => (left.Formed env ∧ right.Formed env) ∧ left.type = right.type
  | .logic _ left right => (left.Formed env ∧ right.Formed env) ∧ left.type = right.type
  | .select cond yes no =>
    (cond.Formed env ∧ yes.Formed env ∧ no.Formed env) ∧ cond.type = .bool ∧ yes.type = no.type
  | .cast op operand => operand.Formed env ∧ op.takes operand.type = true
  | .index array element position =>
    env.array array element ∧ position.Formed env ∧ position.type = .int
  | .len array => ∃ element, env.array array element
  | .call callee result args =>
    ∃ profile, env.profile? callee = some profile ∧ env.gives profile result ∧
      ArgsFormed env args profile.kinds
  | .abs operand => operand.Formed env ∧ operand.type ≠ .bool
  | .extremum _ left right =>
    (left.Formed env ∧ right.Formed env) ∧ left.type = right.type ∧ left.type ≠ .bool

def ArgsFormed (env : Env) (args : List (ArgOf Expr)) (kinds : List Kind) : Prop :=
  match args with
  | [] => kinds = []
  | .scalar value :: rest =>
    ∃ others, kinds = .scalar value.type :: others ∧ value.Formed env ∧ ArgsFormed env rest others
  | .array id :: rest =>
    ∃ element others, kinds = .array element :: others ∧ env.array id element ∧
      ArgsFormed env rest others

end

def Expr.Has (env : Env) (expr : Expr) (type : NumType) : Prop :=
  expr.Formed env ∧ expr.type = type

def isPackedOp (op : ArithOp) : Bool := op = .add || op = .sub || op = .mul

def Expr.Packs : Expr → Prop
  | .const _ => True
  | .var _ _ => True
  | .index _ _ position => ∃ id type, position = .var id type
  | .binary op left right => isPackedOp op = true ∧ left.Packs ∧ right.Packs
  | .unary .neg operand => operand.Packs
  | _ => False

/-- Whether a statement of a loop with these accumulators has a packed form. -/
def Stmt.Packs (reductions : List Reduction) : Stmt → Prop
  | .store _ index value => (∃ id type, index = .var id type) ∧ value.Packs
  | .assign acc (.binary op left right) =>
    (∃ reduction ∈ reductions, reduction.acc = acc) ∧ isPackedOp op = true ∧
      (left.var? = some acc ∨ right.var? = some acc) ∧ left.Packs ∧ right.Packs
  | _ => False

theorem packs_induction (holds : List Stmt → Prop) (nil : holds [])
    (store : ∀ {array index value rest}, holds rest → holds (.store array index value :: rest))
    (assign : ∀ {acc value rest}, holds rest → holds (.assign acc value :: rest))
    (packs : ∀ stmt ∈ body, stmt.Packs reductions) : holds body := by
  induction body with
  | nil => exact nil
  | cons stmt rest ih =>
    obtain ⟨first, others⟩ := List.forall_mem_cons.1 packs
    match stmt with
    | .store _ _ _ => exact store (ih others)
    | .assign _ _ => exact assign (ih others)

structure Domain where
  locals : List LocalDecl
  result : ReturnKind
  /-- the routines that may be called -/
  profile? : RoutineIndex → Option Profile

def Domain.Declares (domain : Domain) (id : LocalId) (kind : Kind) : Prop :=
  ∃ decl, domain.locals[id]? = some decl ∧ decl.kind = kind

abbrev Domain.env (domain : Domain) : Env where
  scalar id type := domain.Declares id (.scalar type)
  array id element := domain.Declares id (.array element)
  profile? := domain.profile?
  gives := Profile.Gives

instance : Coe Domain Env := ⟨Domain.env⟩

/-- A loop that keeps its counter starts from it. -/
structure ForHead.Formed (domain : Domain) (head : ForHead) : Prop where
  counter : domain.Declares head.var (.scalar .int)
  start : head.start.Has domain .int
  stop : head.stop.Has domain .int
  step : head.step.Has domain .int
  resumes : head.exitValue = true → head.start = .var head.var .int

structure VectorHead.Formed (domain : Domain) (head : VectorHead) : Prop where
  counter : domain.Declares head.var (.scalar .int)
  start : head.start.Has domain .int
  stop : head.stop.Has domain .int
  accumulators : ∀ reduction ∈ head.reductions,
    domain.Declares reduction.acc (.scalar reduction.type)

structure ParallelHead.Formed (domain : Domain) (head : ParallelHead) : Prop where
  counter : domain.Declares head.var (.scalar .int)
  start : head.start.Has domain .int
  stop : head.stop.Has domain .int
  lower : domain.Declares head.chunkLo (.scalar .int)
  upper : domain.Declares head.chunkHi (.scalar .int)
  captures : ∀ id ∈ head.captures, ∃ type, domain.Declares id (.scalar type)
  arrays : ∀ id ∈ head.arrays, ∃ element, domain.Declares id (.array element)
  accumulator : ∀ reduction ∈ head.reduction,
    domain.Declares reduction.acc (.scalar reduction.type)

def Result.Formed (domain : Domain) : Option Result → Prop
  | none => domain.result = .nothing
  | some (.scalar value) => value.Formed domain ∧ domain.result = .scalar value.type
  | some (.array id) =>
    (∃ element, domain.result = .array element) ∧
      ∃ decl position, domain.locals[id]? = some decl ∧ decl.origin = .param position

end Typed

namespace Passes

open Typed (Label)

/-- What is asked of where jumps and stores stand in code. -/
structure Rule where
  /-- breaks and continues stand in loops -/
  placed : Prop
  /-- exits stay inside the innermost loop around them -/
  nearExits : Prop
  /-- returns stand outside all loops -/
  outerReturns : Prop
  /-- no loop is lowered -/
  unlowered : Prop
  /-- lowered loops hold no breaks -/
  unbroken : Prop
  /-- nothing is stored -/
  storeless : Prop

/-- What surrounds a statement, and the rule for it. -/
structure Place where
  rule : Rule
  /-- blocks around it, those outside the innermost loop apart -/
  labels : List Label := []
  looped : Bool := false
  lowered : Bool := false

namespace Place

def inBlock (place : Place) (label : Label) : Place :=
  { place with labels := label :: place.labels }

def inLoop (place : Place) : Place := { place with labels := [], looped := true }

def inLowered (place : Place) : Place := { place.inLoop with lowered := true }

/-- The place of a kernel: no loop and no label of the routine is known there. -/
def kernel (place : Place) : Place := { rule := place.rule, lowered := true }

def sealed (place : Place) : Place := { place with lowered := true }

def under (place : Place) (rule : Rule) : Place := { place with rule }

end Place

/-- What follows one rule follows another one that asks no more. -/
structure Rule.Implies (rule other : Rule) : Prop where
  placed : other.placed → rule.placed
  exits : other.nearExits → rule.nearExits
  returns : other.outerReturns → rule.outerReturns
  unlowered : other.unlowered → rule.unlowered
  unbroken : other.unbroken → rule.unbroken
  storeless : other.storeless → rule.storeless

theorem Rule.Implies.refl {rule : Rule} : rule.Implies rule := ⟨id, id, id, id, id, id⟩

end Passes

namespace Typed

open Passes (Place)

mutual

def Stmt.Formed (domain : Domain) (place : Place) (stmt : Stmt) : Prop :=
  match stmt with
  | .assign id value => domain.Declares id (.scalar value.type) ∧ value.Formed domain
  | .store array index value =>
    (domain.Declares array (.array value.type) ∧ ¬ place.rule.storeless) ∧ index.Has domain .int ∧
      value.Formed domain
  | .eval value => value.Formed domain
  | .branch cond yes no =>
    cond.Has domain .bool ∧ BlockFormed domain place yes ∧ BlockFormed domain place no
  | .whileLoop cond body _ => cond.Has domain .bool ∧ BlockFormed domain place.inLoop body
  | .forLoop head body => head.Formed domain ∧ BlockFormed domain place.inLoop body
  | .leave =>
    (place.rule.placed → place.looped = true) ∧ (place.rule.unbroken → place.lowered = false)
  | .skip => place.rule.placed → place.looped = true
  | .giveBack value =>
    Result.Formed domain value ∧ place.lowered = false ∧
      (place.rule.outerReturns → place.looped = false)
  | .block label body => BlockFormed domain (place.inBlock label) body
  | .exit label => place.rule.nearExits → label ∈ place.labels
  | .vector head body =>
    (head.Formed domain ∧ ¬ place.rule.unlowered) ∧
      (head.form = .packed → ∀ stmt ∈ body, stmt.Packs head.reductions) ∧
      BlockFormed domain place.inLowered body
  | .parallel head chunk =>
    (head.Formed domain ∧ ¬ place.rule.unlowered) ∧ chunk.Formed domain place.kernel

def BlockFormed (domain : Domain) (place : Place) (body : List Stmt) : Prop :=
  match body with
  | [] => True
  | stmt :: rest => stmt.Formed domain place ∧ BlockFormed domain place rest

end

variable {id : LocalId} {type : NumType}

section

variable {domain : Domain} {place : Place}

@[simp] theorem blockFormed_nil : BlockFormed domain place [] := by simp [BlockFormed]

@[simp] theorem blockFormed_cons {rest : List Stmt} :
    BlockFormed domain place (stmt :: rest) ↔
      stmt.Formed domain place ∧ BlockFormed domain place rest := by
  rw [BlockFormed]

@[simp] theorem blockFormed_append {first others : List Stmt} :
    BlockFormed domain place (first ++ others) ↔
      BlockFormed domain place first ∧ BlockFormed domain place others := by
  induction first with
  | nil => simp
  | cons stmt rest ih => simp [ih, and_assoc]

theorem blockFormed_iff :
    BlockFormed domain place body ↔ ∀ stmt ∈ body, stmt.Formed domain place := by
  induction body with
  | nil => simp
  | cons stmt rest ih => simp [ih]

theorem Expr.has_int {value : Int64} : (Expr.int value).Has env .int := ⟨trivial, rfl⟩

theorem Expr.has_var (declared : domain.Declares id (.scalar type)) :
    (Expr.var id type).Has domain type := ⟨declared, rfl⟩

theorem Domain.Declares.eq {first second : Kind} (one : domain.Declares id first)
    (other : domain.Declares id second) : first = second := by
  obtain ⟨decl, found, rfl⟩ := one
  obtain ⟨same, again, rfl⟩ := other
  rw [Option.mem_unique found again]

theorem Domain.Declares.lt (declares : domain.Declares id kind) :
    id < domain.locals.length := by
  obtain ⟨decl, found, _⟩ := declares
  exact (List.getElem?_eq_some_iff.1 found).1

end

section Nodes

variable {env : Env} {domain : Domain}

mutual

theorem Expr.Formed.parts {expr : Expr} (formed : expr.Formed env) :
    ∀ part ∈ expr.nodes, part.Formed env := by
  match expr with
  | .const _ | .var _ _ | .len _ => exact List.forall_mem_singleton.2 formed
  | .unary _ _ | .cast _ _ | .abs _ => exact List.forall_mem_cons.2 ⟨formed, formed.1.parts⟩
  | .index _ _ _ => exact List.forall_mem_cons.2 ⟨formed, formed.2.1.parts⟩
  | .binary _ _ _ | .compare _ _ _ | .logic _ _ _ | .extremum _ _ _ =>
    have below := List.forall_mem_append.2 ⟨formed.1.1.parts, formed.1.2.parts⟩
    exact List.forall_mem_cons.2 ⟨formed, below⟩
  | .select _ _ _ =>
    have below := List.forall_mem_append.2 ⟨formed.1.1.parts, formed.1.2.1.parts⟩
    exact List.forall_mem_cons.2 ⟨formed, List.forall_mem_append.2 ⟨below, formed.1.2.2.parts⟩⟩
  | .call _ _ _ =>
    obtain ⟨profile, _, _, passed⟩ := id formed
    exact List.forall_mem_cons.2 ⟨formed, passed.parts⟩

theorem ArgsFormed.parts {args : List (ArgOf Expr)} {kinds : List Kind}
    (formed : ArgsFormed env args kinds) : ∀ part ∈ Expr.argNodes args, part.Formed env := by
  match args with
  | [] => nofun
  | .scalar _ :: _ =>
    obtain ⟨others, _, first, rest⟩ := formed
    exact List.forall_mem_append.2 ⟨first.parts, rest.parts⟩
  | .array _ :: _ =>
    obtain ⟨_, others, _, _, rest⟩ := formed
    exact rest.parts

end

mutual

/-- The statements in well-formed code are well formed at places of their own. -/
theorem Stmt.Formed.nodes {place : Place} {stmt : Stmt} (formed : stmt.Formed domain place) :
    ∀ node ∈ stmt.nodes, ∃ inner, inner.rule = place.rule ∧ node.Formed domain inner := by
  match stmt with
  | .branch _ _ _ =>
    have below := List.forall_mem_append.2 ⟨formed.2.1.nodes, formed.2.2.nodes⟩
    exact List.forall_mem_cons.2 ⟨⟨_, rfl, formed⟩, below⟩
  | .whileLoop _ _ _ | .forLoop _ _ | .parallel _ _ =>
    exact List.forall_mem_cons.2 ⟨⟨_, rfl, formed⟩, formed.2.nodes⟩
  | .block _ body =>
    have held : BlockFormed domain _ body := formed
    exact List.forall_mem_cons.2 ⟨⟨_, rfl, formed⟩, held.nodes⟩
  | .vector _ _ => exact List.forall_mem_cons.2 ⟨⟨_, rfl, formed⟩, formed.2.2.nodes⟩
  | .assign _ _ | .store _ _ _ | .eval _ | .skip | .leave | .giveBack _ | .exit _ =>
    exact List.forall_mem_singleton.2 ⟨_, rfl, formed⟩

theorem BlockFormed.nodes : ∀ {place : Place} {body : List Stmt}, BlockFormed domain place body →
    ∀ node ∈ Stmt.blockNodes body, ∃ inner, inner.rule = place.rule ∧ node.Formed domain inner
  | _, [], _ => nofun
  | _, _ :: _, formed => List.forall_mem_append.2 ⟨formed.1.nodes, formed.2.nodes⟩

end

theorem Stmt.Formed.expr {stmt : Stmt} (formed : stmt.Formed domain place) :
    ∀ expr ∈ stmt.exprs, expr.Formed domain := by
  match stmt with
  | .assign _ _ => exact List.forall_mem_singleton.2 formed.2
  | .eval _ => exact List.forall_mem_singleton.2 formed
  | .store _ _ _ =>
    exact List.forall_mem_cons.2 ⟨formed.2.1.1, List.forall_mem_singleton.2 formed.2.2⟩
  | .branch _ _ _ | .whileLoop _ _ _ => exact List.forall_mem_singleton.2 formed.1.1
  | .forLoop _ _ =>
    exact List.forall_mem_cons.2 ⟨formed.1.start.1, List.forall_mem_cons.2
      ⟨formed.1.stop.1, List.forall_mem_singleton.2 formed.1.step.1⟩⟩
  | .vector _ _ | .parallel _ _ =>
    exact List.forall_mem_cons.2 ⟨formed.1.1.start.1, List.forall_mem_singleton.2 formed.1.1.stop.1⟩
  | .giveBack (some (.scalar _)) => exact List.forall_mem_singleton.2 formed.1.1
  | .giveBack none | .giveBack (some (.array _)) | .leave | .skip | .block _ _ | .exit _ => nofun

theorem Stmt.Formed.writes {stmt : Stmt} (formed : stmt.Formed domain place) :
    ∀ id ∈ stmt.ownWrites, ∃ type, domain.Declares id (.scalar type) := by
  match stmt with
  | .assign _ _ => exact List.forall_mem_singleton.2 ⟨_, formed.1⟩
  | .forLoop _ _ => exact List.forall_mem_singleton.2 ⟨_, formed.1.counter⟩
  | .vector _ _ => exact List.forall_mem_singleton.2 ⟨_, formed.1.1.counter⟩
  | .parallel _ _ =>
    exact List.forall_mem_cons.2 ⟨⟨_, formed.1.1.counter⟩, List.forall_mem_cons.2
      ⟨⟨_, formed.1.1.lower⟩, List.forall_mem_singleton.2 ⟨_, formed.1.1.upper⟩⟩⟩
  | .store _ _ _ | .eval _ | .branch _ _ _ | .whileLoop _ _ _ | .leave | .skip | .giveBack _
  | .block _ _ | .exit _ =>
    intro _ member
    cases member

end Nodes

section Easing

/-- What may be read in one environment may be in another, as far as routines are called. -/
structure Env.Eases (called : RoutineIndex → Prop) (env other : Env) : Prop where
  scalar : ∀ {id type}, env.scalar id type → other.scalar id type
  array : ∀ {id element}, env.array id element → other.array id element
  profile? : ∀ {callee profile}, env.profile? callee = some profile → called callee →
    other.profile? callee = some profile
  gives : ∀ {profile type}, env.gives profile type → other.gives profile type

variable {called : RoutineIndex → Prop} {env other : Env} (eases : env.Eases called other)

include eases

mutual

theorem Expr.Formed.ease {expr : Expr} (formed : expr.Formed env)
    (calls : ∀ callee ∈ expr.callees, called callee) : expr.Formed other := by
  match expr with
  | .const _ => exact trivial
  | .var _ _ => exact eases.scalar formed
  | .len _ =>
    obtain ⟨element, declared⟩ := formed
    exact ⟨element, eases.array declared⟩
  | .unary _ _ | .cast _ _ | .abs _ =>
    exact ⟨formed.1.ease (by simpa using calls), formed.2⟩
  | .index _ _ _ =>
    exact ⟨eases.array formed.1, formed.2.1.ease (by simpa using calls), formed.2.2⟩
  | .binary _ _ _ | .compare _ _ _ | .logic _ _ _ | .extremum _ _ _ =>
    exact ⟨⟨formed.1.1.ease fun callee member => calls callee (by simp [member]),
      formed.1.2.ease fun callee member => calls callee (by simp [member])⟩, formed.2⟩
  | .select _ _ _ =>
    exact ⟨⟨formed.1.1.ease fun callee member => calls callee (by simp [member]),
      formed.1.2.1.ease fun callee member => calls callee (by simp [member]),
      formed.1.2.2.ease fun callee member => calls callee (by simp [member])⟩, formed.2⟩
  | .call _ _ _ =>
    obtain ⟨profile, known, gives, passed⟩ := formed
    exact ⟨profile, eases.profile? known (calls _ (by simp)), eases.gives gives,
      passed.ease fun callee member => calls callee (by simp [member])⟩

theorem ArgsFormed.ease :
    ∀ {args : List (ArgOf Expr)} {kinds : List Kind}, ArgsFormed env args kinds →
      (∀ callee ∈ Expr.argCallees args, called callee) → ArgsFormed other args kinds
  | [], _, formed, _ => formed
  | .scalar _ :: _, _, ⟨others, same, first, rest⟩, calls =>
    ⟨others, same, first.ease fun callee member => calls callee (by simp [member]),
      rest.ease fun callee member => calls callee (by simp [member])⟩
  | .array _ :: _, _, ⟨element, others, same, declared, rest⟩, calls =>
    ⟨element, others, same, eases.array declared, rest.ease (by simpa using calls)⟩

end

end Easing

section Growth

structure Domain.Within (small large : Domain) : Prop where
  locals : small.locals <+: large.locals
  result : large.result = small.result
  profile? : large.profile? = small.profile?

variable {small large : Domain} (within : small.Within large)

include within

theorem Domain.Within.getElem? (found : small.locals[id]? = some decl) :
    large.locals[id]? = some decl := by
  obtain ⟨rest, same⟩ := within.locals
  rw [← same, List.getElem?_append_left (List.getElem?_eq_some_iff.1 found).1, found]

theorem Domain.Declares.grow (declares : small.Declares id kind) : large.Declares id kind := by
  obtain ⟨decl, found, same⟩ := declares
  exact ⟨decl, within.getElem? found, same⟩

theorem Domain.Within.known (known : small.profile? callee = some profile) :
    large.profile? callee = some profile :=
  (congrFun within.profile? callee).trans known

theorem Domain.Within.eases : small.env.Eases (fun _ => True) large.env where
  scalar declared := Domain.Declares.grow within declared
  array declared := Domain.Declares.grow within declared
  profile? found _ := within.known found
  gives := id

theorem Expr.Formed.grow {expr : Expr} (formed : expr.Formed small) : expr.Formed large :=
  formed.ease within.eases fun _ _ => trivial

theorem ArgsFormed.grow (formed : ArgsFormed small args kinds) :
    ArgsFormed large args kinds :=
  formed.ease within.eases fun _ _ => trivial

theorem Expr.Has.grow {expr : Expr} (has : expr.Has small type) :
    expr.Has large type :=
  ⟨has.1.grow within, has.2⟩

theorem ForHead.Formed.grow {head : ForHead} (formed : head.Formed small) :
    head.Formed large :=
  ⟨formed.counter.grow within, formed.start.grow within, formed.stop.grow within,
    formed.step.grow within, formed.resumes⟩

theorem VectorHead.Formed.grow {head : VectorHead} (formed : head.Formed small) :
    head.Formed large :=
  ⟨formed.counter.grow within, formed.start.grow within, formed.stop.grow within,
    fun reduction member => (formed.accumulators reduction member).grow within⟩

theorem ParallelHead.Formed.grow {head : ParallelHead} (formed : head.Formed small) :
    head.Formed large where
  counter := formed.counter.grow within
  start := formed.start.grow within
  stop := formed.stop.grow within
  lower := formed.lower.grow within
  upper := formed.upper.grow within
  captures := fun id member => (formed.captures id member).imp fun _ held => held.grow within
  arrays := fun id member => (formed.arrays id member).imp fun _ held => held.grow within
  accumulator := fun reduction member => (formed.accumulator reduction member).grow within

theorem Result.Formed.grow {value : Option Result} (formed : Result.Formed small value) :
    Result.Formed large value := by
  match value with
  | none => exact within.result.trans formed
  | some (.scalar _) => exact ⟨formed.1.grow within, within.result ▸ formed.2⟩
  | some (.array _) =>
    obtain ⟨array, decl, position, found, origin⟩ := formed
    exact ⟨within.result ▸ array, decl, position, within.getElem? found, origin⟩

open Passes (Rule)

variable {rule : Rule}

set_option linter.unusedSectionVars false in
mutual

/-- Well-formed code is so with more locals, and by a rule that asks no more. -/
theorem Stmt.Formed.ease {place : Place} {stmt : Stmt} (formed : stmt.Formed small place)
    (implies : place.rule.Implies rule) :
    stmt.Formed large (place.under rule) := by
  match stmt with
  | .assign _ _ => exact ⟨formed.1.grow within, formed.2.grow within⟩
  | .store _ _ _ =>
    exact ⟨⟨formed.1.1.grow within, formed.1.2 ∘ implies.storeless⟩, formed.2.1.grow within,
      formed.2.2.grow within⟩
  | .eval value =>
    have held : value.Formed small := formed
    exact held.grow within
  | .branch _ _ _ =>
    exact ⟨formed.1.grow within, formed.2.1.ease implies, formed.2.2.ease implies⟩
  | .whileLoop _ _ _ | .forLoop _ _ => exact ⟨formed.1.grow within, formed.2.ease implies⟩
  | .leave => exact ⟨formed.1 ∘ implies.placed, formed.2 ∘ implies.unbroken⟩
  | .skip => exact formed ∘ implies.placed
  | .giveBack _ => exact ⟨formed.1.grow within, formed.2.1, formed.2.2 ∘ implies.returns⟩
  | .block label body =>
    have held : BlockFormed small (place.inBlock label) body := formed
    exact held.ease implies
  | .exit _ => exact formed ∘ implies.exits
  | .vector _ _ =>
    exact ⟨⟨formed.1.1.grow within, formed.1.2 ∘ implies.unlowered⟩, formed.2.1,
      formed.2.2.ease implies⟩
  | .parallel _ _ =>
    exact ⟨⟨formed.1.1.grow within, formed.1.2 ∘ implies.unlowered⟩, formed.2.ease implies⟩

theorem BlockFormed.ease : ∀ {place : Place} {body : List Stmt}, BlockFormed small place body →
    place.rule.Implies rule →
      BlockFormed large (place.under rule) body
  | _, [], _, _ => blockFormed_nil
  | _, _ :: _, formed, implies => ⟨formed.1.ease implies, formed.2.ease implies⟩

end

theorem Stmt.Formed.grow {place : Place} {stmt : Stmt} (formed : stmt.Formed small place) :
    stmt.Formed large place :=
  formed.ease within .refl

theorem BlockFormed.grow (formed : BlockFormed small place body) :
    BlockFormed large place body :=
  formed.ease within .refl

end Growth

end Typed
end TwoTier
