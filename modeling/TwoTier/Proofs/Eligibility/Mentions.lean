import TwoTier.Eligibility.Analysis
import TwoTier.Proofs.Eligibility.Attempt

namespace TwoTier.Surface

/-- A name that typing may look up in the program. -/
inductive Mention where
  /-- read as a constant -/
  | read (name : String)
  /-- called as a function -/
  | called (name : String)
deriving DecidableEq

def Mention.name : Mention → String
  | .read name | .called name => name

mutual

/-- The names that typing an expression may look up. -/
def Expr.mentions (expr : Expr) : List Mention :=
  match expr with
  | .name _ text => [.read text]
  | .binary _ _ left right => left.mentions ++ right.mentions
  | .unary _ _ operand => operand.mentions
  | .boolOp _ _ left right => left.mentions ++ right.mentions
  | .compare _ left rest => left.mentions ++ Expr.mentionsInChain rest
  | .call _ func args _ => (func.name?.map .called).toList ++ Expr.mentionsInAll args
  | .subscript _ _ index => index.mentions
  | .tuple _ items => Expr.mentionsInAll items
  | .list _ items => Expr.mentionsInAll items
  | .conditional _ cond yes no => cond.mentions ++ (yes.mentions ++ no.mentions)
  | _ => []

def Expr.mentionsInAll (exprs : List Expr) : List Mention :=
  match exprs with
  | [] => []
  | expr :: rest => expr.mentions ++ Expr.mentionsInAll rest

def Expr.mentionsInChain (rest : List (CmpOp × Expr)) : List Mention :=
  match rest with
  | [] => []
  | (_, expr) :: rest => expr.mentions ++ Expr.mentionsInChain rest

end

theorem Expr.mentionsInAll_append (first second : List Expr) :
    mentionsInAll (first ++ second) = mentionsInAll first ++ mentionsInAll second := by
  induction first with
  | nil => rfl
  | cons expr rest ih => rw [List.cons_append, mentionsInAll, mentionsInAll, ih, List.append_assoc]

/-- The names in the bounds of a range; the range itself is not looked up. -/
def Expr.mentionsInRange : Expr → List Mention
  | .call _ _ args _ => Expr.mentionsInAll args
  | _ => []

def Stmt.mentions : Stmt → List Mention
  | .forLoop _ _ iter _ => iter.mentionsInRange
  | stmt => Expr.mentionsInAll (Eligibility.screenedExprs stmt)

def Stmt.mentionsInAll (body : List Stmt) : List Mention :=
  (Stmt.withinAll body).flatMap (·.mentions)

def FunctionOf.scopeNames (definition : FunctionDef) : List String :=
  assignedNames definition.body ++ definition.paramNames

/-- The names that a definition mentions and does not bind. -/
def FunctionOf.freeMentions (definition : FunctionDef) : List Mention :=
  (Stmt.mentionsInAll definition.body).filter fun mention =>
    mention.name ∉ definition.scopeNames

end TwoTier.Surface

namespace TwoTier.Interp

def Program.definition? (program : Program) (name : String) : Option Surface.FunctionDef :=
  (program.function? name).map (·.definition)

end TwoTier.Interp

namespace TwoTier.Eligibility

open Interp (Program)

open Surface (Mention)

/-- Whether a name stands for the same constant, or for the same function, in two programs. -/
def Agree (program other : Program) : Mention → Prop
  | .read name => other.constant? name = program.constant? name
  | .called name => other.definition? name = program.definition? name

variable {σ α β : Type}

/-- An outcome leaves a state where `inv` holds; if that is `known`, something held `earlier` and
another outcome is the same. -/
abbrev Trial.Tracks (loose : Prop) (inv known : σ → Prop) (earlier : Prop)
    (trial other : Trial σ α) : Prop :=
  trial.Leaves loose fun after => inv after ∧ (known after → earlier ∧ other = trial)

namespace Attempt

/-- An attempt stays where `inv` holds, and there another one goes the same way if the record at the
end is `known`. Unless `loose`, the attempt ends. -/
structure Tracks (loose : Prop) (inv known : σ → Prop) (attempt other : Attempt σ α) : Prop where
  tracked : ∀ {before}, inv before →
    (attempt before).Tracks loose inv known (known before) (other before)

namespace Tracks

variable {loose : Prop} {inv known : σ → Prop}

theorem pure {found : α} :
    Tracks loose inv known (Pure.pure found : Attempt σ α) (Pure.pure found) :=
  ⟨fun admitted => ⟨admitted, fun recorded => ⟨recorded, rfl⟩⟩⟩

theorem refuse :
    Tracks loose inv known (Attempt.refuse refusal : Attempt σ α) (Attempt.refuse refusal) :=
  ⟨fun admitted => ⟨admitted, fun recorded => ⟨recorded, rfl⟩⟩⟩

theorem of_modify {result : σ → α} {change : σ → σ}
    (runs : ∀ before, attempt before = .ok (result before) (change before))
    (kept : ∀ {before}, inv before → inv (change before))
    (recorded : ∀ {before}, known (change before) → known before) :
    Tracks loose inv known attempt attempt where
  tracked {before} admitted := by
    rw [runs before]
    exact ⟨kept admitted, fun later => ⟨recorded later, rfl⟩⟩

theorem bind {attempt other : Attempt σ α} {next otherNext : α → Attempt σ β}
    (first : Tracks loose inv known attempt other)
    (rest : ∀ found, Tracks loose inv known (next found) (otherNext found)) :
    Tracks loose inv known (attempt >>= next) (other >>= otherNext) where
  tracked {before} admitted := by
    have tracked := first.tracked admitted
    rw [bind_apply, bind_apply, Attempt.bind, Attempt.bind]
    cases ran : attempt before with
    | ok found between =>
      rw [ran] at tracked
      refine ((rest found).tracked tracked.1).mono fun later => ⟨later.1, fun recorded => ?_⟩
      obtain ⟨middle, follows⟩ := later.2 recorded
      obtain ⟨start, same⟩ := tracked.2 middle
      rw [same]
      exact ⟨start, follows⟩
    | refused refusal between =>
      rw [ran] at tracked
      refine ⟨tracked.1, fun recorded => ?_⟩
      obtain ⟨start, same⟩ := tracked.2 recorded
      rw [same]
      exact ⟨start, rfl⟩
    | exhausted =>
      rw [ran] at tracked
      exact tracked

theorem mapM {step otherStep : α → Attempt σ β} (items : List α)
    (each : ∀ item ∈ items, Tracks loose inv known (step item) (otherStep item)) :
    Tracks loose inv known (items.mapM step) (items.mapM otherStep) := by
  induction items with
  | nil => exact pure
  | cons item rest ih =>
    rw [List.mapM_cons, List.mapM_cons]
    refine bind (each item (.head _)) fun _ => bind (ih ?_) fun _ => pure
    exact fun other member => each other (.tail _ member)

theorem mapRefusal {other : Attempt σ α} {change : Refusal → Refusal}
    (tracks : Tracks loose inv known attempt other) :
    Tracks loose inv known (Attempt.mapRefusal change attempt)
      (Attempt.mapRefusal change other) where
  tracked admitted := leaves_mapRefusal ((tracks.tracked admitted).mono fun held =>
    ⟨held.1, fun recorded => (held.2 recorded).imp_right fun same => by
      rw [Attempt.mapRefusal, Attempt.mapRefusal, same]⟩)

end Tracks
end Attempt

/-- What two runs of typing are compared under. -/
structure Watch where
  /-- the names of the scope -/
  names : List String
  /-- what holds of the draft all the time -/
  holds : Draft → Prop
  /-- what is known of the draft in the end -/
  known : Draft → Prop
  /-- what stands for the same in both programs -/
  alike : Mention → Prop
  /-- whether the first run may be cut short -/
  loose : Prop
  within : ∀ {draft}, holds draft → draft.scope.localNames = names

namespace Watch

variable (watch : Watch)

def Tracks (typing other : Typing α) : Prop :=
  Attempt.Tracks watch.loose watch.holds watch.known typing other

/-- Two programs agree on what is mentioned and not of the scope. -/
def Covers (mentions : List Mention) : Prop :=
  ∀ mention ∈ mentions, mention.name ∉ watch.names → watch.alike mention

/-- Two subjects of one name that read the same constants and whose requests are answered alike. -/
structure Counterpart (subject other : Subject) : Prop where
  function : other.function = subject.function
  constant : ∀ {name}, watch.alike (.read name) →
    other.program.constant? name = subject.program.constant? name
  defined : ∀ {name}, watch.alike (.called name) →
    (other.program.function? name).isSome = (subject.program.function? name).isSome
  captured : ∀ name value,
    watch.Tracks (Subject.captureConstant name value) (Subject.captureConstant name value)
  requested : ∀ name kinds span, watch.alike (.called name) →
    watch.Tracks (subject.requestCallee name kinds span) (other.requestCallee name kinds span)

/-- Two subjects that may also change their scopes, raise their effects and return. -/
structure Partner (subject other : Subject) : Prop extends watch.Counterpart subject other where
  placed : ∀ change, watch.Tracks (Typing.setDefinite change) (Typing.setDefinite change)
  spilled : ∀ hint type, watch.Tracks (Typing.onScope (·.temp hint (.scalar type)))
    (Typing.onScope (·.temp hint (.scalar type)))
  bound : ∀ name type span, watch.Tracks (subject.bindLocal name (.scalar type) span)
    (other.bindLocal name (.scalar type) span)
  raised : ∀ purity, watch.Tracks (Typing.raisePurity purity) (Typing.raisePurity purity)
  returned : ∀ result span, watch.Tracks (subject.recordReturn result span)
    (other.recordReturn result span)

variable {watch}

theorem Covers.left {first second : List Mention} (covers : watch.Covers (first ++ second)) :
    watch.Covers first :=
  fun mention member => covers mention (List.mem_append_left second member)

theorem Covers.right {first second : List Mention} (covers : watch.Covers (first ++ second)) :
    watch.Covers second :=
  fun mention member => covers mention (List.mem_append_right first member)

theorem Covers.item {exprs : List Surface.Expr} {expr : Surface.Expr}
    (covers : watch.Covers (Surface.Expr.mentionsInAll exprs)) (member : expr ∈ exprs) :
    watch.Covers expr.mentions := by
  induction exprs with
  | nil => cases member
  | cons first rest ih =>
    rcases member with _ | ⟨_, later⟩
    · exact covers.left
    · exact ih covers.right later

end Watch

end TwoTier.Eligibility
