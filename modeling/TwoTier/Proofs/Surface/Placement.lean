import TwoTier.Interp.Session

namespace TwoTier.Surface

namespace Stmt

mutual

/-- The jumps of a statement have around them what they leave, and the parameters of a definition
have names of their own. -/
def Enclosed (enclosure : Enclosure) (stmt : Stmt) : Prop :=
  match stmt with
  | .leave _ => enclosure.loop = true
  | .skip _ => enclosure.loop = true
  | .giveBack _ _ => enclosure.function = true
  | .branch _ _ yes no => AllEnclosed enclosure yes ∧ AllEnclosed enclosure no
  | .whileLoop _ _ body => AllEnclosed { enclosure with loop := true } body
  | .forLoop _ _ _ body => AllEnclosed { enclosure with loop := true } body
  | .attempt _ body handlers cleanup =>
    AllEnclosed enclosure body ∧ HandlersEnclosed enclosure handlers ∧
      AllEnclosed enclosure cleanup
  | .define ⟨_, params, _, body, _, _, _, _⟩ =>
    AllEnclosed ⟨false, true⟩ body ∧ (params.map (·.name.name)).Nodup
  | _ => True

def AllEnclosed (enclosure : Enclosure) (body : List Stmt) : Prop :=
  match body with
  | [] => True
  | stmt :: rest => Enclosed enclosure stmt ∧ AllEnclosed enclosure rest

def HandlersEnclosed (enclosure : Enclosure) (handlers : List (HandlerOf Stmt)) : Prop :=
  match handlers with
  | [] => True
  | ⟨_, _, body, _⟩ :: rest => AllEnclosed enclosure body ∧ HandlersEnclosed enclosure rest

end

theorem allEnclosed_iff : AllEnclosed enclosure body ↔ ∀ stmt ∈ body, stmt.Enclosed enclosure := by
  induction body with
  | nil => simp [AllEnclosed]
  | cons stmt rest ih => simp [AllEnclosed, ih]

theorem enclosed_define {function : FunctionDef} :
    ((Stmt.define function).Enclosed enclosure → AllEnclosed ⟨false, true⟩ function.body) ∧
      ((Stmt.define function).Enclosed enclosure → function.paramNames.Nodup) := by
  exact ⟨And.left, And.right⟩

theorem handlersEnclosed_iff {handlers : List (HandlerOf Stmt)} :
    HandlersEnclosed enclosure handlers ↔
      ∀ handler ∈ handlers, AllEnclosed enclosure handler.body := by
  induction handlers with
  | nil => simp [HandlersEnclosed]
  | cons handler rest ih => simp [HandlersEnclosed, ih]

end Stmt

/-- Whatever is read has the property. -/
def Reads {α : Type} (holds : α → Prop) (reader : Reader α) : Prop :=
  ∀ (feed : Feed) (value : α) (rest : Feed), reader feed = .ok value rest → holds value

namespace Reads

variable {α β : Type} {holds : β → Prop}

theorem pure {value : β} (held : holds value) : Reads holds (Pure.pure value : Reader β) := by
  intro feed other rest given
  cases given
  exact held

theorem bind {first : α → Prop} {next : α → Reader β} (start : Reads first reader)
    (follows : ∀ value, first value → Reads holds (next value)) :
    Reads holds (reader >>= next) := by
  intro feed value rest given
  have given : EStateM.bind reader next feed = .ok value rest := given
  unfold EStateM.bind at given
  split at given
  · rename_i between middle read
    exact follows between (start _ _ _ read) _ _ _ given
  · cases given

theorem trivial {reader : Reader β} : Reads (fun _ => True) reader := fun _ _ _ _ => True.intro

theorem after {next : α → Reader β} (follows : ∀ value, Reads holds (next value)) :
    Reads holds (reader >>= next) :=
  trivial.bind fun value _ => follows value

theorem refuse {cause : Cause} : Reads holds (Reader.refuse cause span) := by
  intro feed value rest given
  cases given

theorem unsupported : Reads holds (Reader.unsupported construct) := by
  exact after fun _ => refuse

theorem many {item : Reader (Option β)} (reads : Reads (∀ value ∈ ·, holds value) item) :
    ∀ budget, Reads (fun items => ∀ value ∈ items, holds value) (Reader.many item budget)
  | 0 => unsupported
  | budget + 1 => by
    refine reads.bind fun found held => ?_
    cases found with
    | none => exact pure nofun
    | some first =>
      refine (many reads budget).bind fun others later => pure ?_
      exact List.forall_mem_cons.2 ⟨held first rfl, later⟩

/-- The items of a list have a property together if every item keeps it for those before it. -/
theorem commaList {item : List β → Reader β} {together : List β → Prop}
    (reads : ∀ {before}, together before →
      Reads (fun value => together (value :: before)) (item before)) (held : together before) :
    ∀ budget, Reads (fun items => ∃ read, together read ∧ items = read.reverse)
      (Reader.commaList closed item budget before)
  | 0 => unsupported
  | budget + 1 => by
    refine after fun ended => ?_
    split
    · exact pure ⟨before, held, rfl⟩
    · refine (reads held).bind fun value longer => after fun more => ?_
      split
      · exact commaList reads longer budget
      · exact pure ⟨_, longer, rfl⟩

end Reads

section Grammar

variable {enclosure : Enclosure} {budget : Nat} {page : Page}

theorem reads_assignment {sides : Reader Expr} {start : Nat} :
    ∀ (budget : Nat) (targets : List Expr) (value : Expr),
      Reads (Stmt.Enclosed enclosure) (assignment sides start budget targets value)
  | 0, _, _ => .unsupported
  | budget + 1, targets, value => by
    refine .after fun more => ?_
    split
    · exact .after fun _ => .after fun _ => reads_assignment budget _ _
    · exact .after fun _ => .pure True.intro

theorem reads_expressionStatement :
    Reads (Stmt.Enclosed enclosure) (expressionStatement budget) := by
  refine .after fun _ => .after fun _ => .after fun _ => ?_
  split
  · exact .after fun _ => .after fun _ => .after fun _ => .after fun _ => .pure True.intro
  · refine .after fun more => ?_
    split
    · exact reads_assignment budget _ _
    · exact .after fun _ => .pure True.intro

theorem reads_jump {allowed : Bool} {cause : Cause} {build : Span → Stmt} {holds : Stmt → Prop}
    (held : allowed = true → ∀ span, holds (build span)) :
    Reads holds (jump allowed cause build) := by
  refine .after fun token => ?_
  cases allowed with
  | false => exact Reads.refuse.bind fun _ => False.elim
  | true => exact .after fun _ => .pure (held rfl _)

theorem reads_returnStatement :
    Reads (Stmt.Enclosed enclosure) (returnStatement budget enclosure) := by
  refine .after fun token => ?_
  split
  · exact Reads.refuse.bind fun _ => False.elim
  · rename_i refused
    have inside : enclosure.function = true := by simpa using refused
    refine .after fun ended => ?_
    split <;> exact .after fun _ => .after fun _ => .pure inside

theorem reads_raiseStatement : Reads (Stmt.Enclosed enclosure) (raiseStatement budget) := by
  refine .after fun token => .after fun ended => ?_
  split <;> exact .after fun _ => .after fun _ => .pure True.intro

theorem reads_fromStatement : Reads (Stmt.Enclosed enclosure) (fromStatement budget) := by
  refine .after fun _ => .after fun _ => .after fun _ => .after fun wrapped => .after fun _ => ?_
  split
  · exact .after fun _ => .after fun _ => .pure True.intro
  · exact .after fun _ => .pure True.intro

theorem reads_simpleStatement :
    Reads (Stmt.Enclosed enclosure) (simpleStatement budget enclosure) := by
  refine .after fun kind => ?_
  split
  · exact .after fun _ => .after fun _ => .pure True.intro
  · exact reads_jump fun inside _ => inside
  · exact reads_jump fun inside _ => inside
  · exact reads_returnStatement
  · exact reads_raiseStatement
  · exact .after fun _ => .after fun _ => .after fun _ => .pure True.intro
  · exact .after fun _ => .after fun _ => .after fun _ => .pure True.intro
  · exact .after fun _ => .after fun _ => .after fun _ => .pure True.intro
  · exact reads_fromStatement
  · exact .unsupported
  · exact reads_expressionStatement

/-- All statements of a list are where they may stand. -/
def AllSited (enclosure : Enclosure) (body : List Stmt) : Prop :=
  ∀ stmt ∈ body, stmt.Enclosed enclosure

theorem AllSited.allEnclosed (sited : AllSited enclosure body) : Stmt.AllEnclosed enclosure body :=
  Stmt.allEnclosed_iff.2 sited

theorem AllSited.append {first others : List Stmt} (one : AllSited enclosure first)
    (other : AllSited enclosure others) : AllSited enclosure (first ++ others) :=
  fun stmt member => (List.mem_append.1 member).elim (one stmt) (other stmt)

theorem AllSited.singleton (sited : stmt.Enclosed enclosure) : AllSited enclosure [stmt] :=
  List.forall_mem_singleton.2 sited

theorem reads_simpleStatements :
    Reads (AllSited enclosure) (simpleStatements budget enclosure) := by
  refine reads_simpleStatement.bind fun first sited => ?_
  refine Reads.bind (Reads.many ?_ budget)
    fun others (later : ∀ stmt ∈ others, stmt.Enclosed enclosure) => ?_
  · refine .after fun more => ?_
    split
    · exact .pure nofun
    · refine .after fun lineEnd => .after fun textEnd => ?_
      split
      · exact .pure nofun
      · refine reads_simpleStatement.bind fun stmt sited => .pure ?_
        rintro _ ⟨⟩
        exact sited
  · have all : AllSited enclosure (first :: others) := List.forall_mem_cons.2 ⟨sited, later⟩
    refine .after fun ended => ?_
    split
    · exact .after fun _ => .pure all
    · exact .pure all

theorem reads_parameter {before : List Param}
    (distinct : (before.map (·.name.name)).Nodup) :
    Reads (fun param => ((param :: before).map (·.name.name)).Nodup) (parameter budget before) := by
  refine .after fun star => .after fun stars => ?_
  split
  · exact Reads.unsupported.bind fun _ => False.elim
  · refine .after fun name => ?_
    split
    · exact Reads.refuse.bind fun _ => False.elim
    · rename_i clashes
      have fresh : name.name ∉ before.map (·.name.name) := by simpa using clashes
      have longer := List.nodup_cons.2 ⟨fresh, distinct⟩
      refine .after fun annotated => ?_
      split
      all_goals
        refine .after fun _ => .after fun assigned => ?_
        split <;> exact .after fun _ => .pure longer

section Nesting

variable {nested : Nested} (reads : ∀ enclosure, Reads (AllSited enclosure) (nested enclosure))

include reads

theorem reads_blockBody (enclosure : Enclosure) :
    ∀ budget, Reads (AllSited enclosure) (blockBody nested enclosure budget)
  | 0 => .unsupported
  | budget + 1 => by
    refine .after fun closed => .after fun ended => ?_
    split
    · exact .pure nofun
    · refine .after fun blank => ?_
      split
      · exact reads_blockBody enclosure budget
      · refine (reads enclosure).bind fun first sited => ?_
        exact (reads_blockBody enclosure budget).bind fun _ others => .pure (sited.append others)

theorem reads_block : Reads (AllSited enclosure) (block nested budget enclosure) := by
  refine .after fun _ => .after fun flat => ?_
  split
  · exact reads_simpleStatements
  · refine .after fun _ => (reads_blockBody reads enclosure budget).bind fun _ sited => ?_
    exact .after fun _ => .pure sited

theorem reads_functionDefinition :
    Reads (Stmt.Enclosed enclosure) (functionDefinition page nested budget) := by
  have kept (body : List Stmt) (sited : AllSited ⟨false, true⟩ body) :
      Stmt.AllEnclosed ⟨false, true⟩ (splitDocstring body).2 := by
    refine AllSited.allEnclosed fun stmt member => sited stmt ?_
    unfold splitDocstring at member
    split at member
    · exact .tail _ member
    · exact member
  refine .after fun _ => .after fun _ => .after fun _ => ?_
  refine (Reads.commaList reads_parameter .nil budget).bind fun _ listed => ?_
  obtain ⟨params, distinct, rfl⟩ := listed
  have distinct := ((List.reverse_perm params).map (·.name.name)).nodup_iff.2 distinct
  refine .after fun _ => .after fun arrow => ?_
  split
  all_goals
    refine .after fun _ => (reads_block reads).bind fun body sited => ?_
    exact .after fun _ => .pure ⟨kept body sited, distinct⟩

theorem reads_branchStatement (enclosure : Enclosure) :
    ∀ budget, Reads (Stmt.Enclosed enclosure) (branchStatement nested enclosure budget)
  | 0 => .unsupported
  | budget + 1 => by
    refine .after fun _ => .after fun _ => ?_
    refine (reads_block reads).bind fun yes sited => ?_
    have finish {no : List Stmt} (rest : AllSited enclosure no) (start : Nat) (cond : Expr) :
        Reads (Stmt.Enclosed enclosure)
          (do return .branch (← Reader.spanFrom start) cond yes no) :=
      .after fun _ => .pure ⟨sited.allEnclosed, rest.allEnclosed⟩
    have empty : AllSited enclosure [] := fun _ => nofun
    refine .after fun further => .after fun otherwise => ?_
    split
    · refine (reads_branchStatement enclosure budget).bind fun _ branch => ?_
      exact finish (.singleton branch) _ _
    · split
      · exact (reads_block reads).bind fun _ rest => finish rest _ _
      · exact finish empty _ _

theorem reads_loopBody :
    Reads (AllSited { enclosure with loop := true }) (loopBody nested budget enclosure) := by
  refine (reads_block reads).bind fun body sited => ?_
  refine .after fun otherwise => ?_
  split
  · exact Reads.unsupported.bind fun _ => False.elim
  · exact .pure sited

theorem reads_whileStatement :
    Reads (Stmt.Enclosed enclosure) (whileStatement nested budget enclosure) := by
  refine .after fun _ => .after fun _ => ?_
  refine (reads_loopBody reads).bind fun _ sited => ?_
  exact .after fun _ => .pure sited.allEnclosed

theorem reads_forStatement :
    Reads (Stmt.Enclosed enclosure) (forStatement nested budget enclosure) := by
  refine .after fun _ => .after fun _ => .after fun _ => .after fun _ => .after fun _ => ?_
  refine (reads_loopBody reads).bind fun _ sited => ?_
  exact .after fun _ => .pure sited.allEnclosed

theorem reads_handler :
    Reads (∀ handler ∈ ·, Stmt.AllEnclosed enclosure handler.body)
      (handler nested budget enclosure) := by
  refine .after fun sees => ?_
  split
  · exact .pure nofun
  · refine .after fun _ => .after fun plain => ?_
    have finish (kind : Option Expr) (start : Nat) : Reads
        (∀ handler ∈ ·, Stmt.AllEnclosed enclosure handler.body) (do
          let name ← if ← Reader.eatWord .kwAs then some <$> Reader.ident else pure none
          let body ← block nested budget enclosure
          return some ({ kind, name, body, span := ← Reader.spanFrom start } : Handler)) := by
      refine .after fun renamed => ?_
      split
      all_goals
        refine .after fun name => (reads_block reads).bind fun body sited => ?_
        refine .after fun span => .pure ?_
        rintro _ ⟨⟩
        exact sited.allEnclosed
    split
    · exact .after fun kind => finish kind _
    · exact .after fun kind => finish kind _

theorem reads_tryStatement :
    Reads (Stmt.Enclosed enclosure) (tryStatement nested budget enclosure) := by
  refine .after fun token => (reads_block reads).bind fun body sited => ?_
  refine (Reads.many (reads_handler reads) budget).bind fun handlers handled => ?_
  refine .after fun otherwise => ?_
  split
  · exact Reads.unsupported.bind fun _ => False.elim
  · refine .after fun cleans => ?_
    have finish {cleanup : List Stmt} (cleaned : AllSited enclosure cleanup) (start : Nat) :
        Reads (Stmt.Enclosed enclosure) (do
          if handlers.isEmpty && cleanup.isEmpty then Reader.unexpected "'except' or 'finally'"
          return .attempt (← Reader.spanFrom start) body handlers cleanup) := by
      have enclosed (span : Span) : (Stmt.attempt span body handlers cleanup).Enclosed enclosure :=
        ⟨sited.allEnclosed, Stmt.handlersEnclosed_iff.2 handled, cleaned.allEnclosed⟩
      split
      · exact .after fun _ => .after fun _ => .pure (enclosed _)
      · exact .after fun _ => .pure (enclosed _)
    have empty : AllSited enclosure [] := fun _ => nofun
    split
    · exact (reads_block reads).bind fun _ cleaned => finish cleaned _
    · exact finish empty _

theorem reads_statementRule :
    Reads (AllSited enclosure) (statementRule page nested budget enclosure) := by
  refine .after fun kind => ?_
  split
  · exact (reads_functionDefinition reads).bind fun _ sited => .pure (.singleton sited)
  · exact (reads_branchStatement reads enclosure budget).bind fun _ sited =>
      .pure (.singleton sited)
  · exact (reads_whileStatement reads).bind fun _ sited => .pure (.singleton sited)
  · exact (reads_forStatement reads).bind fun _ sited => .pure (.singleton sited)
  · exact (reads_tryStatement reads).bind fun _ sited => .pure (.singleton sited)
  · exact .unsupported
  · exact .unsupported
  · exact .unsupported
  · exact reads_simpleStatements

end Nesting

theorem reads_statement (page : Page) (budget : Nat) :
    ∀ enclosure, Reads (AllSited enclosure) (statement page budget enclosure) := by
  induction budget with
  | zero => exact fun _ => .unsupported
  | succ budget ih => exact fun _ => reads_statementRule ih

theorem sited_readStatements (page : Page) (budget : Nat) :
    ∀ (count : Nat) (feed : Feed), AllSited .module (readStatements page budget count feed).body
  | 0, _ => nofun
  | count + 1, feed => by
    unfold readStatements
    split
    · exact nofun
    · exact sited_readStatements page budget count _
    · exact sited_readStatements page budget count _
    · exact sited_readStatements page budget count _
    · split
      · rename_i statements rest read
        exact (reads_statement page budget .module _ _ _ read).append
          (sited_readStatements page budget count _)
      · exact sited_readStatements page budget count _

/-- In a module that was read every statement is where it may stand. -/
theorem sited_of_readModule {module : Module} (read : readModule source = .ok module) :
    AllSited .module module.body := by
  unfold readModule at read
  dsimp only at read
  split at read
  · cases read
    exact sited_readStatements _ _ _ _
  · cases read

theorem define_mem_body (member : function ∈ Module.functions module) :
    Stmt.define function ∈ module.body := by
  obtain ⟨stmt, listed, found⟩ := List.mem_filterMap.1 member
  cases stmt with
  | define other =>
    cases found
    exact listed
  | _ => cases found

/-- In a module that was read, every jump of a function has a loop around it in that function. -/
theorem enclosed_of_readModule {module : Module} (read : readModule source = .ok module) :
    ∀ function ∈ module.functions, Stmt.AllEnclosed ⟨false, true⟩ function.body :=
  fun _ member => Stmt.enclosed_define.1 (sited_of_readModule read _ (define_mem_body member))

end Grammar

/-- The blocks of a statement, each with what is around it. -/
def Stmt.blocks (enclosure : Enclosure) : Stmt → List (Enclosure × List Stmt)
  | .branch _ _ yes no => [(enclosure, yes), (enclosure, no)]
  | .whileLoop _ _ body | .forLoop _ _ _ body => [({ enclosure with loop := true }, body)]
  | .attempt _ body handlers cleanup =>
    (enclosure, body) :: (enclosure, cleanup) :: handlers.map fun handler => (enclosure, handler.body)
  | .define function => [(⟨false, true⟩, function.body)]
  | _ => []

/-- A jump has around it what it leaves. -/
def Stmt.Jumps (enclosure : Enclosure) : Stmt → Prop
  | .leave _ | .skip _ => enclosure.loop = true
  | .giveBack _ _ => enclosure.function = true
  | _ => True

/-- The statements of a module, however deep. -/
inductive Module.Holds (module : Module) : Enclosure → Stmt → Prop
  | top : stmt ∈ module.body → module.Holds .module stmt
  | inside {inner : Enclosure} {parts : List Stmt} : module.Holds enclosure stmt →
      (inner, parts) ∈ stmt.blocks enclosure → part ∈ parts →
      module.Holds inner part

theorem Stmt.Enclosed.jumps {stmt : Stmt} (enclosed : stmt.Enclosed enclosure) :
    stmt.Jumps enclosure := by
  cases stmt with
  | _ => trivial

theorem Stmt.Enclosed.blocks {stmt : Stmt} (enclosed : stmt.Enclosed enclosure) :
    ∀ block ∈ stmt.blocks enclosure, AllEnclosed block.1 block.2 := by
  cases stmt with
  | branch => exact List.forall_mem_cons.2 ⟨enclosed.1, List.forall_mem_singleton.2 enclosed.2⟩
  | whileLoop | forLoop => exact List.forall_mem_singleton.2 enclosed
  | attempt =>
    refine List.forall_mem_cons.2 ⟨enclosed.1, List.forall_mem_cons.2 ⟨enclosed.2.2, ?_⟩⟩
    exact List.forall_mem_map.2 (handlersEnclosed_iff.1 enclosed.2.1)
  | define => exact List.forall_mem_singleton.2 (enclosed_define.1 enclosed)
  | _ => exact nofun

theorem Module.Holds.enclosed (read : readModule source = .ok module)
    (held : module.Holds enclosure stmt) : stmt.Enclosed enclosure := by
  induction held with
  | top member => exact sited_of_readModule read _ member
  | inside _ member listed ih => exact Stmt.allEnclosed_iff.1 (ih.blocks _ member) _ listed

end TwoTier.Surface
