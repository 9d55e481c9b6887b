import TwoTier.Proofs.Forms.Rendered

namespace TwoTier

namespace Typed

open Passes (Place Rule isLoop)

variable {looped : Bool}

section Narrowing

def Domain.calling (domain : Domain) (profile? : RoutineIndex → Option Profile) : Domain :=
  { domain with profile? }

variable {called : RoutineIndex → Prop} {placed storeless : Prop} {rule : Rule} {domain : Domain}
  {profile? : RoutineIndex → Option Profile}

/-- Written code calls only what may be called, and does not return from inside a loop. -/
structure Restricts (called : RoutineIndex → Prop) (rule : Rule) (looped : Bool) (node : Stmt) :
    Prop where
  calls : ∀ expr ∈ node.exprs, ∀ callee ∈ expr.callees, called callee
  returns : rule.outerReturns → looped = true → node.isReturn = false
  loops : rule.outerReturns → isLoop node = true → ∀ inner ∈ node.nodes, inner.isReturn = false

theorem Restricts.inLoop {loop : Stmt} (around : Restricts called rule looped loop)
    (isLoop : isLoop loop = true) (member : node ∈ loop.nodes)
    (held : Restricts called rule looped node) : Restricts called rule true node :=
  ⟨held.calls, fun asked _ => around.loops asked isLoop node member, held.loops⟩

/-- Written code is well formed by a stricter rule, and where only what it calls is known. -/
structure Narrows (called : RoutineIndex → Prop) (placed storeless : Prop) (rule : Rule)
    (domain : Domain) (profile? : RoutineIndex → Option Profile) : Prop where
  calls : ∀ {callee profile}, domain.profile? callee = some profile → called callee →
    profile? callee = some profile
  placed : rule.placed → placed
  storeless : rule.storeless → storeless

variable (narrows : Narrows called placed storeless rule domain profile?)

include narrows

theorem Expr.Formed.narrow (held : Restricts called rule looped node)
    (formed : expr.Formed domain) (own : expr ∈ node.exprs) :
    expr.Formed (domain.calling profile?) := by
  have eases : domain.env.Eases called (domain.calling profile?).env := ⟨id, id, narrows.calls, id⟩
  exact formed.ease eases (held.calls expr own)

theorem Result.Formed.narrow {value : Option Result}
    (held : Restricts called rule looped (.giveBack value))
    (formed : Result.Formed domain value) : Result.Formed (domain.calling profile?) value := by
  match value with
  | none => exact formed
  | some (.scalar _) => exact ⟨formed.1.narrow narrows held (.head _), formed.2⟩
  | some (.array _) => exact formed

set_option linter.unusedSectionVars false in
mutual

theorem Stmt.Formed.narrow {place : Place} {stmt : Stmt} (formed : stmt.Formed domain place)
    (same : place.rule = .written placed storeless)
    (held : ∀ node ∈ stmt.nodes, Restricts called rule place.looped node) :
    stmt.Formed (domain.calling profile?) (place.under rule) := by
  have here := held _ (Stmt.self_mem_nodes _)
  obtain ⟨_, _, _, _⟩ := place
  subst same
  match stmt with
  | .assign _ _ => exact ⟨formed.1, formed.2.narrow narrows here (by simp [Stmt.exprs])⟩
  | .store _ _ _ =>
    exact ⟨⟨formed.1.1, fun asked => formed.1.2 (narrows.storeless asked)⟩,
      ⟨formed.2.1.1.narrow narrows here (by simp [Stmt.exprs]), formed.2.1.2⟩,
      formed.2.2.narrow narrows here (by simp [Stmt.exprs])⟩
  | .eval value =>
    have inner : value.Formed domain := formed
    exact inner.narrow narrows here (by simp [Stmt.exprs])
  | .branch _ _ _ =>
    exact ⟨⟨formed.1.1.narrow narrows here (by simp [Stmt.exprs]), formed.1.2⟩,
      formed.2.1.narrow rfl fun _ member => held _ (by simp [Stmt.nodes, member]),
      formed.2.2.narrow rfl fun _ member => held _ (by simp [Stmt.nodes, member])⟩
  | .whileLoop _ _ _ =>
    exact ⟨⟨formed.1.1.narrow narrows here (by simp [Stmt.exprs]), formed.1.2⟩,
      formed.2.narrow rfl fun _ member =>
        have within := by simp [Stmt.nodes, member]
        here.inLoop rfl within (held _ within)⟩
  | .forLoop _ _ =>
    exact ⟨{ formed.1 with
        start := ⟨formed.1.start.1.narrow narrows here (by simp [Stmt.exprs]), formed.1.start.2⟩
        stop := ⟨formed.1.stop.1.narrow narrows here (by simp [Stmt.exprs]), formed.1.stop.2⟩
        step := ⟨formed.1.step.1.narrow narrows here (by simp [Stmt.exprs]), formed.1.step.2⟩ },
      formed.2.narrow rfl fun _ member =>
        have within := by simp [Stmt.nodes, member]
        here.inLoop rfl within (held _ within)⟩
  | .leave => exact ⟨fun asked => formed.1 (narrows.placed asked), fun _ => formed.2 trivial⟩
  | .skip => exact fun asked => formed (narrows.placed asked)
  | .giveBack _ =>
    refine ⟨formed.1.narrow narrows here, formed.2.1, fun asked => ?_⟩
    exact Bool.eq_false_iff.2 fun inside => by cases here.returns asked inside
  | .block _ body =>
    have inner : BlockFormed domain _ body := formed
    exact inner.narrow rfl fun _ member => held _ (by simp [Stmt.nodes, member])
  | .exit _ => exact fun _ => formed trivial
  | .vector _ _ | .parallel _ _ => exact absurd trivial formed.1.2

theorem BlockFormed.narrow :
    ∀ {place : Place} {body : List Stmt}, BlockFormed domain place body →
      place.rule = .written placed storeless →
      (∀ node ∈ Stmt.blockNodes body, Restricts called rule place.looped node) →
      BlockFormed (domain.calling profile?) (place.under rule) body
  | _, [], _, _, _ => blockFormed_nil
  | _, _ :: _, formed, same, held =>
    ⟨formed.1.narrow same fun _ member => held _ (by simp [Stmt.blockNodes, member]),
      formed.2.narrow same fun _ member => held _ (by simp [Stmt.blockNodes, member])⟩

end

end Narrowing

def Body.listed? (body : Body) (callee : RoutineIndex) : Option Profile :=
  body.routines[callee]?.map Routine.profile

def Body.profile? (body : Body) (callee : RoutineIndex) : Option Profile :=
  if ∃ caller ∈ body.routines, callee ∈ caller.callees then body.listed? callee else none

end Typed

namespace Eligibility

open Interp (Program)
open Passes (ReturnsOutsideLoops Rule)
open Typed (Body BodyFormed Copying Profile Routine RoutineIndex Stmt)

variable {program : Program} {candidate : Candidate} {kinds : List Kind} {body : Body}
  {closure : Closure} {name : String} {routine : Routine}

theorem argKinds_of_stems (stems : Stems program closure name kinds routine) :
    routine.argKinds = kinds := by
  obtain ⟨_, _, _, _, _, _, _, _, _, _, _, _, _, _, _, rfl⟩ := typed_of_stems stems
  rfl

theorem lt_of_origin (stems : Stems program closure name kinds routine) {id : Nat}
    (declared : routine.locals[id]? = some decl) (origin : decl.origin = .param position) :
    id < kinds.length := by
  obtain ⟨fuel, definition, _, _, _, _, _, _, _, _, locals, _, _, given, _, rfl⟩ :=
    typed_of_stems stems
  have served : Subject.Served program ⟨program, name, specialize program fuel⟩ :=
    served_specialize fuel name
  have grows := (Subject.grows_typeBody _ served.specializes definition).ok given
  have inside := (List.getElem?_eq_some_iff.1 (grows.scope.params declared origin)).1
  rw [locals, List.length_map, List.length_zipIdx, List.length_zip] at inside
  omega

/-- The functions of a program have loops around their jumps. -/
def JumpsPlaced (program : Program) : Prop :=
  ∀ {name info}, program.function? name = some info →
    Surface.Stmt.AllEnclosed ⟨false, true⟩ info.definition.body

theorem definition_mem_functions {info : Interp.FunctionInfo}
    (found : (Program.ofModule module).function? name = some info) :
    info.definition ∈ module.functions := by
  have entered : ∀ (definitions : List Surface.FunctionDef) (table : Table Interp.FunctionInfo),
      (definitions.foldl (fun table definition => Table.set definition.name.name
        (Interp.FunctionInfo.ofDefinition definition) table) table).get? name = some info →
      table.get? name = some info ∨ info.definition ∈ definitions := by
    intro definitions
    induction definitions with
    | nil => exact fun _ => .inl
    | cons definition rest ih =>
      intro table found
      obtain before | later := ih _ found
      · rw [Table.get?_set] at before
        split at before
        · cases before
          exact .inr (.head _)
        · exact .inl before
      · exact .inr (.tail _ later)
  exact (entered module.functions [] found).resolve_left nofun

theorem jumpsPlaced_of_readModule (read : Surface.readModule source = .ok module) :
    JumpsPlaced (Program.ofModule module) :=
  fun found => Surface.enclosed_of_readModule read _ (definition_mem_functions found)

/-- What callers were told of a routine is what it is to them. -/
theorem Settled.profile (settled : Settled program closure body) {result : ReturnKind}
    (known : closure.signature? callee = some ⟨name, kinds, result⟩) :
    body.listed? callee = some ⟨kinds, result⟩ := by
  rw [Closure.signature?] at known
  split at known
  · rename_i _ other kept callee' present
    cases known
    obtain ⟨again, settles, listed⟩ := settled.routine present
    cases settles
    rw [Body.listed?, listed]
    have kinds := argKinds_of_stems (settled.sound _ _ _ present rfl)
    exact congrArg some (congrArg (Profile.mk · _) kinds)
  · cases known

theorem written_of_eligible (eligible : (analyze program candidate kinds).verdict = .eligible body)
    (listed : ∃ info, program.function? candidate.name = some info ∧ info.definition =
      candidate.definition) (member : routine ∈ body.routines) :
    ∃ closure name kinds written, Stems program closure name kinds written ∧
      routine = written.folded.2 ∧ written.Sound body.listed? (JumpsPlaced program) := by
  obtain ⟨closure, settled, _⟩ := settled_of_eligible eligible listed
  obtain ⟨index, here, rfl⟩ := List.getElem_of_mem member
  have entered := List.getElem?_eq_getElem (settled.length ▸ here)
  obtain ⟨written, progress, found⟩ := settled.routine entered
  have stems := settled.sound _ _ _ entered progress
  obtain ⟨definition, layout, compilable, _, signatures, rendition⟩ :=
    rendition_of_stems stems fun found => (settled.routine found).imp fun _ both => both.1
  obtain ⟨info, listed, rfl⟩ := compilable.found
  refine ⟨closure, _, _, written, stems, ?_, ?_⟩
  · exact Option.mem_unique (List.getElem?_eq_getElem here) found
  · exact rendition.routineSound compilable.arity (argKinds_of_stems stems)
      (fun placed => placed listed) (fun known => settled.profile (signatures ▸ known))
      (lt_of_origin stems)

/-- The rules by which eligible code is well formed before any loop is lowered. -/
def entryRules (program : Program) (body : Body) (index : RoutineIndex) : Rule where
  placed := JumpsPlaced program
  nearExits := ReturnsOutsideLoops body
  outerReturns := ReturnsOutsideLoops body ∧ (body.profile? index).isSome
  unlowered := True
  unbroken := True
  storeless := body.purity ≠ .mutatesContainer

theorem copying_entryRules : Copying body.profile? (entryRules program body) where
  copies found _ := ⟨id, id, fun asked => ⟨asked, Option.isSome_of_eq_some found⟩, id, id⟩
  calm _ := trivial

/-- What an eligible verdict carries is well formed, its entry by the stricter rules for it. -/
theorem bodyFormed_of_eligible
    (eligible : (analyze program candidate kinds).verdict = .eligible body)
    (listed : ∃ info, program.function? candidate.name = some info ∧
      info.definition = candidate.definition) :
    BodyFormed body.profile? (entryRules program body) (body.purity = .mutatesContainer) body where
  routine index := by
    by_cases inside : index < body.routines.length
    · have member : body.routine index ∈ body.routines := by simp [Body.routine, inside]
      obtain ⟨_, _, _, written, _, folded, sound⟩ := written_of_eligible eligible listed member
      have formed := folded ▸ sound.folded.formed
      have narrows : Typed.Narrows (fun callee => ∃ caller ∈ body.routines, callee ∈ caller.callees)
          (JumpsPlaced program) ((body.routine index).purity ≠ .mutatesContainer)
          (entryRules program body index) ((body.routine index).domain body.listed?)
          body.profile? :=
        ⟨fun known called => (if_pos called).trans known, id, fun silent stores =>
          silent (Body.purity_eq_mutatesContainer.2 ⟨_, member, stores⟩)⟩
      refine ⟨formed.params, formed.body.narrow narrows rfl fun node present => ?_⟩
      refine ⟨fun expr own callee calls => ?_, fun _ looped => absurd looped Bool.false_ne_true, ?_⟩
      · exact ⟨_, member, Routine.mem_callees present own calls⟩
      · rintro ⟨outside, known⟩ loop inner within
        obtain ⟨caller, among, calls⟩ : ∃ caller ∈ body.routines, index ∈ caller.callees := by
          unfold Body.profile? at known
          split at known
          · assumption
          · cases known
        have free := List.any_eq_false.1 (outside caller among index calls) node present
        rw [loop, Bool.not_eq_true] at free
        simpa using List.any_eq_false.1 free inner within
    · rw [show body.routine index = default by simp [Body.routine, inside]]
      exact Routine.formed_default
  known := by
    intro callee profile found
    unfold Body.profile? at found
    split at found
    · obtain ⟨routine, present, rfl⟩ := Option.map_eq_some_iff.1 found
      refine ⟨(List.getElem?_eq_some_iff.1 present).1, ?_⟩
      rw [Body.routine, List.getD_eq_getElem?_getD, present]
      rfl
    · cases found
  effects := id

/-- The rules by which it is well formed before and after any run of the passes. -/
def runRules (body : Body) (index : RoutineIndex) : Rule where
  placed := True
  nearExits := ReturnsOutsideLoops body
  outerReturns := ReturnsOutsideLoops body ∧ (body.profile? index).isSome
  unlowered := False
  unbroken := False
  storeless := body.purity ≠ .mutatesContainer

theorem copying_runRules : Copying body.profile? (runRules body) where
  copies found _ := ⟨id, id, fun asked => ⟨asked, Option.isSome_of_eq_some found⟩, id, id⟩
  calm := False.elim

theorem bodyFormed_of_placed (eligible : (analyze program candidate kinds).verdict = .eligible body)
    (listed : ∃ info, program.function? candidate.name = some info ∧
      info.definition = candidate.definition) (placed : JumpsPlaced program) :
    BodyFormed body.profile? (runRules body) (body.purity = .mutatesContainer) body :=
  (bodyFormed_of_eligible eligible listed).weaken fun _ =>
    ⟨fun _ => placed, id, id, False.elim, False.elim, id⟩

end Eligibility
end TwoTier
