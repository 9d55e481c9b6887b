import TwoTier.Proofs.Token.Tiling

namespace TwoTier.Token

open Text (size)

def columnAt (chars : List Char) (offset : Nat) : UInt32 :=
  Text.column (Span.slice ⟨0, offset⟩ chars)

theorem columnAt_size (before rest : List Char) :
    columnAt (before ++ rest) (size before) = Text.column before :=
  congrArg Text.column (sliceFrom_taken .refl (Nat.zero_add _).symm)

theorem length_sliceFrom_le (span : Span) (offset : Nat) (chars : List Char) :
    (span.sliceFrom offset chars).length ≤ chars.length := by
  fun_induction Span.sliceFrom <;> simp <;> omega

/-- In a text of less than half a gigabyte no column wraps. -/
theorem toNat_columnAt (short : 8 * size chars < UInt32.size) (offset : Nat) :
    (columnAt chars offset).toNat = Text.plainColumn (Span.slice ⟨0, offset⟩ chars) := by
  have taken := length_sliceFrom_le ⟨0, offset⟩ 0 chars
  have sized := Text.length_le_size chars
  exact Text.toNat_column (by unfold Span.slice; omega)

def count (kind : Kind) (tokens : List Token) : Nat := tokens.countP (·.kind = kind)

/-- The depth of blocks after some tokens, unless they close more blocks than are open. -/
def depthAfter? : Nat → List Token → Option Nat
  | depth, [] => some depth
  | depth, token :: rest =>
    if token.kind = .indent then depthAfter? (depth + 1) rest
    else if token.kind = .dedent then if depth = 0 then none else depthAfter? (depth - 1) rest
    else depthAfter? depth rest

theorem depthAfter?_append (depth : Nat) (first second : List Token) :
    depthAfter? depth (first ++ second) =
      (depthAfter? depth first).bind (depthAfter? · second) := by
  fun_induction depthAfter? depth first <;> simp_all [depthAfter?]

theorem counts_of_depthAfter? {tokens : List Token} (ends : depthAfter? depth tokens = some last) :
    count .dedent tokens + last = depth + count .indent tokens := by
  fun_induction depthAfter? depth tokens <;> simp_all [count] <;> omega

/-- The logical lines of a stream, each with the depth of blocks at its first token. -/
def logicalLines : Nat → Bool → List Token → List (Nat × Token)
  | _, _, [] => []
  | depth, fresh, token :: rest =>
    match token.kind with
    | .indent => logicalLines (depth + 1) fresh rest
    | .dedent => logicalLines (depth - 1) fresh rest
    | .newline => logicalLines depth true rest
    | .comment | .eof => logicalLines depth fresh rest
    | _ => if fresh then (depth, token) :: logicalLines depth false rest
      else logicalLines depth false rest

/-- Lines against the columns of the blocks that are open before them, the outermost first: a line
is in the column of its block until a line is less deep, and so are two lines. -/
structure Aligned (chars : List Char) (columns : List UInt32) (lines : List (Nat × Token)) : Prop where
  first : ∀ between depth token rest column, lines = between ++ (depth, token) :: rest →
    (∀ line ∈ between, line.2.kind ≠ .error → depth ≤ line.1) → token.kind ≠ .error →
      columns[depth]? = some column → columnAt chars token.span.start = column
  alike : ∀ outer depth one between other rest,
    lines = outer ++ (depth, one) :: (between ++ (depth, other) :: rest) →
    (∀ line ∈ between, line.2.kind ≠ .error → depth ≤ line.1) → one.kind ≠ .error →
      other.kind ≠ .error → columnAt chars one.span.start = columnAt chars other.span.start

theorem Aligned.nil : Aligned chars columns [] := ⟨by simp, by simp⟩

theorem Aligned.cons {columns after : List UInt32}
    (agree : ∀ depth column, (token.kind ≠ .error → depth ≤ here) → columns[depth]? = some column →
      after[depth]? = some column)
    (stands : token.kind ≠ .error → after[here]? = some (columnAt chars token.span.start))
    (aligned : Aligned chars after lines) : Aligned chars columns ((here, token) :: lines) where
  first between depth other rest column same deep plain opened := by
    cases between with
    | nil =>
      cases same
      have kept := agree _ _ (fun _ => Nat.le_refl _) opened
      rw [stands plain] at kept
      exact Option.some.inj kept
    | cons line between =>
      cases same
      obtain ⟨near, deep⟩ := List.forall_mem_cons.1 deep
      exact aligned.first between depth other rest column rfl deep plain (agree _ _ near opened)
  alike outer depth one between other rest same deep plain plainToo := by
    cases outer with
    | nil =>
      cases same
      exact (aligned.first between here other rest _ rfl deep plainToo (stands plain)).symm
    | cons line outer =>
      cases same
      exact aligned.alike outer depth one between other rest rfl deep plain plainToo

structure Layout.Sound (layout : Layout) : Prop where
  increasing : layout.columns.Pairwise (· > ·)
  bottom : 0 ∈ layout.columns
  joined : layout.fresh = true → layout.brackets = 0

theorem close_eq (column : UInt32) (columns : List UInt32) :
    ∃ popped, columns = popped ++ (Layout.close column columns).1 ∧
      popped.length = (Layout.close column columns).2 ∧ (∀ other ∈ popped, column < other) ∧
      ∀ top ∈ (Layout.close column columns).1.head?, top ≤ column := by
  fun_induction Layout.close column columns with
  | case1 => exact ⟨[], rfl, rfl, nofun, nofun⟩
  | case2 top rest deeper left closed found ih =>
    obtain ⟨popped, split, length, above, below⟩ := ih
    rw [found] at split length below
    exact ⟨top :: popped, by simp [split], by simp [length], by simpa using ⟨deeper, above⟩, below⟩
  | case3 top rest shallow => exact ⟨[], rfl, rfl, nofun, by simpa using shallow⟩

/-- What the start of a logical line does to the open blocks, and the tokens that tell. -/
inductive Begins (column : UInt32) (columns : List UInt32) : List UInt32 → Stream → Prop
  | indent {span : Span} : columns.headD 0 < column →
      Begins column columns (column :: columns) (.token .indent span "")
  | dedent {span : Span} : columns = popped ++ left → (∀ other ∈ popped, column < other) →
      left.headD 0 = column →
      Begins column columns left ⟨List.replicate popped.length ⟨.dedent, span, ""⟩, []⟩
  | astray {span : Span} : columns = popped ++ left → (∀ other ∈ popped, column < other) →
      left.headD 0 < column →
      Begins column columns (column :: left)
        (⟨List.replicate popped.length ⟨.dedent, span, ""⟩, []⟩ ++ .misread .inconsistentDedent span)

theorem begins_indent (layout : Layout) (column : UInt32) (span : Span) :
    Begins column layout.columns (layout.indent column span).1.columns
      (layout.indent column span).2 := by
  obtain ⟨popped, split, length, above, below⟩ := close_eq column layout.columns
  unfold Layout.indent
  split
  · rename_i deeper
    exact .indent deeper
  · dsimp only
    rw [← length]
    split
    · rename_i same
      exact .dedent split above same
    · rename_i differs
      refine .astray split above ?_
      cases left : (Layout.close column layout.columns).1 with
      | nil =>
        rw [left] at differs
        exact UInt32.pos_iff_ne_zero.2 (Ne.symm differs)
      | cons top rest =>
        rw [left] at differs below
        exact UInt32.lt_of_le_of_ne (below top rfl) differs

theorem increasing_cons {columns : List UInt32} (increasing : columns.Pairwise (· > ·))
    (deeper : columns.headD 0 < column) : (column :: columns).Pairwise (· > ·) := by
  refine List.pairwise_cons.2 ⟨fun other member => ?_, increasing⟩
  cases columns with
  | nil => cases member
  | cons top rest =>
    obtain _ | ⟨_, inside⟩ := member
    · exact deeper
    · exact UInt32.lt_trans ((List.pairwise_cons.1 increasing).1 other inside) deeper

theorem left_ne_nil {popped left : List UInt32} (bottom : 0 ∈ popped ++ left)
    (above : ∀ other ∈ popped, column < other) : 0 ∈ left :=
  (List.mem_append.1 bottom).resolve_left fun member => UInt32.not_lt_zero (above 0 member)

theorem Begins.sound {output : Stream} (begins : Begins column columns after output)
    (increasing : columns.Pairwise (· > ·)) (bottom : 0 ∈ columns) :
    after.Pairwise (· > ·) ∧ 0 ∈ after := by
  cases begins with
  | indent deeper => exact ⟨increasing_cons increasing deeper, .tail _ bottom⟩
  | dedent split above _ =>
    subst split
    exact ⟨(List.pairwise_append.1 increasing).2.1, left_ne_nil bottom above⟩
  | astray split above deeper =>
    subst split
    exact ⟨increasing_cons (List.pairwise_append.1 increasing).2.1 deeper,
      List.mem_cons_of_mem _ (left_ne_nil bottom above)⟩

section Plain

variable {kind : Kind} (plain : kind.isLayout = false)

include plain

theorem logicalLines_token (noComment : kind ≠ .comment) {span : Span} {rest : List Token} :
    logicalLines depth fresh (⟨kind, span, text⟩ :: rest) =
      if fresh then (depth, ⟨kind, span, text⟩) :: logicalLines depth false rest
      else logicalLines depth false rest := by
  rw [logicalLines]
  split <;> simp_all [Kind.isLayout]

theorem depthAfter?_token {span : Span} {rest : List Token} :
    depthAfter? depth (⟨kind, span, text⟩ :: rest) = depthAfter? depth rest := by
  rw [depthAfter?]
  split
  · simp_all [Kind.isLayout]
  · split
    · simp_all [Kind.isLayout]
    · rfl

end Plain

theorem after_dedents (closed depth : Nat) (fresh : Bool) (span : Span) (rest : List Token) :
    depthAfter? (closed + depth) (List.replicate closed ⟨.dedent, span, ""⟩ ++ rest) =
        depthAfter? depth rest ∧
      logicalLines (closed + depth) fresh (List.replicate closed ⟨.dedent, span, ""⟩ ++ rest) =
        logicalLines depth fresh rest := by
  induction closed with
  | zero => simp
  | succ closed ih =>
    simp [List.replicate_succ, depthAfter?, logicalLines, ih]

theorem Begins.moves {output : Stream} (begins : Begins column columns after output)
    (bottom : 0 ∈ columns) (steady : ∀ misread ∈ output.misreads, misread.fault ≠ .inconsistentDedent) :
    (∀ fresh rest,
      depthAfter? (columns.length - 1) (output.tokens ++ rest) = depthAfter? (after.length - 1) rest ∧
      logicalLines (columns.length - 1) fresh (output.tokens ++ rest) =
        logicalLines (after.length - 1) fresh rest) ∧
    after.reverse[after.length - 1]? = some column ∧
    ∀ depth ≤ after.length - 1, ∀ found, columns.reverse[depth]? = some found →
      after.reverse[depth]? = some found := by
  cases begins with
  | indent deeper =>
    have positive := List.length_pos_of_mem bottom
    refine ⟨fun fresh rest => ?_, by simp, fun depth _ found open_ => ?_⟩
    · have more : columns.length - 1 + 1 = columns.length := by omega
      simp [Stream.token, depthAfter?, logicalLines, more]
    · rw [List.reverse_cons, List.getElem?_append_left (List.getElem?_eq_some_iff.1 open_).1, open_]
  | @dedent popped left span split above same =>
    subst split
    have inside := left_ne_nil bottom above
    have positive := List.length_pos_of_mem inside
    refine ⟨fun fresh rest => ?_, ?_, fun depth shallow found open_ => ?_⟩
    · have depth : (popped ++ after).length - 1 = popped.length + (after.length - 1) := by
        simp only [List.length_append]
        omega
      rw [depth]
      exact after_dedents _ _ _ _ _
    · cases after with
      | nil => cases inside
      | cons top rest =>
        cases same
        simp
    · rwa [List.reverse_append, List.getElem?_append_left (by simp; omega)] at open_
  | astray => exact absurd rfl (steady ⟨.inconsistentDedent, _⟩ (List.mem_singleton.2 rfl))

theorem fresh_indent (layout : Layout) (column : UInt32) (span : Span) :
    (layout.indent column span).1.fresh = false := by
  unfold Layout.indent
  repeat' split
  all_goals rfl

/-- A line begins where one has yet to begin, and nowhere else. -/
theorem beginLine_eq {layout : Layout} (sound : layout.Sound) (cursor : Cursor) :
    layout.beginLine cursor =
      if layout.fresh then layout.indent cursor.column ⟨cursor.lineStart, cursor.offset⟩
      else (layout, .empty) := by
  unfold Layout.beginLine
  cases fresh : layout.fresh with
  | false => rfl
  | true => simp [sound.joined fresh]

theorem Step.sound (step : Step before layout taken after output) (sound : layout.Sound) :
    after.Sound := by
  cases step with
  | join | comment => exact sound
  | endLine _ flat _ => exact ⟨sound.increasing, sound.bottom, fun _ => flat⟩
  | misread => exact ⟨sound.increasing, sound.bottom, nofun⟩
  | @token _ cursor _ _ _ _ _ _ _ _ columns fresh _ =>
    rw [beginLine_eq sound] at columns fresh
    cases begins : layout.fresh with
    | false =>
      simp only [begins, Bool.false_eq_true, ↓reduceIte] at columns fresh
      exact ⟨columns ▸ sound.increasing, columns ▸ sound.bottom, by simp [fresh]⟩
    | true =>
      simp only [begins, ↓reduceIte, fresh_indent] at columns fresh
      obtain ⟨increasing, bottom⟩ :=
        (begins_indent layout cursor.column ⟨cursor.lineStart, cursor.offset⟩).sound
          sound.increasing sound.bottom
      exact ⟨columns ▸ increasing, columns ▸ bottom, by simp [fresh]⟩

/-- Unless a dedent is inconsistent, indents and dedents balance and every line starts at the column
of its block. -/
theorem Streams.aligned {output : Stream} (streams : Streams before chars layout output)
    (sound : layout.Sound)
    (steady : ∀ misread ∈ output.misreads, misread.fault ≠ .inconsistentDedent) :
    depthAfter? (layout.columns.length - 1) output.tokens = some 0 ∧
      Aligned (before ++ chars) layout.columns.reverse
        (logicalLines (layout.columns.length - 1) layout.fresh output.tokens) := by
  induction streams with
  | @finish chars before layout gap =>
    have closes (fresh : Bool) (span : Span) :=
      after_dedents (layout.columns.length - 1) 0 fresh span [⟨.eof, span, ""⟩]
    have empty (fresh : Bool) (span : Span) : logicalLines 0 fresh [⟨.eof, span, ""⟩] = [] := rfl
    unfold Layout.finish
    cases layout.fresh with
    | true | false =>
      obtain ⟨depth, lines⟩ := closes true ⟨size (before ++ chars), size (before ++ chars)⟩
      exact ⟨depth, (lines.trans (empty _ _)) ▸ .nil⟩
  | @step gap taken before layout after output rest later skips nonempty step _ ih =>
    obtain ⟨quiet, steady⟩ := List.forall_mem_append.1 steady
    obtain ⟨depth, aligned⟩ := ih (step.sound sound) steady
    have whole : before ++ (gap ++ taken ++ rest) = before ++ gap ++ taken ++ rest := by simp
    rw [whole, tokens_append]
    cases step with
    | join | comment | endLine => exact ⟨depth, aligned⟩
    | misread =>
      refine ⟨depth, ?_⟩
      cases layout.fresh with
      | true => exact .cons (fun _ _ _ open_ => open_) (fun plain => absurd rfl plain) aligned
      | false => exact aligned
    | @token text cursor _ kind _ behind plain noComment noError _ columns fresh _ =>
      rw [columns, fresh, beginLine_eq sound] at aligned
      rw [columns, beginLine_eq sound] at depth
      rw [beginLine_eq sound] at quiet ⊢
      cases begins : layout.fresh with
      | false =>
        simp only [begins, Bool.false_eq_true, ↓reduceIte] at aligned depth ⊢
        refine ⟨(depthAfter?_token plain).trans depth, ?_⟩
        exact (logicalLines_token plain noComment).symm ▸ aligned
      | true =>
        simp only [begins, ↓reduceIte, fresh_indent] at aligned depth quiet ⊢
        obtain ⟨moves, stands, agree⟩ :=
          (begins_indent layout cursor.column ⟨cursor.lineStart, cursor.offset⟩).moves sound.bottom
            fun misread member => quiet misread (List.mem_append_left _ member)
        rw [tokens_append, List.append_assoc, (moves true _).1, (moves true _).2]
        refine ⟨(depthAfter?_token plain).trans depth, ?_⟩
        refine (logicalLines_token plain noComment).symm ▸ .cons ?_ (fun _ => ?_) aligned
        · exact fun depth found shallow => agree depth (shallow noError) found
        · rw [stands, behind.column, List.append_assoc, columnAt_size]

/-- Between two lexemes of a text the cursor and the layout are these. -/
inductive Visits (source : String) : Cursor → Layout → Prop
  | start : Visits source (.ofChars source.toList) .initial
  | next (cursor : Cursor) : Visits source cursor layout →
      (cursor.skip (blankLength cursor.rest)).rest = first :: rest →
      reading = read (cursor.skip (blankLength cursor.rest)) first rest layout →
      Visits source ((cursor.skip (blankLength cursor.rest)).skip (reading.extra + 1)) reading.layout

theorem sound_initial : Layout.initial.Sound := ⟨by simp [Layout.initial], by decide, fun _ => rfl⟩

theorem Visits.sound {cursor : Cursor} (visits : Visits source cursor layout) :
    layout.Sound ∧ ∃ before, cursor.Behind before := by
  induction visits with
  | start => exact ⟨sound_initial, [], rfl, rfl⟩
  | next cursor _ found same ih =>
    obtain ⟨sound, before, behind⟩ := ih
    subst same
    have here := behind.skip (blankLength cursor.rest)
    exact ⟨(step_read here found _).sound sound, _, here.skip _⟩

/-- Where no line is dedented to a column that no block has, indents and dedents are balanced, the
columns of open blocks increase inwards, and two lines of a depth stand in one column unless a line
between them is less deep. Columns are those of the unbounded count unless the text is huge. -/
theorem stream_indents (source : String)
    (steady : ∀ misread ∈ (stream source).misreads, misread.fault ≠ .inconsistentDedent) :
    (∀ first, first <+: (stream source).tokens → count .dedent first ≤ count .indent first) ∧
    count .dedent (stream source).tokens = count .indent (stream source).tokens ∧
    (∀ cursor layout, Visits source cursor layout → layout.columns.Pairwise (· > ·)) ∧
    (∀ outer depth one between other rest, logicalLines 0 true (stream source).tokens =
        outer ++ (depth, one) :: (between ++ (depth, other) :: rest) →
      (∀ line ∈ between, line.2.kind ≠ .error → depth ≤ line.1) →
      one.kind ≠ .error → other.kind ≠ .error →
        columnAt source.toList one.span.start = columnAt source.toList other.span.start) ∧
    (8 * size source.toList < UInt32.size → ∀ offset, (columnAt source.toList offset).toNat =
      Text.plainColumn (Span.slice ⟨0, offset⟩ source.toList)) := by
  obtain ⟨depth, aligned⟩ := (streams_stream source).aligned sound_initial steady
  refine ⟨fun first begins => ?_, ?_, fun cursor layout visits => visits.sound.1.increasing,
    aligned.alike, toNat_columnAt⟩
  · obtain ⟨second, split⟩ := begins
    rw [← split, depthAfter?_append] at depth
    obtain ⟨last, runs, -⟩ := Option.bind_eq_some_iff.1 depth
    have := counts_of_depthAfter? runs
    simp only [Layout.initial, List.length_cons, List.length_nil] at this
    omega
  · have := counts_of_depthAfter? depth
    simp only [Layout.initial, List.length_cons, List.length_nil] at this
    omega

/-- A block with a blank line, a deeper block, an error and a joined line in it. -/
theorem stream_indents_nested :
    (∀ misread ∈ (stream "if a:\n    b\n\n    if c:\n\td\n    ?\n  \\\n    e\nf\n").misreads,
      misread.fault ≠ .inconsistentDedent) ∧
    count .dedent (stream "if a:\n    b\n\n    if c:\n\td\n    ?\n  \\\n    e\nf\n").tokens =
      count .indent (stream "if a:\n    b\n\n    if c:\n\td\n    ?\n  \\\n    e\nf\n").tokens := by
  have steady : ∀ misread ∈
      (stream "if a:\n    b\n\n    if c:\n\td\n    ?\n  \\\n    e\nf\n").misreads,
      misread.fault ≠ .inconsistentDedent := by
    decide +kernel
  exact ⟨steady, (stream_indents _ steady).2.1⟩

end TwoTier.Token
