import TwoTier.Token.Stream

/-! The tokens of a text tile it. -/

namespace TwoTier.Text

def size : List Char → Nat
  | [] => 0
  | c :: rest => c.utf8Size + size rest

@[simp] theorem size_nil : size [] = 0 := rfl

@[simp] theorem size_cons : size (c :: chars) = c.utf8Size + size chars := rfl

@[simp] theorem size_append : size (first ++ second) = size first + size second := by
  induction first with
  | nil => simp
  | cons c first ih => simp [ih, Nat.add_assoc]

theorem size_pos (nonempty : chars ≠ []) : 0 < size chars := by
  cases chars with
  | nil => exact absurd rfl nonempty
  | cons c rest =>
    have := c.utf8Size_pos
    simp only [size_cons]
    omega

/-- An offset at which a character of a text begins, or the text ends. -/
def Boundary (chars : List Char) (offset : Nat) : Prop :=
  ∃ before, before <+: chars ∧ size before = offset

theorem Boundary.le_size (boundary : Boundary chars offset) : offset ≤ size chars := by
  obtain ⟨before, ⟨after, rfl⟩, rfl⟩ := boundary
  simp

/-- The column behind a character. -/
def after (column : UInt32) (c : Char) : UInt32 :=
  if c = '\n' then 0 else Cursor.nextColumn column c

def column (chars : List Char) : UInt32 := chars.foldl after 0

/-- The column behind a character, without a bound. -/
def plainAfter (column : Nat) (c : Char) : Nat :=
  if c = '\n' then 0
  else if c = '\t' then (column / tabWidth.toNat + 1) * tabWidth.toNat else column + 1

def plainColumn (chars : List Char) : Nat := chars.foldl plainAfter 0

theorem length_le_size (chars : List Char) : chars.length ≤ size chars := by
  induction chars with
  | nil => exact Nat.zero_le _
  | cons c chars ih =>
    have := c.utf8Size_pos
    rw [List.length_cons, size_cons]
    omega

theorem toNat_after {column : UInt32} (short : column.toNat + 8 < UInt32.size) (c : Char) :
    (after column c).toNat = plainAfter column.toNat c ∧
      plainAfter column.toNat c ≤ column.toNat + 8 := by
  have width : tabWidth.toNat = 8 := rfl
  have bound : UInt32.size = 4294967296 := rfl
  unfold after plainAfter Cursor.nextColumn
  repeat' split
  · exact ⟨rfl, Nat.zero_le _⟩
  · rw [UInt32.toNat_mul, UInt32.toNat_add, UInt32.toNat_div, width, UInt32.toNat_one]
    omega
  · rw [UInt32.toNat_add, UInt32.toNat_one]
    omega

theorem toNat_foldl_after {chars : List Char} {column : UInt32}
    (short : column.toNat + 8 * chars.length < UInt32.size) :
    (chars.foldl after column).toNat = chars.foldl plainAfter column.toNat := by
  induction chars generalizing column with
  | nil => rfl
  | cons c chars ih =>
    rw [List.length_cons] at short
    obtain ⟨same, near⟩ := toNat_after (show column.toNat + 8 < UInt32.size by omega) c
    rw [List.foldl_cons, List.foldl_cons, ← same]
    exact ih (by omega)

/-- A character takes at most eight columns, so the count does not wrap in a short text. -/
theorem toNat_column {chars : List Char} (short : 8 * chars.length < UInt32.size) :
    (column chars).toNat = plainColumn chars :=
  toNat_foldl_after (by simpa using short)

end TwoTier.Text

namespace TwoTier

open Text (size column Boundary)

def Span.Holds (span : Span) (offset : Nat) : Prop := span.start ≤ offset ∧ offset < span.stop

theorem sliceFrom_taken {span : Span} (begun : span.start ≤ offset)
    (stops : span.stop = offset + size taken) :
    span.sliceFrom offset (taken ++ rest) = taken := by
  induction taken generalizing offset with
  | nil => cases rest <;> simp_all [Span.sliceFrom]
  | cons c taken ih =>
    have := c.utf8Size_pos
    rw [Text.size_cons] at stops
    rw [List.cons_append, Span.sliceFrom, if_neg (by omega), if_pos begun, ih (by omega) (by omega)]

/-- Behind the cursor are these characters. -/
structure Cursor.Behind (before : List Char) (cursor : Cursor) : Prop where
  offset : cursor.offset = size before
  column : cursor.column = Text.column before

theorem Cursor.Behind.skip (count : Nat) {cursor : Cursor} (behind : cursor.Behind before) :
    (cursor.skip count).Behind (before ++ cursor.rest.take count) := by
  induction count generalizing cursor before with
  | zero => simpa [Cursor.skip] using behind
  | succ count ih =>
    obtain ⟨chars, offset, lineStart, column⟩ := cursor
    have measured : offset = size before := behind.offset
    have stands : column = Text.column before := behind.column
    cases chars with
    | nil => simpa [Cursor.skip] using behind
    | cons c chars =>
      rw [List.take_succ_cons, List.append_cons, Cursor.skip]
      by_cases newline : c = '\n'
      · simp only [newline]
        exact @ih _ ⟨chars, _, _, _⟩ ⟨by simp [measured], by simp [Text.column, Text.after]⟩
      · simp only [newline]
        exact @ih _ ⟨chars, _, _, _⟩
          ⟨by simp [measured], by simp [Text.column, Text.after, newline, stands]⟩

namespace Token

/-- What can stand between tokens, in its smallest pieces. -/
def skippable : List (List Char) :=
  [[' '], ['\t'], ['\x0c'], ['\n'], ['\r', '\n'], ['\\', '\n'], ['\\', '\r', '\n']]

/-- A character between these others belongs to a piece that tokens need not cover. -/
def Skipped (before : List Char) (c : Char) (after : List Char) : Prop :=
  ∃ piece ∈ skippable, ∃ first last, piece = first ++ c :: last ∧ first <:+ before ∧ last <+: after

/-- Text made of pieces that tokens need not cover. -/
inductive Gap : List Char → Prop
  | nil : Gap []
  | append (piece : List Char) : piece ∈ skippable → Gap rest → Gap (piece ++ rest)

theorem Gap.skipped {gap : List Char} (skips : Gap gap) (same : gap = first ++ c :: last) :
    Skipped (before ++ first) c (last ++ after) := by
  induction skips generalizing first before with
  | nil => simp at same
  | append piece member skips ih =>
    obtain ⟨middle, rfl, inner⟩ | ⟨middle, rfl, inner⟩ := List.append_eq_append_iff.1 same
    · have found := @ih _ (before ++ piece) inner
      rwa [List.append_assoc] at found
    · cases middle with
      | nil =>
        have found := @ih [] (before ++ first) inner.symm
        simpa using found
      | cons d others =>
        cases inner
        exact ⟨_, member, first, others, rfl, List.suffix_append _ _,
          List.append_assoc _ _ _ ▸ List.prefix_append _ _⟩

theorem gap_blanks (chars : List Char) : Gap (chars.take (blankLength chars)) := by
  fun_induction blankLength chars with
  | case1 rest ih => exact .append [' '] (by decide) ih
  | case2 rest ih => exact .append ['\t'] (by decide) ih
  | case3 rest ih => exact .append ['\x0c'] (by decide) ih
  | case4 rest ih => exact .append ['\\', '\n'] (by decide) ih
  | case5 rest ih => exact .append ['\\', '\r', '\n'] (by decide) ih
  | case6 => exact .nil

/-- How tokens of a kind are written. -/
def Kind.Spells : Kind → List Char → Prop
  | .newline, taken => taken = ['\n'] ∨ taken = ['\r', '\n']
  | .keyword word, taken => taken = word.spelling.toList
  | .indent, _ | .dedent, _ | .eof, _ => False
  | _, _ => True

def Lexeme.Takes (chars : List Char) : Lexeme → Prop
  | .whole kind taken => taken ≠ [] ∧ taken <+: chars ∧ kind.Spells taken
  | .opening taken _ => taken ≠ [] ∧ taken <+: chars

theorem exponentPart_begins (chars : List Char) : exponentPart chars <+: chars := by
  unfold exponentPart
  repeat' split
  all_goals simp only [List.cons_prefix_cons, true_and, List.nil_prefix, List.takeWhile_prefix]

theorem run_begins {class_ : Char → Bool} (follows : more <+: List.dropWhile class_ chars) :
    List.takeWhile class_ chars ++ more <+: chars := by
  obtain ⟨rest, split⟩ := follows
  exact ⟨rest, by rw [List.append_assoc, split, List.takeWhile_append_dropWhile]⟩

theorem takes_scanNumber (first : Char) (rest : List Char) :
    (scanNumber first rest).Takes (first :: rest) := by
  unfold scanNumber
  dsimp only
  split
  · rename_i lexeme based
    split at based
    · obtain ⟨radix, _, found⟩ := Option.bind_eq_some_iff.1 based
      split at found
      · cases found
      · cases found
        simp [Lexeme.Takes, Kind.Spells, List.takeWhile_prefix]
    · cases based
  · split
    · rename_i after found
      refine ⟨by simp, List.cons_prefix_cons.2 ⟨rfl, run_begins ?_⟩, trivial⟩
      rw [found, List.cons_prefix_cons]
      exact ⟨rfl, run_begins (exponentPart_begins _)⟩
    · split
      · exact ⟨by simp, by simp [ List.takeWhile_prefix], trivial⟩
      · exact ⟨by simp, List.cons_prefix_cons.2 ⟨rfl, run_begins (exponentPart_begins _)⟩, trivial⟩

theorem takes_scanWord (first : Char) (rest : List Char) :
    (scanWord first rest).Takes (first :: rest) := by
  have ident : Lexeme.Takes (first :: rest)
      (.whole .ident (first :: rest.takeWhile isIdentPart)) := by
    simp [Lexeme.Takes, Kind.Spells, List.takeWhile_prefix]
  have reserved (word : Keyword)
      (found : Keyword.ofSpelling? (String.ofList (first :: rest.takeWhile isIdentPart)) = some word) :
      Lexeme.Takes (first :: rest)
        (.whole (.keyword word) (first :: rest.takeWhile isIdentPart)) := by
    have spelled := List.find?_some found
    rw [beq_iff_eq] at spelled
    simp [Lexeme.Takes, Kind.Spells, spelled, List.takeWhile_prefix]
  unfold scanWord
  dsimp only
  split
  · rename_i quote after opened
    split
    · refine ⟨by simp, List.cons_prefix_cons.2 ⟨rfl, run_begins ?_⟩⟩
      simp [opened]
    · split
      · exact reserved _ ‹_›
      · exact ident
  · split
    · exact reserved _ ‹_›
    · exact ident

theorem takes_scanSymbol? {found : Lexeme} (scanned : scanSymbol? chars = some found) :
    found.Takes chars := by
  obtain ⟨mark, listed, rfl⟩ := Option.map_eq_some_iff.1 scanned
  have begins := List.find?_some listed
  refine ⟨?_, List.isPrefixOf_iff_prefix.1 begins, trivial⟩
  cases mark <;> decide

theorem takes_scanLexeme (first : Char) (rest : List Char) :
    (scanLexeme first rest).Takes (first :: rest) := by
  unfold scanLexeme
  split
  · exact takes_scanWord first rest
  split
  · exact takes_scanNumber first rest
  split
  · exact ⟨by simp, by simp⟩
  split
  · exact ⟨by simp, by simp [ List.takeWhile_prefix], trivial⟩
  split
  · rename_i newline
    exact ⟨by simp, by simp, .inl (by rw [newline])⟩
  split
  · exact ⟨by simp, by simp, .inr rfl⟩
  · split
    · refine ⟨by simp, ?_, trivial⟩
      simp only [List.cons_prefix_cons, true_and]
      exact run_begins (exponentPart_begins _)
    · exact ⟨by simp, by simp, trivial⟩
  · cases found : scanSymbol? (first :: rest) with
    | none => exact ⟨by simp, by simp, trivial⟩
    | some lexeme => exact takes_scanSymbol? found

/-- What reading at a place of a text takes, the layout after it and what comes of it. -/
inductive Step (before : List Char) (layout : Layout) : List Char → Layout → Stream → Prop
  | join : Kind.Spells .newline taken → 0 < layout.brackets ∨ layout.fresh = true →
      Step before layout taken layout .empty
  | endLine {span : Span} : Kind.Spells .newline taken → layout.brackets = 0 →
      layout.fresh = false →
      Step before layout taken { layout with fresh := true } (.token .newline span text)
  | misread {span : Span} : Step before layout taken { layout with fresh := false }
      (.token .error ⟨size before, size (before ++ taken)⟩ text ++
        .misread .unexpectedCharacter span)
  | comment : Step before layout taken layout
      (.token .comment ⟨size before, size (before ++ taken)⟩ text)
  | token {cursor : Cursor} {after : Layout} {kind : Kind} {problems : List Misread} :
      cursor.Behind before → kind.isLayout = false → kind ≠ .comment → kind ≠ .error →
      kind.Spells taken → after.columns = (layout.beginLine cursor).1.columns →
      after.fresh = (layout.beginLine cursor).1.fresh →
      (∀ problem ∈ problems, problem.fault ≠ .inconsistentDedent) →
      Step before layout taken after ((layout.beginLine cursor).2 ++
        ⟨[⟨kind, ⟨size before, size (before ++ taken)⟩, text⟩], problems⟩)

theorem columns_countBracket (kind : Kind) (layout : Layout) :
    (layout.countBracket kind).columns = layout.columns ∧
      (layout.countBracket kind).fresh = layout.fresh := by
  unfold Layout.countBracket
  repeat' split
  all_goals exact ⟨rfl, rfl⟩

theorem readString_eq (cursor : Cursor) (nonempty : taken ≠ []) (quote : Char) :
    ∃ count text problems, 0 < count ∧ readString cursor taken quote =
        (count - 1, ⟨[⟨.string, ⟨cursor.offset, (cursor.skip count).offset⟩, text⟩], problems⟩) ∧
      ∀ problem ∈ problems, problem.fault ≠ .inconsistentDedent := by
  have some_ := List.length_pos_iff.2 nonempty
  unfold readString
  extract_lets _ _ style lead body count span output
  by_cases closed : body.closed = true <;> simp only [closed]
  · exact ⟨count, _, [], by omega, rfl, nofun⟩
  · exact ⟨count, _, _, by omega, rfl, by simp [output, Stream.token, Stream.misread]⟩

theorem step_read {cursor : Cursor} (behind : cursor.Behind before)
    (here : cursor.rest = first :: rest) (layout : Layout) :
    Step before layout (cursor.rest.take ((read cursor first rest layout).extra + 1))
      (read cursor first rest layout).layout (read cursor first rest layout).output := by
  have takes := takes_scanLexeme first rest
  have span (count : Nat) : (⟨cursor.offset, (cursor.skip count).offset⟩ : Span) =
      ⟨size before, size (before ++ cursor.rest.take count)⟩ := by
    rw [behind.offset, (behind.skip count).offset]
  unfold read
  split
  · rename_i taken quote scanned
    rw [scanned] at takes
    obtain ⟨count, text, problems, positive, reads, harmless⟩ := readString_eq cursor takes.1 quote
    rw [reads, span]
    rw [Nat.sub_add_cancel positive]
    exact .token behind rfl nofun nofun trivial rfl rfl harmless
  · rename_i kind taken scanned
    rw [scanned, ← here] at takes
    obtain ⟨nonempty, begins, spells⟩ := takes
    have whole : cursor.rest.take taken.length = taken := (List.prefix_iff_eq_take.1 begins).symm
    rw [span]
    have taking : taken.length - 1 + 1 = taken.length :=
      Nat.sub_add_cancel (List.length_pos_iff.2 nonempty)
    split
    · rw [taking]
      exact .misread
    · split
      · rename_i joined
        rw [taking, whole]
        exact .join spells (by simpa using joined)
      · rename_i ended
        rw [taking, whole]
        simp only [Bool.or_eq_true, decide_eq_true_eq, not_or, Bool.not_eq_true] at ended
        exact .endLine spells (UInt32.le_zero_iff.1 (UInt32.not_lt.1 ended.1)) ended.2
    · rw [taking]
      exact .comment
    · rename_i noError noNewline noComment
      rw [taking, whole]
      have counted := columns_countBracket kind (layout.beginLine cursor).1
      refine .token behind ?_ noComment noError spells counted.1 counted.2 nofun
      cases kind <;> first | rfl | exact absurd rfl noNewline | exact spells.elim

/-- What becomes of a text with the given characters before it. -/
inductive Streams : List Char → List Char → Layout → Stream → Prop
  | finish : Gap chars → Streams before chars layout (layout.finish (size (before ++ chars)))
  | step : Gap gap → taken ≠ [] → Step (before ++ gap) layout taken after output →
      Streams (before ++ gap ++ taken) rest after later →
      Streams before (gap ++ taken ++ rest) layout (output ++ later)

theorem streams_streamFrom {cursor : Cursor} (behind : cursor.Behind before) (layout : Layout) :
    Streams before cursor.rest layout (streamFrom cursor layout) := by
  fun_induction streamFrom cursor layout generalizing before with
  | case1 cursor layout start =>
    rename_i ended
    have blank := gap_blanks cursor.rest
    have all : cursor.rest.take (blankLength cursor.rest) = cursor.rest := by
      rw [Cursor.rest_skip] at ended
      exact List.take_of_length_le (List.drop_eq_nil_iff.1 ended)
    have there := (behind.skip (blankLength cursor.rest)).offset
    rw [all] at blank there
    rw [there]
    exact .finish blank
  | case2 cursor layout start first rest found reading =>
    rename_i ih
    have at_ := behind.skip (blankLength cursor.rest)
    have step := step_read at_ found layout
    have text : cursor.rest = cursor.rest.take (blankLength cursor.rest) ++
        start.rest.take (reading.extra + 1) ++ (start.skip (reading.extra + 1)).rest := by
      rw [Cursor.rest_skip (reading.extra + 1), List.append_assoc, List.take_append_drop,
        Cursor.rest_skip, List.take_append_drop]
    rw [text]
    exact .step (gap_blanks _) (by rw [found]; simp) step (ih (at_.skip _))

theorem streams_stream (source : String) :
    Streams [] source.toList .initial (stream source) :=
  have start : (Cursor.ofChars source.toList).Behind [] := ⟨rfl, rfl⟩
  streams_streamFrom start _

/-- The tokens that stand for text. -/
def significant (tokens : List Token) : List Token := tokens.filter (!·.kind.isLayout)

def Stands (chars : List Char) (token : Token) : Prop :=
  ∃ before taken after, chars = before ++ taken ++ after ∧ taken ≠ [] ∧ token.kind.Spells taken ∧
    token.span = ⟨size before, size (before ++ taken)⟩

theorem Stands.nonempty (stands : Stands chars token) : token.span.start < token.span.stop := by
  obtain ⟨before, taken, after, rfl, nonempty, -, span⟩ := stands
  have := Text.size_pos nonempty
  simp only [span, Text.size_append]
  omega

theorem Stands.boundaries (stands : Stands chars token) :
    Boundary chars token.span.start ∧ Boundary chars token.span.stop := by
  obtain ⟨before, taken, after, rfl, -, -, span⟩ := stands
  rw [span]
  exact ⟨⟨before, by simp, rfl⟩, before ++ taken, by simp, rfl⟩

@[simp] theorem significant_append :
    significant (first ++ second) = significant first ++ significant second :=
  List.filter_append ..

theorem tokens_append (first second : Stream) :
    (first ++ second).tokens = first.tokens ++ second.tokens := rfl

theorem layout_of_indent (layout : Layout) (column : UInt32) (span : Span) :
    ∀ token ∈ (layout.indent column span).2.tokens,
      token.kind = .indent ∨ token.kind = .dedent := by
  unfold Layout.indent
  split
  · simp [Stream.token]
  · dsimp only
    split <;> simp +contextual [tokens_append, Stream.misread]

theorem layout_of_beginLine (layout : Layout) (cursor : Cursor) :
    ∀ token ∈ (layout.beginLine cursor).2.tokens, token.kind = .indent ∨ token.kind = .dedent := by
  unfold Layout.beginLine
  split
  · exact layout_of_indent _ _ _
  · simp [Stream.empty]

/-- A step gives no token that stands for text, or one that stands for all it takes. -/
theorem Step.significant (step : Step before layout taken after output) :
    (∀ token ∈ output.tokens, token.kind ≠ .eof) ∧
    ((significant output.tokens = [] ∧ taken ∈ skippable) ∨
      ∃ token, significant output.tokens = [token] ∧ token.kind.Spells taken ∧
        token.span = ⟨size before, size (before ++ taken)⟩) := by
  cases step with
  | join spells _ =>
    refine ⟨nofun, .inl ⟨rfl, ?_⟩⟩
    obtain rfl | rfl := spells <;> decide
  | endLine spells _ _ =>
    refine ⟨by simp [Stream.token], .inl ⟨rfl, ?_⟩⟩
    obtain rfl | rfl := spells <;> decide
  | misread => exact ⟨by simp [tokens_append, Stream.token, Stream.misread],
      .inr ⟨_, rfl, trivial, rfl⟩⟩
  | comment => exact ⟨by simp [Stream.token], .inr ⟨_, rfl, trivial, rfl⟩⟩
  | @token text cursor _ kind _ behind plain _ _ spells =>
    have leads := layout_of_beginLine layout cursor
    have ending : kind ≠ .eof := by
      rintro rfl
      cases plain
    refine ⟨fun token member => ?_, .inr ⟨⟨kind, _, text⟩, ?_, spells, rfl⟩⟩
    · obtain lead | single := List.mem_append.1 member
      · obtain same | same := leads token lead <;> rw [same] <;> nofun
      · rw [List.mem_singleton.1 single]
        exact ending
    · rw [tokens_append, significant_append]
      have none_ : Token.significant (layout.beginLine cursor).2.tokens = [] := by
        refine List.filter_eq_nil_iff.2 fun token member => ?_
        obtain same | same := leads token member <;> rw [same] <;> decide
      rw [none_, Token.significant, List.filter_cons_of_pos (by simpa using plain)]
      rfl

/-- How tokens lie in a text that has these characters before it. -/
structure Tiled (before chars : List Char) (tokens : List Token) : Prop where
  stands : ∀ token ∈ tokens, Stands (before ++ chars) token
  later : ∀ token ∈ tokens, size before ≤ token.span.start
  ordered : tokens.Pairwise fun first second => first.span.stop ≤ second.span.start
  covered : ∀ first c last, chars = first ++ c :: last →
    (∀ token ∈ tokens, ¬ token.span.Holds (size (before ++ first))) → Skipped (before ++ first) c last

theorem Tiled.nil : Tiled before [] [] := ⟨nofun, nofun, .nil, by simp⟩

variable {tokens : List Token}

/-- A character that no token covers is in the tiled text or in the part before it. -/
theorem Tiled.split {part : List Char}
    (tiled : Tiled (before ++ part) rest tokens) (same : part ++ rest = first ++ c :: last)
    (free : ∀ token ∈ tokens, ¬ token.span.Holds (size (before ++ first))) :
    Skipped (before ++ first) c last ∨
      ∃ others, part = first ++ c :: others ∧ last = others ++ rest := by
  obtain ⟨middle, rfl, inner⟩ | ⟨middle, rfl, inner⟩ := List.append_eq_append_iff.1 same
  · rw [← List.append_assoc] at free ⊢
    exact .inl (tiled.covered middle c last inner free)
  · cases middle with
    | nil =>
      rw [List.append_nil] at tiled
      have found := tiled.covered [] c last inner.symm
      rw [List.append_nil] at found
      exact .inl (found free)
    | cons d others =>
      cases inner
      exact .inr ⟨others, rfl, rfl⟩

theorem Tiled.gap {gap : List Char} (skips : Gap gap)
    (tiled : Tiled (before ++ gap) rest tokens) : Tiled before (gap ++ rest) tokens where
  stands := List.append_assoc before gap rest ▸ tiled.stands
  later token member := by
    have := tiled.later token member
    rw [Text.size_append] at this
    omega
  ordered := tiled.ordered
  covered first c last same free := by
    obtain done | ⟨others, rfl, rfl⟩ := tiled.split same free
    · exact done
    · exact skips.skipped rfl

theorem Tiled.cons (nonempty : taken ≠ []) (spells : token.kind.Spells taken)
    (span : token.span = ⟨size before, size (before ++ taken)⟩)
    (tiled : Tiled (before ++ taken) rest tokens) : Tiled before (taken ++ rest) (token :: tokens) where
  stands := List.forall_mem_cons.2 ⟨⟨before, taken, rest, by simp, nonempty, spells, span⟩,
    List.append_assoc before taken rest ▸ tiled.stands⟩
  later := List.forall_mem_cons.2 ⟨by simp [span], fun token member => by
    have := tiled.later token member
    rw [Text.size_append] at this
    omega⟩
  ordered := List.pairwise_cons.2 ⟨fun token member => by
    rw [span]
    exact tiled.later token member, tiled.ordered⟩
  covered first c last same free := by
    obtain ⟨here, free⟩ := List.forall_mem_cons.1 free
    obtain done | ⟨others, rfl, rfl⟩ := tiled.split same free
    · exact done
    · refine absurd ?_ here
      have := c.utf8Size_pos
      simp only [Span.Holds, span, Text.size_append, Text.size_cons]
      omega

theorem gap_of_mem {piece : List Char} (member : piece ∈ skippable) : Gap piece :=
  List.append_nil piece ▸ .append piece member .nil

theorem tokens_finish (layout : Layout) (offset : Nat) :
    ∃ init eof, (layout.finish offset).tokens = init ++ [eof] ∧ eof.kind = .eof ∧
      ∀ token ∈ init, token.kind ≠ .eof ∧ token.kind.isLayout = true := by
  refine ⟨_, _, rfl, rfl, ?_⟩
  intro token member
  obtain lineEnd | dedent := List.mem_append.1 member
  · split at lineEnd
    · cases lineEnd
    · rw [List.mem_singleton.1 lineEnd]
      exact ⟨nofun, rfl⟩
  · rw [List.eq_of_mem_replicate dedent]
    exact ⟨nofun, rfl⟩

/-- The tokens that stand for text cover it in order, and the end comes last and once. -/
theorem Streams.tiled {output : Stream} (streams : Streams before chars layout output) :
    Tiled before chars (significant output.tokens) ∧
      ∃ init eof, output.tokens = init ++ [eof] ∧ eof.kind = .eof ∧
        ∀ token ∈ init, token.kind ≠ .eof := by
  induction streams with
  | @finish chars before layout gap =>
    obtain ⟨init, eof, tokens, ends, others⟩ := tokens_finish layout (size (before ++ chars))
    have none_ : Token.significant (layout.finish (size (before ++ chars))).tokens = [] := by
      refine List.filter_eq_nil_iff.2 fun token member => ?_
      rw [tokens] at member
      obtain inside | last := List.mem_append.1 member
      · simp [(others token inside).2]
      · rw [List.mem_singleton.1 last, ends]
        decide
    refine ⟨?_, init, eof, tokens, ends, fun token member => (others token member).1⟩
    rw [none_]
    exact List.append_nil chars ▸ .gap gap .nil
  | step skips nonempty step _ ih =>
    obtain ⟨running, gives⟩ := step.significant
    obtain ⟨tiled, init, eof, ends, last, others⟩ := ih
    refine ⟨?_, _, eof, ?_, last, List.forall_mem_append.2 ⟨running, others⟩⟩
    · rw [tokens_append, significant_append, List.append_assoc]
      refine .gap skips ?_
      obtain ⟨none_, skipped⟩ | ⟨token, single, spells, span⟩ := gives
      · rw [none_]
        exact .gap (gap_of_mem skipped) tiled
      · rw [single]
        exact .cons nonempty spells span tiled
    · rw [tokens_append, ends, List.append_assoc]

/-- The tokens of a text that are not layout are not empty, lie in it on the boundaries of its
characters and one behind the other; what they do not cover is blank space, line breaks and joined
lines; and the last token, and no other, is the end of the text. -/
theorem stream_tiles (source : String) :
    (∀ token ∈ significant (stream source).tokens, token.span.start < token.span.stop ∧
      token.span.stop ≤ size source.toList ∧ Boundary source.toList token.span.start ∧
        Boundary source.toList token.span.stop) ∧
    ((significant (stream source).tokens).Pairwise fun first second =>
      first.span.stop ≤ second.span.start) ∧
    (∀ before c after, source.toList = before ++ c :: after →
      (∀ token ∈ significant (stream source).tokens, ¬ token.span.Holds (size before)) →
        Skipped before c after) ∧
    ∃ init eof, (stream source).tokens = init ++ [eof] ∧ eof.kind = .eof ∧
      ∀ token ∈ init, token.kind ≠ .eof := by
  obtain ⟨tiled, ended⟩ := (streams_stream source).tiled
  refine ⟨fun token member => ?_, tiled.ordered, tiled.covered, ended⟩
  have stands : Stands source.toList token := tiled.stands token member
  obtain ⟨starts, stops⟩ := stands.boundaries
  exact ⟨stands.nonempty, stops.le_size, starts, stops⟩

end Token
end TwoTier
