import TwoTier.Interp.Render
import TwoTier.Proofs.Token.Tiling

/-! What `repr` writes for a string is read back as that string. -/

namespace TwoTier.Token

open Interp (Heap quoted)

def escaped (c : Char) : List Char :=
  if c = '\\' then ['\\', '\\'] else if c = '\'' then ['\\', '\''] else [c]

theorem toList_quoted (text : String) :
    (quoted text).toList = '\'' :: (text.toList.flatMap escaped ++ ['\'']) := by
  have same : escaped = fun c =>
    if c = '\\' then ['\\', '\\'] else if c = '\'' then ['\\', '\''] else [c] := rfl
  simp [quoted, same]

/-- Escapes are undone one character at a time, up to the quote at the end. -/
theorem body_escaped {chars : List Char} (single : '\n' ∉ chars) :
    StringStyle.body ⟨'\'', false, false⟩ (chars.flatMap escaped ++ ['\'']) =
      ⟨chars, (chars.flatMap escaped).length + 1, true⟩ := by
  induction chars with
  | nil => rfl
  | cons c rest ih =>
    obtain ⟨here, later⟩ := not_or.1 (mt List.mem_cons.2 single)
    have read := ih later
    by_cases backslash : c = '\\'
    · subst backslash
      simp [escaped, StringStyle.body, read, StringBody.prepend, unescape]
    by_cases quote : c = '\''
    · subst quote
      simp [escaped, StringStyle.body, read, StringBody.prepend, unescape]
    simp [escaped, StringStyle.body, read, StringBody.prepend, backslash, quote, Ne.symm here]

/-- A quote that is written is escaped, so no written string begins with three of them. -/
theorem not_triple_escaped (chars : List Char) :
    ['\'', '\''].isPrefixOf (chars.flatMap escaped ++ ['\'']) = false := by
  cases chars with
  | nil => rfl
  | cons c rest =>
    rw [List.flatMap_cons, escaped]
    split
    · rfl
    · split
      · rfl
      · rename_i other
        simp [List.isPrefixOf, Ne.symm other]

theorem streamFrom_nil {cursor : Cursor} (ended : cursor.rest = []) (layout : Layout) :
    streamFrom cursor layout = layout.finish cursor.offset := by
  have stays : cursor.skip (blankLength cursor.rest) = cursor := by rw [ended]; rfl
  rw [streamFrom]
  rw [stays]
  split
  · rfl
  · rename_i found
    cases ended.symm.trans found

theorem streamFrom_cons {cursor : Cursor} (here : cursor.rest = first :: rest)
    (dense : blankLength cursor.rest = 0) (layout : Layout) :
    streamFrom cursor layout = (read cursor first rest layout).output ++
      streamFrom (cursor.skip ((read cursor first rest layout).extra + 1))
        (read cursor first rest layout).layout := by
  have stays : cursor.skip (blankLength cursor.rest) = cursor := by rw [dense]; rfl
  rw [streamFrom]
  rw [stays]
  split
  · rename_i found
    cases here.symm.trans found
  · rename_i found
    cases here.symm.trans found
    rfl

theorem offset_skip_length (chars : List Char) :
    ((Cursor.ofChars chars).skip chars.length).offset = Text.size chars := by
  have start : (Cursor.ofChars chars).Behind [] := ⟨rfl, rfl⟩
  rw [(start.skip _).offset, List.nil_append, Cursor.ofChars, List.take_length]

theorem read_quoted {text : String} (single : '\n' ∉ text.toList) :
    read (.ofChars (quoted text).toList) '\'' (text.toList.flatMap escaped ++ ['\'']) .initial =
      ⟨(text.toList.flatMap escaped).length + 1, ⟨[0], 0, false⟩,
        .token .string ⟨0, Text.size (quoted text).toList⟩ text⟩ := by
  have opened : ((Cursor.ofChars (quoted text).toList).skip 1).rest =
      text.toList.flatMap escaped ++ ['\''] := by
    rw [toList_quoted]
    rfl
  have length : 1 + ((text.toList.flatMap escaped).length + 1) = (quoted text).toList.length := by
    simp [toList_quoted, Nat.add_comm]
  have reads : readString (.ofChars (quoted text).toList) ['\''] '\'' =
      ((text.toList.flatMap escaped).length + 1,
        .token .string ⟨0, Text.size (quoted text).toList⟩ text) := by
    simp only [readString, List.length_singleton, opened, not_triple_escaped, Bool.false_eq_true,
      ↓reduceIte, Nat.add_zero]
    have unmarked : (['\''].any fun c => c = 'r' || c = 'R') = false := by decide
    rw [unmarked, body_escaped single]
    simp only [length, offset_skip_length, String.ofList_toList]
    rw [← length, Nat.add_sub_cancel_left]
    rfl
  rw [read, show scanLexeme '\'' _ = .opening ['\''] '\'' from rfl]
  dsimp only
  rw [reads]
  rfl

/-- The text that `repr` gives for a string without a line feed is one string token with the string
as its content, and nothing in it is misread. -/
theorem stream_repr (heap : Heap) (text : String) (single : '\n' ∉ text.toList) :
    let size := Text.size (heap.repr (.str text)).toList
    stream (heap.repr (.str text)) =
      ⟨[⟨.string, ⟨0, size⟩, text⟩, ⟨.newline, ⟨size, size⟩, "\n"⟩, ⟨.eof, ⟨size, size⟩, ""⟩], []⟩ := by
  have written : heap.repr (.str text) = quoted text := rfl
  have here : (Cursor.ofChars (quoted text).toList).rest = _ := toList_quoted text
  have length : (text.toList.flatMap escaped).length + 1 + 1 = (quoted text).toList.length := by
    simp [toList_quoted]
  have ended : ((Cursor.ofChars (quoted text).toList).skip (quoted text).toList.length).rest = [] := by
    rw [Cursor.rest_skip]
    exact List.drop_length
  rw [written, stream, streamFrom_cons here (by rw [here]; rfl), read_quoted single, length,
    streamFrom_nil ended, offset_skip_length]
  rfl

/-- A string with both kinds of quote that ends in a backslash. -/
theorem stream_repr_backslash :
    '\n' ∉ "it's \"\\".toList ∧
      (stream (Heap.empty.repr (.str "it's \"\\"))).tokens.map (·.lexeme) =
        ["it's \"\\", "\n", ""] := by
  have single : '\n' ∉ "it's \"\\".toList := by decide
  exact ⟨single, by rw [stream_repr .empty _ single]; rfl⟩

end TwoTier.Token
