/-! A reading position in a text. -/

namespace TwoTier

/-- Columns are counted from zero, in 32 bits; a tab moves to the next multiple of this width. -/
def tabWidth : UInt32 := 8

structure Cursor where
  rest : List Char
  offset : Nat
  lineStart : Nat
  column : UInt32

namespace Cursor

def ofChars (chars : List Char) : Cursor := ⟨chars, 0, 0, 0⟩

def nextColumn (column : UInt32) (c : Char) : UInt32 :=
  if c = '\t' then (column / tabWidth + 1) * tabWidth else column + 1

/-- Moves past `count` characters, or to the end of the text if fewer remain. -/
def skip : Nat → Cursor → Cursor
  | 0, cursor => cursor
  | count + 1, cursor =>
    match cursor.rest with
    | [] => cursor
    | c :: rest =>
      let offset := cursor.offset + c.utf8Size
      if c = '\n' then skip count ⟨rest, offset, offset, 0⟩
      else skip count ⟨rest, offset, cursor.lineStart, nextColumn cursor.column c⟩

theorem rest_skip (count : Nat) (cursor : Cursor) :
    (cursor.skip count).rest = cursor.rest.drop count := by
  induction count generalizing cursor with
  | zero => rfl
  | succ count ih =>
    rcases cursor with ⟨rest, offset, lineStart, column⟩
    cases rest with
    | nil => rfl
    | cons c rest => by_cases newline : c = '\n' <;> simp [skip, newline, ih]

end Cursor
end TwoTier
