namespace TwoTier

/-- A half-open range of byte offsets into the UTF-8 form of a text. -/
structure Span where
  start : Nat
  stop : Nat
deriving DecidableEq, Repr, Inhabited

namespace Span

def text (span : Span) : String :=
  toString span.start ++ ".." ++ toString span.stop

def synthetic : Span := ⟨4294967295, 4294967295⟩

/-- The characters of a text that begin in a span, when the text itself begins at `offset`. -/
def sliceFrom (span : Span) (offset : Nat) : List Char → List Char
  | [] => []
  | c :: rest =>
    if span.stop ≤ offset then []
    else if span.start ≤ offset then c :: span.sliceFrom (offset + c.utf8Size) rest
    else span.sliceFrom (offset + c.utf8Size) rest

def slice (span : Span) (chars : List Char) : List Char := span.sliceFrom 0 chars

end Span

/-- Offsets at which the lines of a text begin, first line first. -/
structure LineTable where
  starts : Array Nat

namespace LineTable

private def lineStartsFrom (offset : Nat) : List Char → List Nat
  | [] => []
  | c :: rest =>
    let next := offset + c.utf8Size
    if c = '\n' then next :: lineStartsFrom next rest else lineStartsFrom next rest

def ofChars (chars : List Char) : LineTable := ⟨(0 :: lineStartsFrom 0 chars).toArray⟩

/-- The number of lines that begin by an offset, known to be at least `low` and at most `high`. -/
def linesUpTo (table : LineTable) (offset low high : Nat) : Nat :=
  if low < high then
    let middle := (low + high) / 2
    if table.starts.getD middle 0 ≤ offset then table.linesUpTo offset (middle + 1) high
    else table.linesUpTo offset low middle
  else low
termination_by high - low

def line (table : LineTable) (offset : Nat) : Nat :=
  max 1 (table.linesUpTo offset 0 table.starts.size)

def lineStart (table : LineTable) (line : Nat) : Nat := table.starts.getD (line - 1) 0

def count (table : LineTable) : Nat := table.starts.size

end LineTable
end TwoTier
