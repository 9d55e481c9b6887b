import TwoTier.Sorted

namespace TwoTier.Text

/-- Ranges of the Unicode property White_Space. -/
def blankRanges : List (Nat × Nat) :=
  [(0x9, 0xd), (0x20, 0x20), (0x85, 0x85), (0xa0, 0xa0), (0x1680, 0x1680), (0x2000, 0x200a),
    (0x2028, 0x2029), (0x202f, 0x202f), (0x205f, 0x205f), (0x3000, 0x3000)]

def isBlank (c : Char) : Bool := blankRanges.any fun (low, high) => low ≤ c.toNat && c.toNat ≤ high

def trimStart (chars : List Char) : List Char := chars.dropWhile isBlank

def trimEnd (chars : List Char) : List Char := (chars.reverse.dropWhile isBlank).reverse

def trim (chars : List Char) : List Char := trimEnd (trimStart chars)

/-- The characters up to the first blank, after the blanks at the front. -/
def firstWord (chars : List Char) : List Char := (trimStart chars).takeWhile (!isBlank ·)

def lines (chars : List Char) : List (List Char) :=
  chars.foldr
    (fun c pieces =>
      match pieces with
      | [] => [[c]]
      | line :: rest => if c = '\n' then [] :: line :: rest else (c :: line) :: rest)
    [[]]

def dropLead? (lead chars : List Char) : Option (List Char) :=
  if lead.isPrefixOf chars then some (chars.drop lead.length) else none

/-- Names without repetition, in the order of their code points. -/
def sortedNames (names : List String) : List String :=
  Sorted.sort (fun a b => decide ¬ b < a) names.eraseDups

end TwoTier.Text
