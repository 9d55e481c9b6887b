import TwoTier.Text.Blank

namespace TwoTier

inductive Directive where
  /-- compile before the first call and without a size budget -/
  | hot
  /-- expand this function in its callers -/
  | inline
  /-- split loops over vector lanes -/
  | simd
  /-- split loops over chunks of their range -/
  | parallel
  /-- always interpret -/
  | noCompile
deriving DecidableEq, Repr

namespace Directive

def name : Directive → String
  | hot => "hot"
  | inline => "inline"
  | simd => "simd"
  | parallel => "parallel"
  | noCompile => "no-compile"

def all : List Directive := [hot, inline, simd, parallel, noCompile]

def ofName? (text : String) : Option Directive := all.find? (·.name == text)

/-- What introduces a directive on a line. -/
def marker : List Char := "#adrenaline:".toList

/-- The word after the marker on a documentation line. -/
def nameOnLine? (line : List Char) : Option String :=
  let trimmed := Text.trim line
  let bare :=
    match trimmed with
    | '#' :: rest =>
      if marker.isPrefixOf (Text.trimStart rest) then Text.trimStart rest else trimmed
    | _ => trimmed
  match (Text.dropLead? marker bare).map Text.firstWord with
  | none | some [] => none
  | some word => some (String.ofList word)

end Directive

structure DirectiveSet where
  hot : Bool := false
  inline : Bool := false
  simd : Bool := false
  parallel : Bool := false
  noCompile : Bool := false
deriving DecidableEq, Repr, Inhabited

namespace DirectiveSet

def contains (set : DirectiveSet) : Directive → Bool
  | .hot => set.hot
  | .inline => set.inline
  | .simd => set.simd
  | .parallel => set.parallel
  | .noCompile => set.noCompile

def insert (set : DirectiveSet) : Directive → DirectiveSet
  | .hot => { set with hot := true }
  | .inline => { set with inline := true }
  | .simd => { set with simd := true }
  | .parallel => { set with parallel := true }
  | .noCompile => { set with noCompile := true }

def ofList (directives : List Directive) : DirectiveSet := directives.foldl insert {}

def toList (set : DirectiveSet) : List Directive := Directive.all.filter set.contains

def text (set : DirectiveSet) : String :=
  "\x7b" ++ ", ".intercalate (set.toList.map (·.name)) ++ "\x7d"

def shouldCompile (set : DirectiveSet) : Bool := !set.noCompile

end DirectiveSet

structure Guidance where
  directives : DirectiveSet
  /-- names that are no directive, each once -/
  unknown : List String
  /-- directives that gave way to the one against compiling -/
  overridden : List Directive
deriving DecidableEq, Repr

namespace Guidance

def hasConflict (guidance : Guidance) : Bool := !guidance.overridden.isEmpty

/-- Scans documentation line by line. The directive against compiling overrides all others. -/
def ofText (text : String) : Guidance :=
  let names := (Text.lines text.toList).filterMap Directive.nameOnLine?
  let found := DirectiveSet.ofList (names.filterMap Directive.ofName?)
  let unknown := (names.filter fun name => (Directive.ofName? name).isNone).eraseDups
  if found.noCompile then
    { directives := { noCompile := true }, unknown
      overridden := found.toList.filter (· ≠ .noCompile) }
  else { directives := found, unknown, overridden := [] }

end Guidance
end TwoTier
