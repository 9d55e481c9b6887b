import TwoTier.Passes.Chunking
import TwoTier.Passes.CountedLoop
import TwoTier.Passes.Invariant
import TwoTier.Passes.Lanes
import TwoTier.Typed.Folding

namespace TwoTier.Passes

open Typed

/-- A body under optimization with the reports so far. -/
structure Progress where
  body : Body
  report : Report

namespace Progress

def apply (progress : Progress) (pass : Pass) (index : RoutineIndex)
    (run : Routine → Notes × Routine) : Progress :=
  let routine := progress.body.routine index
  let (notes, changed) := run routine
  ⟨progress.body.setRoutine index changed, progress.report.record pass routine.name notes⟩

def record (progress : Progress) (pass : Pass) (index : RoutineIndex) (notes : Notes) : Progress :=
  { progress with
    report := progress.report.record pass (progress.body.routine index).name notes }

def fold (progress : Progress) (index : RoutineIndex) : Progress :=
  progress.apply .fold index fun routine =>
    let (count, routine) := routine.folded
    (if count > 0 then .applying (toString count ++ " nodes folded") else {}, routine)

def inline (budget : Budget) (progress : Progress) (index : RoutineIndex) : Progress :=
  let name := (progress.body.routine index).name
  let (notes, body) := inlineRounds index budget budget.settings.inlineDepth progress.body
  ⟨body, progress.report.record .inline name notes⟩

/-- A pass that needs a directive and a body within the budget. -/
def lower (progress : Progress) (wanted : Bool) (pass : Pass) (index : RoutineIndex)
    (run : Routine → Notes × Routine) : Progress :=
  if !wanted then progress
  else if progress.report.overBudget then
    progress.record pass index (.skipping "over the node budget")
  else progress.apply pass index run

def lowerLoops (budget : Budget) (progress : Progress) (index : RoutineIndex) : Progress :=
  let directives := (progress.body.routine index).directives
  let progress := progress.apply .normalize index countLoops
  let progress := progress.apply .licm index hoistInvariants
  let progress := progress.lower directives.parallel .parallel index chunkLoops
  progress.lower directives.simd .simd index (splitLanes budget.settings.vectorWidth)

def inlineAll (budget : Budget) (size : Nat) (progress : Progress) : Progress :=
  if progress.report.overBudget then
    progress.record .inline 0 (.skipping ("body has " ++ toString size ++
      " nodes, over the budget of " ++ toString budget.nodeBudget))
  else progress.body.reachable.foldl (inline budget) progress

def announceHot (budget : Budget) (progress : Progress) : Progress :=
  if budget.hot then
    progress.record .hot 0 (.applying ("budget raised to " ++ toString budget.nodeBudget ++
      " nodes, inline cap to " ++ toString budget.inlineCap))
  else progress

end Progress

/-- Optimizes a body. Loops are lowered only in routines that are still called. -/
def optimize (settings : Settings) (body : Body) : Report × Body :=
  let budget : Budget := ⟨settings, body.root.directives.hot⟩
  let size := body.nodeCount
  let overBudget := size > budget.nodeBudget
  let progress := body.reachable.foldl Progress.fold ⟨body, { overBudget }⟩
  let progress := progress.inlineAll budget size
  let progress := progress.body.reachable.foldl (Progress.lowerLoops budget) progress
  let progress := progress.announceHot budget
  (progress.report, progress.body)

end TwoTier.Passes
