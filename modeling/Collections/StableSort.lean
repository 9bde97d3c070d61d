import Collections.StableSort.Merge
import Collections.StableSort.Run

set_option autoImplicit false

namespace Collections.StableSort

-- A length of sixty-four and more is halved until it is below; one makes up for what is cut off.
def shortestWithin (length dropped : Nat) : Nat :=
  if length < 64 then length + dropped else shortestWithin (length / 2) (max dropped (length % 2))
termination_by length

def shortestRun (length : Nat) : Nat := shortestWithin length 0

inductive Site where
  | last
  | beforeLast

def Site.ofNeighbours (last third : Nat) : Site := if third < last then .beforeLast else .last

/--
The merge that keeps the lengths of pending runs, last first, in balance: every run longer than the
next two together, and longer than the next one.
-/
def unbalanced? : List Nat → Option Site
  | last :: previous :: third :: fourth :: _ =>
      if third ≤ previous + last ∨ fourth ≤ third + previous then some (.ofNeighbours last third)
      else if previous ≤ last then some .last
      else none
  | [last, previous, third] =>
      if third ≤ previous + last then some (.ofNeighbours last third)
      else if previous ≤ last then some .last
      else none
  | [last, previous] => if previous ≤ last then some .last else none
  | _ => none

def pending? : List Nat → Option Site
  | last :: _ :: third :: _ => some (.ofNeighbours last third)
  | [_, _] => some .last
  | _ => none

variable {α : Type} {m : Type → Type} [Monad m]

@[specialize]
def collapse (below : α → α → m Bool) (site? : List Nat → Option Site) (threshold : Nat)
    (runs : List (Array α)) : m (List (Array α) × Nat) :=
  match site? (runs.map Array.size), runs with
  | some .last, last :: previous :: rest => do
      let (merged, threshold) ← mergeRuns below threshold previous.toList last.toList
      collapse below site? threshold (merged.toArray :: rest)
  | some .beforeLast, last :: previous :: third :: rest => do
      let (merged, threshold) ← mergeRuns below threshold third.toList previous.toList
      collapse below site? threshold (last :: merged.toArray :: rest)
  | _, runs => return (runs, threshold)
termination_by runs.length

@[specialize]
def sortRuns (below : α → α → m Bool) (shortest threshold : Nat) (runs : List (Array α))
    (items : List α) : m (List α) :=
  match items with
  | [] => do
      let (runs, _) ← collapse below pending? threshold runs
      return (runs.reverse.map Array.toList).flatten
  | first :: rest => do
      let (descending, natural) ← measureRun below (first :: rest)
      let length := if natural < shortest then min shortest (rest.length + 1) else natural
      let run ← sortRun below descending natural (first :: rest.take (length - 1))
      let (runs, threshold) ← collapse below unbalanced? threshold (run :: runs)
      sortRuns below shortest threshold runs (rest.drop (length - 1))
termination_by items.length
decreasing_by
  simp only [List.length_drop, List.length_cons]
  omega

@[specialize]
def sort (below : α → α → m Bool) (items : List α) : m (List α) :=
  sortRuns below (shortestRun items.length) worthwhile [] items

end Collections.StableSort
