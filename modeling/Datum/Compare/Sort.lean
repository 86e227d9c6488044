import Datum.Compare.Merge

/-!
# Sorting

A stable sort by an order that may fail. Ascending runs are taken from the front as they stand, and
strictly descending ones are reversed; a short run is filled up by inserting the items after it.
Runs wait until the lengths of those after them call for a merge.
-/

set_option autoImplicit false

namespace Datum.Compare

variable {α : Type}

/-- The items that go on a run that ends in `last`, and the others; `down` tells its direction. -/
def spanRun (order : α → α → Outcome Ordering) (down : Bool) :
    α → List α → Outcome (List α × List α)
  | _, [] => .ok ([], [])
  | last, a :: rest => do
    if ((← order a last) == .lt) == down then
      let (run, others) ← spanRun order down a rest
      return (a :: run, others)
    else return ([], a :: rest)

def firstRun (order : α → α → Outcome Ordering) : List α → Outcome (List α × List α)
  | [] => .ok ([], [])
  | [a] => .ok ([a], [])
  | a :: b :: rest => do
    let down := (← order b a) == .lt
    let (run, others) ← spanRun order down b rest
    return (if down then (a :: b :: run).reverse else a :: b :: run, others)

def insert (order : α → α → Outcome Ordering) (sorted : List α) (item : α) :
    Outcome (List α) := do
  let n ← bisect .front (fun a => do return (← order item a) != .lt) sorted (sorted.length + 1) 0
    sorted.length
  return sorted.take n ++ item :: sorted.drop n

/-- The length up to which runs of a list are filled: a list of fewer than 64 items is one run, and
longer lists are cut into runs of 32 to 64. -/
def leastRun (length : Nat) : Nat :=
  if length < 64 then length
  else
    let unit := Nat.pow 2 (length.log2 - 5)
    (length + unit - 1) / unit

/-- Whether three runs or the one before them are out of proportion: each has to be longer than the
next two together. -/
def isUnbalanced (before : List (List α)) (a b c : List α) : Bool :=
  a.length ≤ b.length + c.length
    || (match before with
      | [] => false
      | z :: _ => z.length ≤ a.length + b.length)

def balance (order : α → α → Outcome Ordering) :
    Nat → Nat → List (List α) → Outcome (Nat × List (List α))
  | fuel + 1, patience, c :: b :: a :: before => do
    if isUnbalanced before a b c && a.length < c.length then
      let (patience, run) ← merge order patience a b
      balance order fuel patience (c :: run :: before)
    else if isUnbalanced before a b c || b.length ≤ c.length then
      let (patience, run) ← merge order patience b c
      balance order fuel patience (run :: a :: before)
    else return (patience, c :: b :: a :: before)
  | _, patience, [c, b] => do
    if b.length ≤ c.length then
      let (patience, run) ← merge order patience b c
      return (patience, [run])
    else return (patience, [c, b])
  | _, patience, runs => .ok (patience, runs)

/-- Merges all waiting runs, the latest first; of three, the shorter outer one goes first. -/
def mergeAll (order : α → α → Outcome Ordering) :
    Nat → Nat → List (List α) → Outcome (List α)
  | fuel + 1, patience, c :: b :: a :: before => do
    if a.length < c.length then
      let (patience, run) ← merge order patience a b
      mergeAll order fuel patience (c :: run :: before)
    else
      let (patience, run) ← merge order patience b c
      mergeAll order fuel patience (run :: a :: before)
  | _, patience, [c, b] => do return (← merge order patience b c).2
  | _, _, runs => .ok runs.reverse.flatten

def sortRuns (order : α → α → Outcome Ordering) (least : Nat) :
    Nat → Nat → List (List α) → List α → Outcome (List α)
  | fuel + 1, patience, runs, a :: rest => do
    let (run, others) ← firstRun order (a :: rest)
    let missing := least - run.length
    let run ← (others.take missing).foldlM (insert order) run
    let (patience, runs) ← balance order (runs.length + 1) patience (run :: runs)
    sortRuns order least fuel patience runs (others.drop missing)
  | _, patience, runs, _ => mergeAll order runs.length patience runs

/-- The items in order, equal ones in their old order. -/
def sort (order : α → α → Outcome Ordering) (items : List α) : Outcome (List α) :=
  sortRuns order (leastRun items.length) items.length oftenInARow [] items

end Datum.Compare
