import Datum.Failure

/-!
# Merging sorted runs

Two sorted runs that follow each other become one, stably, by an order that may fail. Items that
stand right already stay; the others are merged from the end where the shorter run lies. The merge
goes item by item until one run has won often in a row. Then it gallops: strides of growing length
find how many items come next, and these are moved at once. Which items are compared with which can
be seen where the order fails or contradicts itself.
-/

set_option autoImplicit false

namespace Datum.Compare

variable {α : Type}

/-- The end at which a merge begins. From the back, runs are given with their last item first. -/
inductive Side where
  | front
  | back
  deriving DecidableEq

/-- The item in the middle of `count` items; of two, the one that is later in the list. -/
def Side.middle (side : Side) (count : Nat) : Nat :=
  match side with
  | .front => count / 2
  | .back => (count - 1) / 2

def passesAt (test : α → Outcome Bool) (items : List α) (n : Nat) : Outcome Bool :=
  match items[n]? with
  | some a => test a
  | none => .ok false

def bisect (side : Side) (test : α → Outcome Bool) (items : List α) :
    Nat → Nat → Nat → Outcome Nat
  | 0, low, _ => .ok low
  | fuel + 1, low, high => do
    if high ≤ low then return low
    else
      let middle := low + side.middle (high - low)
      if ← passesAt test items middle then bisect side test items fuel (middle + 1) high
      else bisect side test items fuel low middle

/-- Strides to the places 1, 3, 7 and so on as long as the items there pass a test: the last place
that passed, and the one that did not, or the end. -/
def strides (test : α → Outcome Bool) (items : List α) : Nat → Nat → Nat → Outcome (Nat × Nat)
  | 0, last, _ => .ok (last, items.length)
  | fuel + 1, last, next => do
    if next < items.length then
      if ← passesAt test items next then strides test items fuel next (2 * next + 1)
      else return (last, next)
    else return (last, items.length)

def gallop (side : Side) (test : α → Outcome Bool) (items : List α) : Outcome Nat := do
  if ← passesAt test items 0 then
    let (last, next) ← strides test items items.length 0 1
    bisect side test items items.length (last + 1) next
  else return 0

/-- A merge on its way: the items moved so far, the last one first, and what is left of the shorter
and of the longer run. -/
structure Merging (α : Type) where
  moved : List α
  short : List α
  long : List α

namespace Merging

def moveShort (m : Merging α) (count : Nat) : Merging α :=
  { m with moved := (m.short.take count).reverse ++ m.moved, short := m.short.drop count }

def moveLong (m : Merging α) (count : Nat) : Merging α :=
  { m with moved := (m.long.take count).reverse ++ m.moved, long := m.long.drop count }

/-- Nothing is left to compare: the last item of the shorter run comes last of all. -/
def isDone (m : Merging α) : Bool := m.long.isEmpty || m.short.length ≤ 1

def result (m : Merging α) : List α := m.moved.reverse ++ m.long ++ m.short

end Merging

/-- Whether an item of the longer run is moved before one of the shorter. From the front the longer
run is the second one, and from the back the later item is moved first. -/
def longFirst (order : α → α → Outcome Ordering) (side : Side) (long short : α) : Outcome Bool :=
  match side with
  | .front => do return (← order long short) == .lt
  | .back => do return (← order short long) == .lt

def gallopShort (order : α → α → Outcome Ordering) (side : Side) (m : Merging α) :
    Outcome (Nat × Merging α) := do
  match m.long with
  | [] => return (0, m)
  | key :: _ =>
    let count ← gallop side (fun a => do return !(← longFirst order side key a)) m.short
    let after := m.moveShort count
    return (count, if after.isDone then after else after.moveLong 1)

def gallopLong (order : α → α → Outcome Ordering) (side : Side) (m : Merging α) :
    Outcome (Nat × Merging α) := do
  match m.short with
  | [] => return (0, m)
  | key :: _ =>
    let count ← gallop side (fun a => longFirst order side a key) m.long
    let after := m.moveLong count
    return (count, if after.isDone then after else after.moveShort 1)

def gallopBoth (order : α → α → Outcome Ordering) (side : Side) (often : Nat) (m : Merging α) :
    Outcome (Bool × Merging α) := do
  let (first, second) := match side with
    | .front => (gallopShort order side, gallopLong order side)
    | .back => (gallopLong order side, gallopShort order side)
  let (wins, after) ← first m
  if after.isDone then return (false, after)
  else
    let (otherWins, after) ← second after
    return (often ≤ wins || often ≤ otherWins, after)

inductive Pace where
  | single (shortWins longWins : Nat)
  | galloping

def oftenInARow : Nat := 7

def paceAfter (patience shortWins longWins : Nat) : Pace :=
  if patience ≤ max shortWins longWins then .galloping else .single shortWins longWins

/-- Merges what is left. `patience` is the number of wins with which galloping begins: it falls
while galloping pays and rises when it ends. -/
def mergeRest (order : α → α → Outcome Ordering) (side : Side) :
    Nat → Nat → Pace → Merging α → Outcome (Nat × List α)
  | 0, patience, _, m => .ok (patience, m.result)
  | fuel + 1, patience, pace, m => do
    if m.isDone then return (patience, m.result)
    else match pace, m.long, m.short with
      | .single shortWins longWins, a :: _, b :: _ =>
        if ← longFirst order side a b then
          mergeRest order side fuel patience (paceAfter patience 0 (longWins + 1)) (m.moveLong 1)
        else
          mergeRest order side fuel patience (paceAfter patience (shortWins + 1) 0) (m.moveShort 1)
      | _, _, _ =>
        let (again, after) ← gallopBoth order side oftenInARow m
        if after.isDone then return (patience, after.result)
        else if again then mergeRest order side fuel (max 1 (patience - 1)) .galloping after
        else mergeRest order side fuel (patience + 1) (.single 0 0) after

def mergeSide (order : α → α → Outcome Ordering) (side : Side) (patience : Nat)
    (short long : List α) : Outcome (Nat × List α) :=
  mergeRest order side (short.length + long.length) patience (.single 0 0)
    (Merging.moveLong ⟨[], short, long⟩ 1)

/-- Merges two runs of which the second one has the first item and the first one the last. -/
def mergeCore (order : α → α → Outcome Ordering) (patience : Nat) (left right : List α) :
    Outcome (Nat × List α) := do
  if left.length ≤ right.length then mergeSide order .front patience left right
  else
    let (patience, items) ← mergeSide order .back patience right.reverse left.reverse
    return (patience, items.reverse)

/-- Merges two runs. The items of the first run that are not greater than the whole second run stay,
and so do those of the second run that are not less than the whole first run. -/
def merge (order : α → α → Outcome Ordering) (patience : Nat) (left right : List α) :
    Outcome (Nat × List α) := do
  match right with
  | [] => return (patience, left)
  | first :: _ =>
    let count ← gallop .front (fun a => do return (← order first a) != .lt) left
    match (left.drop count).getLast? with
    | none => return (patience, left ++ right)
    | some last =>
      let kept ← gallop .back (fun a => do return (← order a last) != .lt) right.reverse
      let size := right.length - kept
      if size = 0 then return (patience, left ++ right)
      else
        let (patience, items) ← mergeCore order patience (left.drop count) (right.take size)
        return (patience, left.take count ++ items ++ right.drop size)

end Datum.Compare
