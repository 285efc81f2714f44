/-!
# Stable sorting by a relation that need not be transitive

Short lists are sorted by binary insertion after the run at their start, which is
turned round when it falls strictly; long ones by merging. Only the question
whether one element is below another is asked. For a consistent relation every
stable sort gives the same list; for another one the insertion order shows.
-/

namespace TableQuery.Sorting

variable {α : Type}

/-- How many elements continue a run that `last` ends; `falling` tells whether each
must be below the one before it or must not be. -/
def runLength (lt : α → α → Bool) (falling : Bool) (last : α) : List α → Nat
  | [] => 0
  | x :: xs => if lt x last == falling then runLength lt falling x xs + 1 else 0

/-- The run at the start of a list in rising order, and the rest of the list. -/
def firstRun (lt : α → α → Bool) : List α → List α × List α
  | [] => ([], [])
  | [x] => ([x], [])
  | x :: y :: rest =>
    let falling := lt y x
    let n := 2 + runLength lt falling y rest
    let run := (x :: y :: rest).take n
    (if falling then run.reverse else run, (x :: y :: rest).drop n)

/-- The position where a new element goes in the slots from `lo` to `hi`, found by
halving. -/
def slot (lt : α → α → Bool) (pivot : α) (sorted : List α) : Nat → Nat → Nat → Nat
  | 0, lo, _ => lo
  | fuel + 1, lo, hi =>
    if lo < hi then
      let mid := lo + (hi - lo) / 2
      match sorted[mid]? with
      | some x =>
        if lt pivot x then slot lt pivot sorted fuel lo mid
        else slot lt pivot sorted fuel (mid + 1) hi
      | none => lo
    else lo

/-- A list with a new element in its slot. -/
def insert (lt : α → α → Bool) (sorted : List α) (pivot : α) : List α :=
  let p := slot lt pivot sorted sorted.length 0 sorted.length
  sorted.take p ++ pivot :: sorted.drop p

/-- Sorts by inserting the elements after the first run one by one. -/
def insertionSort (lt : α → α → Bool) (xs : List α) : List α :=
  let (run, rest) := firstRun lt xs
  rest.foldl (insert lt) run

/-- The shortest length that is sorted by merging. -/
def mergeThreshold : Nat := 64

/-- A list in rising order; elements that are level keep their places. -/
def ascending (lt : α → α → Bool) (xs : List α) : List α :=
  if xs.length < mergeThreshold then insertionSort lt xs
  else xs.mergeSort fun a b => !lt b a

/-- A list in falling order; elements that are level keep their places. -/
def descending (lt : α → α → Bool) (xs : List α) : List α :=
  (ascending lt xs.reverse).reverse

end TableQuery.Sorting
