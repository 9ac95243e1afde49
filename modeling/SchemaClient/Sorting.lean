/-!
# Sorting without a total order

Where some things cannot be compared, no order is right for all of them, and what comes out depends
on the way of sorting. This way takes the run that the list starts with, turned round if it goes
downwards, and puts each further item where a binary search finds its place. Of things that can all
be compared it makes the sorted list that keeps equal ones in their order.
-/
namespace SchemaClient.Sorting

variable {α : Type} (before : α → α → Bool)

/-- The items that go on with a run after `previous`, and the rest. `fits` says whether an item may
follow the one in front of it. -/
def run (fits : α → α → Bool) (previous : α) : List α → List α × List α
  | [] => ([], [])
  | a :: rest =>
    if fits previous a then
      let (items, after) := run fits a rest
      (a :: items, after)
    else ([], a :: rest)

/-- The run that a list starts with, in upward order, and the rest. -/
def firstRun : List α → List α × List α
  | a :: b :: rest =>
    if before b a then
      let (items, after) := run (fun previous item => before item previous) b rest
      ((a :: b :: items).reverse, after)
    else
      let (items, after) := run (fun previous item => !before item previous) b rest
      (a :: b :: items, after)
  | items => (items, [])

/-- The place of an item among others, between two places. -/
def place (items : List α) (a : α) (low high : Nat) : Nat :=
  if _h : low < high then
    let middle := low + (high - low) / 2
    if items[middle]?.any (before a) then place items a low middle
    else place items a (middle + 1) high
  else low
termination_by high - low

def insert (items : List α) (a : α) : List α :=
  items.insertIdx (place before items a 0 items.length) a

def sorted (items : List α) : List α :=
  let (start, rest) := firstRun before items
  rest.foldl (insert before) start

end SchemaClient.Sorting
