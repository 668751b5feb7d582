/-! Stable sorting by a comparison. Short lists are sorted by insertion. Longer ones are cut into
runs, which are stretches that are in order already and blocks of what is not; neighbouring runs are
merged until there is one, and runs without order are sorted by quick sort.

All of this relies on the comparison being an order. Where the comparison contradicts itself, the
result is some list of the same items or none at all: the halves of a block are merged from both
ends, and the sort gives up if the ends do not meet. -/
namespace CriteriaQuery
set_option autoImplicit false

namespace Sorted
variable {α : Type}

/-! ## Insertion -/

/-- Inserts an item into a list that is sorted backwards, in front of the first item that it does
not come before. -/
def insert (before : α → α → Bool) (item : α) : List α → List α
  | [] => [item]
  | last :: rest =>
    if before item last then last :: insert before item rest else item :: last :: rest

/-- Inserts items one after the other into a sorted list. -/
def insertAll (before : α → α → Bool) (done items : List α) : List α :=
  (items.foldl (fun done item => insert before item done) done.reverse).reverse

/-- Sorts a list; items of which neither comes before the other stay in order. -/
def ofList (before : α → α → Bool) (items : List α) : List α := insertAll before [] items

variable (before : α → α → Bool)

/-! ## Merging -/

def mergeFront (left right : List α) : List α := left.merge right fun x y => !before y x

def mergeBack (left right : List α) : List α :=
  (mergeFront (fun x y => before y x) right.reverse left.reverse).reverse

/-- Merges two sorted lists from the end at which the shorter one is. -/
def merge (left right : List α) : List α :=
  if left.length ≤ right.length then mergeFront before left right else mergeBack before left right

/-- The first items of a merge, and what is left of the two lists without them. -/
structure Taken (α : Type) where
  items : List α
  left : List α
  right : List α

def Taken.behind (item : α) (taken : Taken α) : Taken α :=
  { taken with items := item :: taken.items }

def takeMerged : Nat → List α → List α → Taken α
  | 0, left, right => ⟨[], left, right⟩
  | n + 1, x :: left, y :: right =>
    if before y x then (takeMerged n (x :: left) right).behind y
    else (takeMerged n left (y :: right)).behind x
  | n + 1, x :: left, [] => (takeMerged n left []).behind x
  | n + 1, [], y :: right => (takeMerged n [] right).behind y
  | _ + 1, [], [] => ⟨[], [], []⟩

/-- The middle item of a list of odd length, taken from the half that has one left when both ends
have taken as many as the left half has. -/
def Taken.middle (left right : List α) (front back : Taken α) : Taken α :=
  if right.length = left.length then ⟨[], front.left, front.right⟩
  else if left.length < front.left.length + back.right.length then
    ⟨front.left.take 1, front.left.drop 1, front.right⟩
  else ⟨front.right.take 1, front.left, front.right.drop 1⟩

/-- Merges two sorted lists of the same length, up to one item more in the right one, from both ends
at once. There is no result if the ends do not meet. -/
def meet (left right : List α) : Option (List α) :=
  let front := takeMerged before left.length left right
  let back := takeMerged (fun x y => before y x) left.length right.reverse left.reverse
  let middle := Taken.middle left right front back
  if middle.left.length + back.right.length = left.length ∧
      middle.right.length + back.left.length = right.length then
    some (front.items ++ middle.items ++ back.items.reverse)
  else none

/-! ## Blocks -/

def ordered (x y : α) : α × α := if before y x then (y, x) else (x, y)

def between (first x y last : α) : List α :=
  let (x, y) := ordered before x y
  [first, x, y, last]

/-- Four items, sorted by five comparisons. -/
def four (p q r s : α) : List α :=
  let (a, b) := ordered before p q
  let (c, d) := ordered before r s
  match before c a, before d b with
  | false, false => between before a b c d
  | false, true => between before a c d b
  | true, false => between before c a b d
  | true, true => between before c a d b

/-- Half of a block is sorted by insertion, which starts with four sorted items if the block has
eight. -/
def half (eight : Bool) (items : List α) : List α :=
  match eight, items with
  | true, p :: q :: r :: s :: rest => insertAll before (four before p q r s) rest
  | _, items => ofList before items

def block (items : List α) : Option (List α) :=
  let middle := items.length / 2
  let eight := decide (8 ≤ items.length)
  meet before (half before eight (items.take middle)) (half before eight (items.drop middle))

/-- The highest number of items that are sorted as one block. -/
def blockLength : Nat := 32

/-! ## Runs -/

/-- Consecutive items, which may be sorted already. -/
structure Run (α : Type) where
  items : List α
  sorted : Bool

namespace Run

/-- How much of a list continues a run upwards or downwards behind an item. -/
def extent (falls : Bool) (last : α) : List α → Nat
  | [] => 0
  | item :: rest => if before item last = falls then extent falls item rest + 1 else 0

/-- Whether a list starts by falling, and how far it continues so. -/
def start : List α → Bool × Nat
  | first :: second :: rest =>
    let falls := before second first
    (falls, extent before falls second rest + 2)
  | items => (false, items.length)

/-- The first run of a list and its length. It is what is in order or strictly falls, if that has a
least length, or else a block, or items to be sorted later. -/
def first (eager : Bool) (least : Nat) (items : List α) : Option (Run α) × Nat :=
  let (falls, length) := start before items
  if least ≤ length then
    let found := items.take length
    (some ⟨if falls then found.reverse else found, true⟩, length)
  else if eager then
    ((block before (items.take blockLength)).map fun sorted => ⟨sorted, true⟩, blockLength)
  else (some ⟨items.take least, false⟩, least)

/-- All runs of a list, each of at least one item. -/
def all (eager : Bool) (least : Nat) (items : List α) : Option (List (Run α)) :=
  if items = [] then some []
  else
    let (run, length) := first before eager least items
    do
      let run ← run
      let others ← all eager least (items.drop (max length 1))
      return run :: others
termination_by items.length
decreasing_by
  have hlength := List.length_pos_iff.mpr ‹items ≠ []›
  rw [List.length_drop]
  omega

variable (finish : List α → Option (List α)) (room : Nat)

/-- The items of a run, sorted now if they are not yet. -/
def finished (run : Run α) : Option (List α) :=
  if run.sorted then some run.items else finish run.items

/-- Joins neighbouring runs. If neither is sorted and they fit into the room for merging, they stay
unsorted. -/
def join (left right : Run α) : Option (Run α) :=
  if left.sorted || right.sorted || decide (room < left.items.length + right.items.length) then do
    let lefts ← left.finished finish
    let rights ← right.finished finish
    return ⟨merge before lefts rights, true⟩
  else some ⟨left.items ++ right.items, false⟩

/-- The depth in the tree of merges at which runs of a list of `n` items that meet at a point are
merged: the number of leading bits, of 64, that the scaled midpoints of both runs have in common. -/
def depth (n left middle right : Nat) : Nat :=
  let scale := (Nat.pow 2 62 + n - 1) / n
  let differing := (scale * (left + middle)) ^^^ (scale * (middle + right))
  if differing = 0 then 64 else 63 - differing.log2

/-- Joins a run with those before it that are to be merged at a depth or below it. The runs before
are listed backwards, each with the depth at which it meets the next one. -/
def collapse (least : Nat) (run : Run α) : List (Run α × Nat) → Option (Run α × List (Run α × Nat))
  | (left, depth) :: earlier =>
    if least ≤ depth then do collapse least (← join before finish room left run) earlier
    else some (run, (left, depth) :: earlier)
  | [] => some (run, [])

/-- Joins all runs of a list of `n` items. The last one of those seen ends at `middle`. -/
def joinAll (n : Nat) (last : Run α) (middle : Nat) (earlier : List (Run α × Nat)) :
    List (Run α) → Option (Run α)
  | next :: others => do
    let met := depth n (middle - last.items.length) middle (middle + next.items.length)
    let (last, earlier) ← collapse before finish room met last earlier
    joinAll n next (middle + next.items.length) ((last, met) :: earlier) others
  | [] => (collapse before finish room 0 last earlier).map (·.1)

end Run

/-- About the square root of a number. -/
def roughSqrt (n : Nat) : Nat :=
  let bits := (1 + n.log2) / 2
  (Nat.pow 2 bits + n / Nat.pow 2 bits) / 2

/-- The least length of a run that is kept as it is. -/
def leastRun (n : Nat) : Nat := if n ≤ 4096 then min (n - n / 2) 64 else roughSqrt n

/-- Sorts a list by its runs. -/
def byRuns (finish : List α → Option (List α)) (room : Nat) (eager : Bool) (items : List α) :
    Option (List α) := do
  match ← Run.all before eager (leastRun items.length) items with
  | [] => return []
  | first :: others =>
    let run ← Run.joinAll before finish room items.length first first.items.length [] others
    run.finished finish

/-! ## Quick sort -/

/-- The middle one of three positions. -/
def median (less : Nat → Nat → Bool) (a b c : Nat) : Nat :=
  let first := less a b
  if first = less a c then if less b c ^^ first then c else b else a

/-- A median of medians of `n` positions. -/
def pivotFrom (less : Nat → Nat → Bool) (start n : Nat) : Nat :=
  if n < 8 then start
  else
    let part := n / 8
    median less (pivotFrom less start part) (pivotFrom less (start + 4 * part) part)
      (pivotFrom less (start + 7 * part) part)
termination_by n

def pivot (items : List α) : Nat :=
  let less (i j : Nat) : Bool :=
    match items[i]?, items[j]? with
    | some x, some y => before x y
    | _, _ => false
  pivotFrom less 0 items.length

/-- A pivot with those items in front of it and behind it that pass a test. -/
def around (test : α → Bool) (earlier : List α) (pivot : α) (later : List α) : List α :=
  earlier.filter test ++ pivot :: later.filter test

/-- Sorts a list around a pivot. Where the pivot is known not to be above any item, since none comes
before it or an earlier pivot below all items is on its level, the items on its level are set apart
first. After too many bad pivots, the list is sorted by runs, all of them blocks or in order. -/
def quick : Nat → Option α → List α → Option (List α)
  | limit, below, items =>
    if items.length ≤ blockLength then block before items
    else
      match limit with
      | 0 => byRuns before (block before) 0 true items
      | limit + 1 =>
        let position := pivot before items
        match items.drop position with
        | [] => none
        | pivot :: later =>
          let earlier := items.take position
          let low := (earlier ++ later).filter fun item => before item pivot
          if below.any (fun least => !before least pivot) || low.isEmpty then do
            let same := around (fun item => !before pivot item) earlier pivot later
            let rest ← quick limit none ((earlier ++ later).filter fun item => before pivot item)
            return same ++ rest
          else do
            let high ← quick limit (some pivot)
              (around (fun item => !before item pivot) earlier pivot later)
            let low ← quick limit below low
            return low ++ high

def quickAll (items : List α) : Option (List α) := quick before (2 * items.length.log2) none items

/-! ## The sort -/

/-- How many items there is room for when a list of `n` items is sorted. -/
def room (n : Nat) : Nat := max (max (n - n / 2) (min n 166666)) 85

/-- Sorts a list. -/
def sort (items : List α) : Option (List α) :=
  if items.length ≤ 20 then some (ofList before items)
  else
    byRuns before (quickAll before) (room items.length)
      (decide (items.length ≤ 2 * blockLength)) items

end Sorted

end CriteriaQuery
