import Ofelia.Go.Basic

/-! `sort.Slice`, which the loader uses to order the webhook definitions by
priority. It runs pattern-defeating quicksort (`pdqsort_func` of the Go runtime)
through a `lessSwap`: `Less(i, j)` compares the elements now at `i` and `j`, and
`Swap(i, j)` exchanges them. The slice is modelled as its contents, a `Slice`
with element `i` at `get i`, each `Swap` as `swap`, and every loop of the runtime
as a recursion whose fuel is the loop's own bound, so that no fuel runs out
before the loop ends. Indices are natural numbers: every index the algorithm
reads is within the slice.

`sort.Slice` is not stable: elements that compare equal may leave in another order
than they came (see the loader's module). -/

namespace Ofelia.Sort

variable {α : Type}

/-- The contents of the slice being sorted. -/
structure Slice (α : Type) where
  get : Nat → α

/-- `Swap(i, j)`. -/
def swap (data : Slice α) (i j : Nat) : Slice α :=
  ⟨fun k => if k = i then data.get j else if k = j then data.get i else data.get k⟩

/-! ### Loops shared by several functions -/

/-- `for i < lim && p(i) { i++ }`, given `lim - i` fuel. -/
def scanUp (p : Nat → Bool) (lim : Nat) : Nat → Nat → Nat
  | 0, i => i
  | fuel + 1, i => if i < lim ∧ p i = true then scanUp p lim fuel (i + 1) else i

/-- `for lo <= j && p(j) { j-- }`, given `j + 1 - lo` fuel. -/
def scanDown (p : Nat → Bool) (lo : Nat) : Nat → Nat → Nat
  | 0, j => j
  | fuel + 1, j => if lo ≤ j ∧ p j = true then scanDown p lo fuel (j - 1) else j

/-- `for ; j > lo && data.Less(j, j-1); j-- { data.Swap(j, j-1) }`: the element at
`j` moves left past every greater neighbour, stopping at `lo`. -/
def shiftLeft (less : α → α → Bool) (lo : Nat) : Slice α → Nat → Slice α
  | data, 0 => data
  | data, j + 1 =>
    if lo < j + 1 ∧ less (data.get (j + 1)) (data.get j) = true then
      shiftLeft less lo (swap data (j + 1) j) j
    else data

/-- `for ; j < hi; j++ { if !data.Less(j, j-1) { break }; data.Swap(j, j-1) }`,
given `hi - j` fuel. -/
def shiftRight (less : α → α → Bool) (hi : Nat) : Nat → Slice α → Nat → Slice α
  | 0, data, _ => data
  | fuel + 1, data, j =>
    if j < hi ∧ less (data.get j) (data.get (j - 1)) = true then
      shiftRight less hi fuel (swap data j (j - 1)) (j + 1)
    else data

/-! ### Insertion sort and heapsort -/

/-- `insertionSort_func`: sorts `data[a:b]`. -/
def insertionSort (less : α → α → Bool) (data : Slice α) (a b : Nat) : Slice α :=
  (List.range' (a + 1) (b - (a + 1))).foldl (fun data i => shiftLeft less a data i) data

/-- The loop of `siftDown_func` from `root`, given `hi - root` fuel. -/
def siftDownLoop (less : α → α → Bool) (hi first : Nat) : Nat → Slice α → Nat → Slice α
  | 0, data, _ => data
  | fuel + 1, data, root =>
    if hi ≤ 2 * root + 1 then data
    else
      let child := if 2 * root + 1 + 1 < hi ∧
          less (data.get (first + (2 * root + 1))) (data.get (first + (2 * root + 1) + 1)) = true
        then 2 * root + 1 + 1 else 2 * root + 1
      if less (data.get (first + root)) (data.get (first + child)) = false then data
      else siftDownLoop less hi first fuel (swap data (first + root) (first + child)) child

/-- `siftDown_func`: restores the heap property on `data[lo:hi]`, the heap
starting at `first`. -/
def siftDown (less : α → α → Bool) (data : Slice α) (lo hi first : Nat) : Slice α :=
  siftDownLoop less hi first (hi - lo) data lo

/-- `heapSort_func`: sorts `data[a:b]`. -/
def heapSort (less : α → α → Bool) (data : Slice α) (a b : Nat) : Slice α :=
  let first := a
  let lo := 0
  let hi := b - a
  let data := (List.range ((hi - 1) / 2 + 1)).reverse.foldl
    (fun data i => siftDown less data i hi first) data
  (List.range hi).reverse.foldl
    (fun data i => siftDown less (swap data first (first + i)) lo i first) data

/-! ### Pivots and patterns -/

/-- `sortedHint`. -/
inductive SortedHint where
  | unknown | increasing | decreasing
  deriving DecidableEq, Repr

/-- `order2_func`: the two indices in order, counting a swap when they were not. -/
def order2 (less : α → α → Bool) (data : Slice α) (a b swaps : Nat) : Nat × Nat × Nat :=
  if less (data.get b) (data.get a) = true then (b, a, swaps + 1) else (a, b, swaps)

/-- `median_func`. -/
def median (less : α → α → Bool) (data : Slice α) (a b c swaps : Nat) : Nat × Nat :=
  let (a, b, swaps) := order2 less data a b swaps
  let (b, _, swaps) := order2 less data b c swaps
  let (_, b, swaps) := order2 less data a b swaps
  (b, swaps)

/-- `medianAdjacent_func`. -/
def medianAdjacent (less : α → α → Bool) (data : Slice α) (a swaps : Nat) : Nat × Nat :=
  median less data (a - 1) a (a + 1) swaps

def shortestNinther : Nat := 50

def maxSwaps : Nat := 4 * 3

/-- `choosePivot_func`: a pivot in `data[a:b]` and what the comparisons made on the
way suggest about the order of the range. It swaps nothing. -/
def choosePivot (less : α → α → Bool) (data : Slice α) (a b : Nat) : Nat × SortedHint :=
  let l := b - a
  let i := a + l / 4 * 1
  let j := a + l / 4 * 2
  let k := a + l / 4 * 3
  let (j, swaps) :=
    if 8 ≤ l then
      let (i, j, k, swaps) :=
        if shortestNinther ≤ l then
          let (i, swaps) := medianAdjacent less data i 0
          let (j, swaps) := medianAdjacent less data j swaps
          let (k, swaps) := medianAdjacent less data k swaps
          (i, j, k, swaps)
        else (i, j, k, 0)
      median less data i j k swaps
    else (j, 0)
  (j, if swaps = 0 then .increasing else if swaps = maxSwaps then .decreasing else .unknown)

/-- The loop of `reverseRange_func` from `i` and `j`. -/
def reverseRangeLoop : Nat → Slice α → Nat → Nat → Slice α
  | 0, data, _, _ => data
  | fuel + 1, data, i, j =>
    if i < j then reverseRangeLoop fuel (swap data i j) (i + 1) (j - 1) else data

/-- `reverseRange_func`: reverses `data[a:b]`. -/
def reverseRange (data : Slice α) (a b : Nat) : Slice α :=
  reverseRangeLoop (b - a) data a (b - 1)

/-- `bits.Len`, the number of bits of `x`, given `x` fuel. -/
def bitsLenLoop : Nat → Nat → Nat
  | 0, _ => 0
  | fuel + 1, x => if x = 0 then 0 else bitsLenLoop fuel (x / 2) + 1

/-- `bits.Len(uint(x))`. -/
def bitsLen (x : Nat) : Nat := bitsLenLoop x x

/-- `nextPowerOfTwo`: `1 << bits.Len(uint(length))`. -/
def nextPowerOfTwo (length : Nat) : Nat := 2 ^ bitsLen length

/-- `(*xorshift).Next`. -/
def xorshiftNext (r : UInt64) : UInt64 :=
  let r := r ^^^ (r <<< 13)
  let r := r ^^^ (r >>> 7)
  r ^^^ (r <<< 17)

/-- `breakPatterns_func`: three swaps at pseudo-random places near the middle of
`data[a:b]`, seeded by its length. -/
def breakPatterns (data : Slice α) (a b : Nat) : Slice α :=
  let length := b - a
  if 8 ≤ length then
    let modulus := nextPowerOfTwo length
    let idx := a + length / 4 * 2 - 1
    let step := fun (st : UInt64 × Slice α) (i : Nat) =>
      let random := xorshiftNext st.1
      let other := random.toNat &&& (modulus - 1)
      let other := if length ≤ other then other - length else other
      (random, swap st.2 (idx - 1 + i) (a + other))
    ((List.range 3).foldl step (length.toUInt64, data)).2
  else data

/-! ### Partitions -/

/-- The `for` loop of `partition_func` and of `partitionEqual_func`: `i` moves right
over the elements `left` accepts, `j` moves left over those `right` accepts, and
where both stop the two elements are swapped, until `i` and `j` cross. It returns
`i`, `j` and the contents at that point. -/
def crossLoop (left right : Slice α → Nat → Bool) :
    Nat → Slice α → Nat → Nat → Nat × Nat × Slice α
  | 0, data, i, j => (i, j, data)
  | fuel + 1, data, i, j =>
    let i := scanUp (left data) (j + 1) (j + 1 - i) i
    let j := scanDown (right data) i (j + 1 - i) j
    if j < i then (i, j, data) else crossLoop left right fuel (swap data i j) (i + 1) (j - 1)

/-- `partition_func`: one quicksort partition of `data[a:b]` around `data[pivot]`,
which ends at the returned index; the flag says the range was already
partitioned. -/
def partition (less : α → α → Bool) (data : Slice α) (a b pivot : Nat) :
    Nat × Bool × Slice α :=
  let left := fun (data : Slice α) k => less (data.get k) (data.get a)
  let right := fun (data : Slice α) k => !less (data.get k) (data.get a)
  let data := swap data a pivot
  let i := scanUp (left data) b (b - (a + 1)) (a + 1)
  let j := scanDown (right data) i (b - i) (b - 1)
  if j < i then (j, true, swap data j a)
  else
    let (_, j, data) := crossLoop left right (b - a) (swap data i j) (i + 1) (j - 1)
    (j, false, swap data j a)

/-- `partitionEqual_func`: moves the elements of `data[a:b]` equal to `data[pivot]`
to the front and returns where the greater ones start; it assumes none is
smaller. -/
def partitionEqual (less : α → α → Bool) (data : Slice α) (a b pivot : Nat) : Nat × Slice α :=
  let left := fun (data : Slice α) k => !less (data.get a) (data.get k)
  let right := fun (data : Slice α) k => less (data.get a) (data.get k)
  let (i, _, data) := crossLoop left right (b - a) (swap data a pivot) (a + 1) (b - 1)
  (i, data)

def shortestShifting : Nat := 50

/-- The loop of `partialInsertionSort_func`, with `steps` of its `maxSteps` left. -/
def partialInsertionSortLoop (less : α → α → Bool) (a b : Nat) :
    Nat → Slice α → Nat → Slice α × Bool
  | 0, data, _ => (data, false)
  | steps + 1, data, i =>
    let i := scanUp (fun k => !less (data.get k) (data.get (k - 1))) b (b - i) i
    if i = b then (data, true)
    else if b - a < shortestShifting then (data, false)
    else
      let data := swap data i (i - 1)
      let data := if 2 ≤ i - a then shiftLeft less 0 data (i - 1) else data
      let data := if 2 ≤ b - i then shiftRight less b (b - (i + 1)) data (i + 1) else data
      partialInsertionSortLoop less a b steps data i

def maxSteps : Nat := 5

/-- `partialInsertionSort_func`: shifts a few out-of-order elements of `data[a:b]`
into place; the flag says the range is sorted at the end. -/
def partialInsertionSort (less : α → α → Bool) (data : Slice α) (a b : Nat) : Slice α × Bool :=
  partialInsertionSortLoop less a b maxSteps data (a + 1)

/-! ### The sort -/

def maxInsertion : Nat := 12

/-- `pdqsort_func` on `data[a:b]`, its `for` loop and its recursion both counted
against the fuel, which exceeds `b - a` on every call. -/
def pdqsort (less : α → α → Bool) :
    Nat → Slice α → Nat → Nat → Nat → Bool → Bool → Slice α
  | 0, data, _, _, _, _, _ => data
  | fuel + 1, data, a, b, limit, wasBalanced, wasPartitioned =>
    let length := b - a
    if length ≤ maxInsertion then insertionSort less data a b
    else if limit = 0 then heapSort less data a b
    else
      let (data, limit) :=
        if !wasBalanced then (breakPatterns data a b, limit - 1) else (data, limit)
      let (pivot, hint) := choosePivot less data a b
      let (data, pivot, hint) :=
        if hint = .decreasing then (reverseRange data a b, b - 1 - (pivot - a), SortedHint.increasing)
        else (data, pivot, hint)
      let (data, sorted) :=
        if wasBalanced && wasPartitioned && hint = .increasing then partialInsertionSort less data a b
        else (data, false)
      if sorted then data
      else if 0 < a ∧ less (data.get (a - 1)) (data.get pivot) = false then
        let (mid, data) := partitionEqual less data a b pivot
        pdqsort less fuel data mid b limit wasBalanced wasPartitioned
      else
        let (mid, alreadyPartitioned, data) := partition less data a b pivot
        let leftLen := mid - a
        let rightLen := b - mid
        let balanceThreshold := length / 8
        if leftLen < rightLen then
          pdqsort less fuel (pdqsort less fuel data a mid limit true true) (mid + 1) b limit
            (decide (balanceThreshold ≤ leftLen)) alreadyPartitioned
        else
          pdqsort less fuel (pdqsort less fuel data (mid + 1) b limit true true) a mid limit
            (decide (balanceThreshold ≤ rightLen)) alreadyPartitioned

/-- `sort.Slice(x, less)` on a slice with elements `xs`. -/
def slice (less : α → α → Bool) : List α → List α
  | [] => []
  | xs@(x :: _) =>
    let data := pdqsort less (xs.length + 1) ⟨fun i => xs.getD i x⟩ 0 xs.length (bitsLen xs.length)
      true true
    (List.range xs.length).map data.get

end Ofelia.Sort
