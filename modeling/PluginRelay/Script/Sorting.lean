/-!
# Sorting by comparisons that may fail

The comparison is an action: it may run scripts and end with an exception, so the order of comparisons is
part of what a sort does. Elements are only ever exchanged. Few elements are sorted by insertion; many are
parted by a pivot.
-/
namespace PluginRelay.Script.Sorting

variable {α : Type} {m : Type → Type} [Monad m]

/-- Negative, zero or positive, as the first one is less than, equal to or greater than the second. -/
abbrev Comparison (α : Type) (m : Type → Type) := α → α → m Int

def compareAt (compare : Comparison α m) (a : Array α) (i j : Nat) : m Int :=
  match a[i]?, a[j]? with
  | some x, some y => compare x y
  | _, _ => pure 0

/-- Exchanges two ranges of the same size. -/
def swapRanges (a : Array α) (i j count : Nat) : Array α :=
  count.fold (fun k _ a => a.swapIfInBounds (i + k) (j + k)) a

/-- The place of the middle one of three elements. -/
def median (compare : Comparison α m) (a : Array α) (i j k : Nat) : m Nat := do
  if (← compareAt compare a i j) < 0 then
    if (← compareAt compare a j k) < 0 then return j
    else if (← compareAt compare a i k) < 0 then return k
    else return i
  else
    if 0 < (← compareAt compare a j k) then return j
    else if (← compareAt compare a i k) < 0 then return i
    else return k

/-- Lets the element at `j` sink to its place among those from `first` on. -/
def sink (compare : Comparison α m) (first : Nat) : (count : Nat) → Array α → m (Array α)
  | 0, a => return a
  | count + 1, a => do
    let j := first + count + 1
    if 0 < (← compareAt compare a (j - 1) j) then
      sink compare first count (a.swapIfInBounds (j - 1) j)
    else return a

def insertion (compare : Comparison α m) (a : Array α) (first count : Nat) : m (Array α) :=
  (List.range (count - 1)).foldlM (fun a i => sink compare first (i + 1) a) a

/-- Where parting stands: elements equal to the pivot are gathered at both ends. -/
structure Parting (α : Type) where
  items : Array α
  low : Nat
  high : Nat
  equalLow : Nat
  equalHigh : Nat

/-- Passes over elements that are not greater than the pivot. -/
def passLow (compare : Comparison α m) (pivot : Nat) : (fuel : Nat) → Parting α → m (Parting α)
  | 0, p => return p
  | fuel + 1, p => do
    if p.low < p.high then
      let c ← compareAt compare p.items pivot p.low
      if 0 ≤ c then
        let p := if c = 0 then
            { p with
              items := p.items.swapIfInBounds p.equalLow p.low
              equalLow := p.equalLow + 1 }
          else p
        passLow compare pivot fuel { p with low := p.low + 1 }
      else return p
    else return p

/-- Passes over elements that are not less than the pivot, and stops at one that is. -/
def passHigh (compare : Comparison α m) (pivot : Nat) : (fuel : Nat) → Parting α → m (Parting α)
  | 0, p => return p
  | fuel + 1, p => do
    let p := { p with high := p.high - 1 }
    if p.low < p.high then
      let c ← compareAt compare p.items pivot p.high
      if c ≤ 0 then
        let p := if c = 0 then
            { p with
              items := p.items.swapIfInBounds (p.equalHigh - 1) p.high
              equalHigh := p.equalHigh - 1 }
          else p
        passHigh compare pivot fuel p
      else return p
    else return p

def part (compare : Comparison α m) (pivot : Nat) : (fuel : Nat) → Parting α → m (Parting α)
  | 0, p => return p
  | fuel + 1, p => do
    let p ← passLow compare pivot (fuel + 1) p
    let p ← passHigh compare pivot (fuel + 1) p
    if p.high ≤ p.low then return p
    else
      part compare pivot fuel { p with
        items := p.items.swapIfInBounds p.low p.high
        low := p.low + 1 }

/-- Up to this size, ranges are sorted by insertion. -/
def smallSize : Nat := 6

/-- Sorts `count` elements from `first` on. -/
def sortRange (compare : Comparison α m) : (depth : Nat) → Array α → (first count : Nat) → m (Array α)
  | 0, a, first, count => insertion compare a first count
  | depth + 1, a, first, count => do
    if count ≤ smallSize then insertion compare a first count
    else
      let quarter := count / 4
      let middle ← median compare a (first + quarter) (first + 2 * quarter) (first + 3 * quarter)
      let top := first + count
      let start : Parting α := ⟨a.swapIfInBounds first middle, first + 1, top, first + 1, top⟩
      let p ← part compare first (count + 1) start
      let less := p.low - p.equalLow
      let greater := p.equalHigh - p.low
      let spanLow := min (p.equalLow - first) less
      let spanHigh := min (top - p.equalHigh) greater
      let a := swapRanges p.items first (p.low - spanLow) spanLow
      let a := swapRanges a p.low (top - spanHigh) spanHigh
      if greater < less then
        let a ← sortRange compare depth a (top - greater) greater
        sortRange compare depth a first less
      else
        let a ← sortRange compare depth a first less
        sortRange compare depth a (top - greater) greater

/-- Parting goes no deeper than this. -/
def depthLimit : Nat := 50

def sort (compare : Comparison α m) (a : Array α) : m (Array α) := sortRange compare depthLimit a 0 a.size

end PluginRelay.Script.Sorting
