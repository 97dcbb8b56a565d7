import ClusterBalance.Sorting.Search

/-! Merging two runs that follow one another, each in ascending order. Items are taken one at a time
until one run wins several times in a row; from then on whole stretches are taken, found by a
search, for as long as they are long. How often a run has to win adapts to the items. -/

namespace ClusterBalance.Sorting

/-- A merge under way. `merged` holds what is done, the last item first. The run that is `kept` has
its last item placed without a comparison; the `other` one is used up. -/
structure Merging (β : Type) where
  merged : List β
  kept : List β
  other : List β

namespace Merging

variable {β : Type} (m : Merging β)

/-- Whether nothing is left to compare. -/
def isOver : Bool := m.kept.length ≤ 1 || m.other.isEmpty

/-- All items, in the order they were merged in, when nothing is left to compare. -/
def items : List β :=
  m.merged.reverse ++
    match m.kept with
    | [last] => m.other ++ [last]
    | rest => rest ++ m.other

end Merging

/-- From which end two runs are merged, and which of the two is kept. -/
inductive Direction where
  | forward
  | backward
  deriving DecidableEq, Repr

section Merge

variable {ε β : Type} (less : β → β → Except ε Bool)

/-- Whether an item is not less than another. -/
def notLess (x y : β) : Except ε Bool := return !(← less x y)

/-- How many items at the end of a run, which comes in reverse, stand behind a border. -/
def behindBorder (isBefore : β → Except ε Bool) (reversed : List β) : Except ε Nat := do
  let xs := reversed.reverse.toArray
  return xs.size - (← border isBefore xs (xs.size - 1))

namespace Direction

/-- Whether an item of the other run is taken before one of the kept run. Items of the first run go
first where the two compare as equal. -/
def takesOther (kept other : β) : Direction → Except ε Bool
  | forward => less other kept
  | backward => less kept other

/-- How many items of the kept run are taken before an item of the other one. -/
def keptAhead (other : β) (kept : List β) : Direction → Except ε Nat
  | forward => border (notLess less other) kept.toArray 0
  | backward => behindBorder (fun x => less x other) kept

/-- How many items of the other run are taken before an item of the kept one. -/
def otherAhead (kept : β) (other : List β) : Direction → Except ε Nat
  | forward => border (fun x => less x kept) other.toArray 0
  | backward => behindBorder (notLess less kept) other

variable (d : Direction)

/-- Takes items one at a time until a run has won as often in a row as the threshold says. -/
def walk (threshold keptWins otherWins : Nat) (merged : List β) :
    List β → List β → Except ε (Merging β)
  | k :: k' :: ks, o :: os => do
    if ← d.takesOther less k o then
      if otherWins + 1 ≥ threshold then return ⟨o :: merged, k :: k' :: ks, os⟩
      else walk threshold 0 (otherWins + 1) (o :: merged) (k :: k' :: ks) os
    else if keptWins + 1 ≥ threshold then return ⟨k :: merged, k' :: ks, o :: os⟩
    else walk threshold (keptWins + 1) 0 (k :: merged) (k' :: ks) (o :: os)
  | kept, other => .ok ⟨merged, kept, other⟩
termination_by kept other => kept.length + other.length

/-- Takes all items of the kept run that go before the next one of the other run, and then that one.
Gives the number of the former too. -/
def leapKept (m : Merging β) : Except ε (Nat × Merging β) :=
  match m.other with
  | [] => .ok (0, m)
  | o :: os => do
    let (ahead, kept) := m.kept.splitAt (← d.keptAhead less o m.kept)
    let m : Merging β := ⟨ahead.reverse ++ m.merged, kept, o :: os⟩
    return (ahead.length, if m.isOver then m else ⟨o :: m.merged, kept, os⟩)

/-- Takes all items of the other run that go before the next one of the kept run, and then that one.
Gives the number of the former too. -/
def leapOther (m : Merging β) : Except ε (Nat × Merging β) :=
  match m.kept with
  | [] => .ok (0, m)
  | k :: ks => do
    let (ahead, other) := m.other.splitAt (← d.otherAhead less k m.other)
    let m : Merging β := ⟨ahead.reverse ++ m.merged, k :: ks, other⟩
    return (ahead.length, if m.isOver then m else ⟨k :: m.merged, ks, other⟩)

/-- A leap in each run, and the length of the longer one. The first run leaps first. -/
def leap (m : Merging β) : Except ε (Nat × Merging β) := do
  let (n, m) ← match d with
    | forward => d.leapKept less m
    | backward => d.leapOther less m
  if m.isOver then return (n, m)
  let (n', m) ← match d with
    | forward => d.leapOther less m
    | backward => d.leapKept less m
  return (max n n', m)

/-- A leap of this length is long. -/
def longLeap : Nat := 7

/-- Walks and leaps until a merge is over. Each round takes an item at least, so as many rounds as
items suffice. Gives the threshold for the next merge too, which falls with every further leap and
rises when the leaps get short. -/
def rounds : Nat → Bool → Nat → Merging β → Except ε (Nat × Merging β)
  | 0, _, threshold, m => .ok (threshold, m)
  | fuel + 1, false, threshold, m => do
    let m ← d.walk less threshold 0 0 m.merged m.kept m.other
    if m.isOver then return (threshold, m) else rounds fuel true threshold m
  | fuel + 1, true, threshold, m => do
    let (longest, m) ← d.leap less m
    if m.isOver then return (threshold, m)
    else if longest ≥ longLeap then rounds fuel true (max 1 (threshold - 1)) m
    else rounds fuel false (threshold + 1) m

/-- Merges two runs, whose items come in the direction of the merge. The next item of the other run
is known to be the first one taken. -/
def mergeFrom (threshold : Nat) (kept other : List β) : Except ε (Nat × List β) :=
  match other with
  | [] => .ok (threshold, kept)
  | o :: os => do
    let m : Merging β := ⟨[o], kept, os⟩
    if m.isOver then return (threshold, m.items)
    let (threshold, m) ← d.rounds less (kept.length + os.length) false threshold m
    return (threshold, m.items)

end Direction

/-- Merges two runs. What stands at its place already, at the start of the first and at the end of
the second, is left out, and the shorter one of the rest is kept. -/
def mergeRuns (threshold : Nat) (first second : List β) : Except ε (Nat × List β) := do
  let unchanged := (threshold, first ++ second)
  let some head := second.head? | return unchanged
  let (low, first) := first.splitAt (← border (notLess less head) first.toArray 0)
  let some last := first.getLast? | return unchanged
  let n ← border (fun x => less x last) second.toArray (second.length - 1)
  let (second, high) := second.splitAt n
  if second.isEmpty then return unchanged
  let (threshold, middle) ←
    if first.length ≤ second.length then Direction.forward.mergeFrom less threshold first second
    else do
      let (threshold, middle) ←
        Direction.backward.mergeFrom less threshold second.reverse first.reverse
      pure (threshold, middle.reverse)
  return (threshold, low ++ middle ++ high)

end Merge

end ClusterBalance.Sorting
