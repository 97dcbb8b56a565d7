import ClusterBalance.Sorting.Merge

/-! Sorting by a comparison that may fail, or contradict itself. Which items are compared shows
then, so that is fixed: the list is cut into runs, short runs are made longer by insertion, and runs
are merged in an order that keeps the merges balanced. Items that compare as equal keep their order.
-/

namespace ClusterBalance.Sorting

section Runs

variable {ε β : Type} (less : β → β → Except ε Bool)

/-- The start of a list that continues a run behind its last item, and the rest. In a falling run
each item is less than the one before it, in a rising one none is. -/
def spanRun (falls : Bool) (last : β) : List β → Except ε (List β × List β)
  | [] => .ok ([], [])
  | x :: xs => do
    if (← less x last) = falls then
      let (run, rest) ← spanRun falls x xs
      return (x :: run, rest)
    else return ([], x :: xs)

/-- The run at the start of a list, in rising order, and the rest. -/
def firstRun : List β → Except ε (List β × List β)
  | [] => .ok ([], [])
  | [x] => .ok ([x], [])
  | x :: y :: rest => do
    let falls ← less y x
    let (run, rest) ← spanRun less falls y rest
    let run := x :: y :: run
    return (if falls then run.reverse else run, rest)

/-- Sorted items with one more, behind those that it is not less than. -/
def insert (sorted : Array β) (x : β) : Except ε (Array β) := do
  let i ← bisect (notLess less x) sorted 0 sorted.size (Nat.le_refl _)
  return sorted.take i |>.push x |>.append (sorted.drop i)

/-- A run at the start of a list that is not shorter than a length, as far as there are items, and
the rest. -/
def longRun (length : Nat) (xs : List β) : Except ε (List β × List β) := do
  let (run, rest) ← firstRun less xs
  let (added, rest) := rest.splitAt (length - run.length)
  let run ← added.foldlM (insert less) run.toArray
  return (run.toList, rest)

end Runs

/-- The least length of a run in a list of some length: its first six binary digits, plus one if any
of the others is set. -/
def leastRun : Nat → Bool → Nat → Nat
  | 0, _, n => n
  | fuel + 1, carry, n =>
    if n < 64 then n + carry.toNat else leastRun fuel (carry || n % 2 = 1) (n / 2)

/-- The level of the cut between two runs: how often a span of the given length is halved until the
cut falls between the middles of the runs, which are given by their doubles. -/
def cutLevel (span : Nat) : Nat → Nat → Nat → Nat
  | 0, _, _ => 0
  | fuel + 1, a, b =>
    1 + if span ≤ a then cutLevel span fuel (2 * (a - span)) (2 * (b - span))
      else if span ≤ b then 0
      else cutLevel span fuel (2 * a) (2 * b)

/-- A run that waits to be merged, with its place and the level of the cut behind it. -/
structure Waiting (β : Type) where
  start : Nat
  run : List β
  level : Nat

section Whole

variable {ε β : Type} (less : β → β → Except ε Bool)

/-- Merges the last two waiting runs, the last of which comes first, while the cut between them lies
deeper than the given level. -/
def mergeDeeper (level : Nat) : Nat → List (Waiting β) → Except ε (Nat × List (Waiting β))
  | threshold, second :: first :: rest => do
    if first.level > level then
      let (threshold, run) ← mergeRuns less threshold first.run second.run
      mergeDeeper level threshold ({ first with run } :: rest)
    else return (threshold, second :: first :: rest)
  | threshold, waiting => .ok (threshold, waiting)
termination_by _ waiting => waiting.length

/-- Merges all waiting runs, the last of which comes first. -/
def mergeAll : Nat → List (Waiting β) → Except ε (List β)
  | threshold, third :: second :: first :: rest => do
    if first.run.length < third.run.length then
      let (threshold, run) ← mergeRuns less threshold first.run second.run
      mergeAll threshold (third :: { first with run } :: rest)
    else
      let (threshold, run) ← mergeRuns less threshold second.run third.run
      mergeAll threshold ({ second with run } :: first :: rest)
  | threshold, [second, first] => return (← mergeRuns less threshold first.run second.run).2
  | _, [only] => .ok only.run
  | _, [] => .ok []
termination_by _ waiting => waiting.length

/-- Puts a run behind the waiting ones. The cut in front of it gets its level, and deeper cuts are
merged away. -/
def await (span threshold : Nat) (run : List β) :
    List (Waiting β) → Except ε (Nat × List (Waiting β))
  | [] => .ok (threshold, [⟨0, run, 0⟩])
  | last :: rest => do
    let doubled := 2 * last.start + last.run.length
    let level := cutLevel span (span + 1) doubled (doubled + last.run.length + run.length)
    let start := last.start + last.run.length
    match ← mergeDeeper less level threshold (last :: rest) with
    | (threshold, last :: rest) =>
      return (threshold, ⟨start, run, 0⟩ :: { last with level } :: rest)
    | (threshold, []) => return (threshold, [⟨start, run, 0⟩])

/-- Sorts the items that are left, behind runs that wait to be merged. Every run has an item, so as
many rounds as items suffice. -/
def sortRest (span : Nat) : Nat → Nat → List (Waiting β) → List β → Except ε (List β)
  | fuel + 1, threshold, waiting, x :: xs => do
    let (run, rest) ← longRun less (leastRun span false span) (x :: xs)
    let (threshold, waiting) ← await less span threshold run waiting
    sortRest span fuel threshold waiting rest
  | _, threshold, waiting, _ => mergeAll less threshold waiting

/-- The items of a list in ascending order. -/
def sort (xs : List β) : Except ε (List β) :=
  sortRest less xs.length xs.length Direction.longLeap [] xs

end Whole

end ClusterBalance.Sorting
