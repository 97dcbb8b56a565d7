/-! The search for a border: items before it satisfy a condition, and those behind it do not. The
condition may fail, so which items are asked for it is fixed. -/

namespace ClusterBalance.Sorting

variable {ε β : Type} (isBefore : β → Except ε Bool)

/-- The border between two bounds, by halving. -/
def bisect (xs : Array β) (low high : Nat) (bound : high ≤ xs.size) : Except ε Nat :=
  if open_ : low < high then do
    let middle := low + (high - low) / 2
    have inside : middle < xs.size := by omega
    if ← isBefore xs[middle] then bisect xs (middle + 1) high bound
    else bisect xs low middle (by omega)
  else .ok low
termination_by high - low

/-- Goes on in strides that double, up to a limit. Gives the last distance at which it went on and
the one at which it stopped. -/
def stride (goesOn : Nat → Except ε Bool) (limit last next : Nat) : Except ε (Nat × Nat) :=
  if near : next < limit then do
    if ← goesOn next then stride goesOn limit next (2 * next + 1) else return (last, next)
  else .ok (last, limit)
termination_by limit - next

/-- Whether the item at a place stands before the border. -/
def isBeforeAt (xs : Array β) (i : Nat) : Except ε Bool :=
  match xs[i]? with
  | some x => isBefore x
  | none => .ok false

/-- The border, sought from a hint on: first in strides away from the hint, then by halving what the
last stride spans. -/
def border (xs : Array β) (hint : Nat) : Except ε Nat := do
  let between := fun low high =>
    bisect isBefore xs low (min high xs.size) (Nat.min_le_right high xs.size)
  if ← isBeforeAt isBefore xs hint then
    let (last, next) ← stride (fun d => isBeforeAt isBefore xs (hint + d)) (xs.size - hint) 0 1
    between (hint + last + 1) (hint + next)
  else
    let (last, next) ←
      stride (fun d => return !(← isBeforeAt isBefore xs (hint - d))) (hint + 1) 0 1
    between (hint + 1 - next) (hint - last)

end ClusterBalance.Sorting
