import ClusterBalance.Decimal.Mixed
import ClusterBalance.Document
import ClusterBalance.Document.Misuse

/-! How documents compare. Numbers and truth values compare by their exact values, texts by the
numbers of their symbols, and lists by the first items that differ; objects are equal if they have
equal fields in any order. Other values are not ordered. -/

namespace ClusterBalance

/-- How two texts compare. -/
def LooseText.order (s t : LooseText) : Ordering := List.compareLex compare s.codes t.codes

namespace Document

open Decimal (Mixed)

/-- The number that a value is, where truth values count as one and zero. -/
def mixed? : Document → Option Mixed
  | bool b => some (.whole (if b then 1 else 0))
  | int n => some (.whole n)
  | float x => some (.double x)
  | _ => none

/-- Whether two numbers are equal. -/
def sameNumber (a b : Document) : Bool :=
  match a.mixed?, b.mixed? with
  | some x, some y => x.compare? y == some .eq
  | _, _ => false

mutual

/-- Whether two values are equal. -/
def equals : Document → Document → Bool
  | null, null => true
  | string s, string t => s = t
  | moment m, moment n => m = n
  | list xs, list ys => itemsEqual xs ys
  | object fs, object gs => fs.length = gs.length && fieldsIn gs fs
  | a, b => sameNumber a b

/-- Whether the items of two lists are equal, one by one. -/
def itemsEqual : List Document → List Document → Bool
  | [], [] => true
  | x :: xs, y :: ys => equals x y && itemsEqual xs ys
  | _, _ => false

/-- Whether each of some fields is among those of another object. -/
def fieldsIn (others : List (LooseText × Document)) : List (LooseText × Document) → Bool
  | [] => true
  | (key, value) :: rest =>
    (match find? key others with
      | some other => equals value other
      | none => false) && fieldsIn others rest

end

mutual

/-- Whether a relation holds between two values. -/
def holds (comparator : Comparator) : Document → Document → Except Misuse Bool
  | string s, string t => .ok (comparator.admits (s.order t))
  | list xs, list ys => itemsHold comparator xs ys
  | a, b =>
    match a.mixed?, b.mixed? with
    | some x, some y => .ok ((x.compare? y).any comparator.admits)
    | _, _ => .error (.notOrdered comparator a.kindName b.kindName)

/-- Whether a relation holds between two lists: the first items that differ decide, or else the
lengths. -/
def itemsHold (comparator : Comparator) :
    List Document → List Document → Except Misuse Bool
  | x :: xs, y :: ys => if equals x y then itemsHold comparator xs ys else holds comparator x y
  | xs, ys => .ok (comparator.admits (compare xs.length ys.length))

end

/-- Whole numbers compare as such. -/
theorem holds_int (comparator : Comparator) (m n : Int) :
    holds comparator (.int m) (.int n) = .ok (comparator.admits (compare m n)) := by
  simp only [holds, mixed?, Decimal.Mixed.compare?, Decimal.Mixed.le]
  rcases Int.lt_trichotomy m n with h | h | h
  · simp [Int.compare_eq_lt.2 h, Int.le_of_lt h, Int.not_le.2 h]
  · simp [h]
  · simp [Int.compare_eq_gt.2 h, Int.le_of_lt h, Int.not_le.2 h]

/-- Whole numbers are equal as such. -/
theorem equals_int (m n : Int) : equals (.int m) (.int n) = decide (m = n) := by
  simp only [equals, sameNumber, mixed?, Decimal.Mixed.compare?, Decimal.Mixed.le]
  rcases Int.lt_trichotomy m n with h | h | h
  · simp [Int.le_of_lt h, Int.not_le.2 h, Int.ne_of_lt h]
  · simp [h]
  · simp [Int.le_of_lt h, Int.not_le.2 h, (Int.ne_of_lt h).symm]

/-- A value has to be one by which things can be looked up. -/
def requireHashable : Document → Except Misuse Unit
  | value@(list _) | value@(object _) => .error (.notHashable value.kindName)
  | _ => .ok ()

/-- The parts of a value, one after another: the items of a list, the characters of a text, or the
keys of an object. -/
def elements : Document → Except Misuse (List Document)
  | list items => .ok items
  | string s => .ok (s.symbols.map fun symbol => string (.ofSymbols [symbol]))
  | object fields => .ok (fields.map fun (key, _) => string key)
  | other => .error (.notIterable other.kindName)

end Document

end ClusterBalance
