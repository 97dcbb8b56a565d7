/-! How much two texts have in common, and which known words a misspelled one is close to. The
common part of two texts is their longest shared run of characters, with the common parts of what
stands to its left and to its right. -/

namespace ClusterBalance.Text

/-- A run of characters that two texts share: where it starts in the first and in the second, and
its length. -/
structure SharedRun where
  left : Nat
  right : Nat
  size : Nat
  deriving DecidableEq, Repr

namespace SharedRun

/-- The longer run; the first, unless the second is strictly longer. -/
def longer (r s : SharedRun) : SharedRun := if r.size < s.size then s else r

/-- The run as part of a first text with one more character in front. -/
def afterLeft (r : SharedRun) : SharedRun := { r with left := r.left + 1 }

/-- The run as part of a second text with one more character in front. -/
def afterRight (r : SharedRun) : SharedRun := { r with right := r.right + 1 }

end SharedRun

/-- The number of characters that two texts share at their starts. -/
def sharedStart : List Char → List Char → Nat
  | a :: as, b :: bs => if a = b then sharedStart as bs + 1 else 0
  | _, _ => 0

/-- The longest run of the second text that the first text starts with; the earliest of them. -/
def startRun (as : List Char) : List Char → SharedRun
  | [] => ⟨0, 0, 0⟩
  | b :: bs => SharedRun.longer ⟨0, 0, sharedStart as (b :: bs)⟩ (startRun as bs).afterRight

/-- The longest shared run of two texts; of several, the earliest in the first text, and then the
earliest in the second. -/
def sharedRun : List Char → List Char → SharedRun
  | [], _ => ⟨0, 0, 0⟩
  | a :: as, bs => SharedRun.longer (startRun (a :: as) bs) (sharedRun as bs).afterLeft

/-- The number of characters in the common part of two texts, where the first has at most `fuel`
characters. -/
def commonWithin : Nat → List Char → List Char → Nat
  | 0, _, _ => 0
  | fuel + 1, as, bs =>
    let run := sharedRun as bs
    if run.size = 0 then 0
    else
      commonWithin fuel (as.take run.left) (bs.take run.right) + run.size +
        commonWithin fuel (as.drop (run.left + run.size)) (bs.drop (run.right + run.size))

/-- The number of characters in the common part of two texts. A shared run takes a character of the
first text at least, so its length is fuel enough. -/
def common (as bs : List Char) : Nat := commonWithin as.length as bs

/-- How similar two texts are: twice their common part, as a share of their length together. -/
structure Similarity where
  shared : Nat
  total : Nat
  deriving DecidableEq, Repr

/-- The similarity of two texts. -/
def similarity (s t : String) : Similarity :=
  ⟨2 * common s.toList t.toList, s.length + t.length⟩

namespace Similarity

/-- Texts are close if their common part is three fifths of them. -/
def isClose (x : Similarity) : Bool := 3 * x.total ≤ 5 * x.shared

/-- Whether the first of two similarities is greater. -/
def exceeds (x y : Similarity) : Bool := y.shared * x.total < x.shared * y.total

end Similarity

/-- No more words than these are suggested. -/
def maxSuggestions : Nat := 3

/-- The known words that are closest to a word, in the order of their characters. Of two equally
close ones the greater is preferred. -/
def suggestions (known : List String) (word : String) : List String :=
  let close := (known.map fun k => (k, similarity k word)).filter fun (_, x) => x.isClose
  let ranked := close.mergeSort fun (k, x) (l, y) => x.exceeds y || (!y.exceeds x && l ≤ k)
  ((ranked.take maxSuggestions).map Prod.fst).mergeSort

end ClusterBalance.Text
