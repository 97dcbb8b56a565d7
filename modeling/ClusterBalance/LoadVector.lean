import ClusterBalance.Resource
import ClusterBalance.Scalar

/-! Loads and capacities: an amount of each resource, added resource by resource. -/

namespace ClusterBalance

/-- An amount of each resource. -/
abbrev LoadVector (α : Type) := PerResource α

namespace LoadVector

variable {α : Type} [Scalar α]

/-- Nothing of any resource. -/
def empty : LoadVector α := PerResource.replicate 0

/-- The sum of two vectors. -/
def add (v w : LoadVector α) : LoadVector α := PerResource.ofFn fun r => v.get r + w.get r

/-- The sum of a list of vectors, from the left. -/
def sum (vs : List (LoadVector α)) : LoadVector α := vs.foldl add empty

/-- The first resource whose amount is below zero. -/
def negative? (v : LoadVector α) : Option Resource := Resource.all.find? fun r => v.get r < 0

end LoadVector

end ClusterBalance
