import ClusterBalance.Cluster.Snapshot

/-! Clusters with the amounts that they were given. A whole number is kept as it is until it is
added to something. Vectors are added up from zeros that are doubles, and so are the sums; what the
brokers of a host have of a resource is added up from a whole zero, by rules for lists of numbers of
both kinds. -/

namespace ClusterBalance

open Decimal (Mixed)

section Map

variable {α β : Type} (f : α → β)

/-- Changes the amounts of a replica. -/
def Replica.map (r : Replica α) : Replica β := { r with load := PerResource.map f r.load }

/-- Changes the amounts of a broker. -/
def Broker.map (b : Broker α) : Broker β :=
  { b with
    capacity := PerResource.map f b.capacity
    replicas := b.replicas.map (Replica.map f) }

/-- Changes the amounts of the brokers of a host. -/
def Host.map (h : Host α) : Host β := { h with brokers := h.brokers.map (Broker.map f) }

/-- Changes the amounts of a cluster. -/
def Cluster.map (c : Cluster α) : Cluster β := { c with brokers := c.brokers.map (Broker.map f) }

end Map

namespace Decimal.Mixed

/-- Whether a whole number fits the machine words in which a sum begins. -/
def isLong (n : Int) : Bool := -0x8000000000000000 ≤ n && n < 0x8000000000000000

/-- The sum of two numbers: exact for whole numbers, else rounded. A whole number can be too large
to be added to a double. -/
def plus? : Mixed → Mixed → Option Mixed
  | whole m, whole n => some (whole (m + n))
  | a, b => do return double ((← a.toFloat?) + (← b.toFloat?))

/-- What a sum has come to: a machine word as long as the numbers are whole, and a running total of
doubles from the first double on. A number that is too long for a word ends both, and from there on
the numbers are added one by one. -/
inductive Subtotal where
  | word (n : Int)
  | running (t : RunningTotal)
  | single (a : Mixed)

namespace Subtotal

/-- Adds a number. What is rounded off is kept when a double is added to a running total, but not
when a whole number is. -/
def add? : Subtotal → Mixed → Option Subtotal
  | word m, whole n =>
    some (if isLong n && isLong (m + n) then word (m + n) else single (whole (m + n)))
  | word m, double x => some (running ⟨x + nearestRatio m 1, 0.0⟩)
  | running t, double x => some (running (t.add x))
  | running t, whole n =>
    if isLong n then some (running { t with total := t.total + nearestRatio n 1 })
    else ((double t.result).plus? (whole n)).map single
  | single a, b => (a.plus? b).map single

/-- The number that was come to. -/
def result : Subtotal → Mixed
  | word n => whole n
  | running t => double t.result
  | single a => a

end Subtotal

/-- The sum of numbers, unless a whole number is too large for the double that it is added to. -/
def total? (xs : List Mixed) : Option Mixed :=
  (xs.foldlM Subtotal.add? (.word 0)).map Subtotal.result

end Decimal.Mixed

/-- The sum of vectors as they were given. -/
def LoadVector.sumGiven (vs : List (LoadVector Mixed)) : LoadVector Float :=
  vs.foldl (fun total v => PerResource.ofFn fun r => total.get r + (v.get r).nearest) empty

/-- The load of all replicas. -/
def Broker.givenLoad (b : Broker Mixed) : LoadVector Float :=
  LoadVector.sumGiven (b.replicas.map (·.load))

namespace Host

/-- What the brokers of a host use of a resource. -/
def givenLoad (h : Host Mixed) (r : Resource) : Float :=
  Scalar.total (h.brokers.map fun b => b.givenLoad.get r)

/-- What the brokers of a host have of a resource. -/
def givenCapacity? (h : Host Mixed) (r : Resource) : Option Mixed :=
  Mixed.total? (h.brokers.map fun b => b.capacity.get r)

end Host

namespace Cluster

variable (c : Cluster Mixed)

/-- The load a broker would carry if it led every partition it hosts. -/
def givenPotentialLoad (b : Broker Mixed) : LoadVector Float :=
  LoadVector.sumGiven (b.replicas.map (leadershipLoad c.leaders))

/-- The load of all brokers, dead ones included. -/
def givenLoad : LoadVector Float := LoadVector.sum (c.brokers.map (·.givenLoad))

/-- The capacity of all brokers, dead ones included. -/
def givenCapacity : LoadVector Float := LoadVector.sumGiven (c.brokers.map (·.capacity))

/-- The loads of the brokers that are alive. -/
def givenLoadMatrix : List (LoadVector Float) := c.aliveBrokers.map (·.givenLoad)

end Cluster

end ClusterBalance
