import ClusterBalance.Resource

/-! The statistics of a measured quantity. -/

namespace ClusterBalance

/-- The statistics that are computed of every quantity. -/
inductive Statistic where
  | average
  | maximum
  | minimum
  | deviation
  deriving DecidableEq, Repr

namespace Statistic

/-- The statistics, in the order of every table. -/
def all : List Statistic := [average, maximum, minimum, deviation]

/-- The key in structured reports. -/
def key : Statistic → String
  | average => "AVG"
  | maximum => "MAX"
  | minimum => "MIN"
  | deviation => "STD"

/-- The label in the plain text report. -/
def label : Statistic → String
  | deviation => "ST_DEV"
  | other => other.key

end Statistic

/-- The statistics of one quantity. The extremes are values of the quantity itself, which may be of
another kind than its average. -/
structure Spread (α β : Type) where
  average : α
  maximum : β
  minimum : β
  deviation : α
  deriving BEq, DecidableEq, Repr

/-- The statistics under one function for averages and deviations and one for extremes. -/
def Spread.get {α β γ : Type} (s : Spread α β) (mean : α → γ) (extreme : β → γ) : Statistic → γ
  | .average => mean s.average
  | .maximum => extreme s.maximum
  | .minimum => extreme s.minimum
  | .deviation => mean s.deviation

end ClusterBalance
