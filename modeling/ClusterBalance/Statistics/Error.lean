import ClusterBalance.Document.Literal
import ClusterBalance.Resource
import ClusterBalance.Scalar

/-! What keeps the statistics of a cluster from being computed: a divisor that is zero, one that
cannot be put into words, a figure that arithmetic cannot give, or statistics that are there
already. -/

namespace ClusterBalance

/-- The divisors of the statistics. -/
inductive Quantity where
  | aliveBrokers
  | topics
  | clusterCapacity (resource : Resource)
  | brokerCapacity (resource : Resource) (broker : Nat)
  deriving DecidableEq, Repr

/-- The words for a divisor. -/
def Quantity.text : Quantity → String
  | aliveBrokers => "alive broker count"
  | topics => "topic count"
  | clusterCapacity r => "cluster " ++ r.wireName ++ " capacity"
  | brokerCapacity r id => r.wireName ++ " capacity of broker " ++ toString id

/-- The words for a divisor, if the id in them has a text. -/
def Quantity.text? : Quantity → Except Document.LiteralError String
  | brokerCapacity r id => do
    return r.wireName ++ " capacity of broker " ++ (← Document.wholeText? id)
  | quantity => .ok quantity.text

/-- Why statistics are not there. -/
inductive StatsError where
  | degenerate (quantity : Quantity)
  | alreadyFilled
  | arithmetic (cause : ArithmeticError)
  | tooManyDigits
  deriving DecidableEq, Repr

/-- The kinds of notice about statistics. -/
inductive NoticeKind where
  | general
  | degenerate
  | alreadyFilled
  deriving DecidableEq, Repr

/-- What a notice says when nothing else is given. -/
def NoticeKind.defaultText : NoticeKind → String
  | general => "Cluster statistics could not be computed"
  | degenerate => "Cluster statistics divisor is zero"
  | alreadyFilled => "Cluster model statistics can only be populated once"

/-- The text of a notice. A degenerate cluster's notice names the divisor, if one is given, whatever
else is said. -/
def noticeText (kind : NoticeKind) (message : Option String) (quantity : String) : String :=
  if kind = .degenerate ∧ quantity ≠ "" then
    "Cannot compute cluster statistics: " ++ quantity ++ " is zero"
  else message.getD kind.defaultText

/-- The class of an arithmetic error. -/
def ArithmeticError.errorClass : ArithmeticError → ErrorClass
  | negativeRoot => .invalidValue
  | _ => .overflow

namespace StatsError

/-- The class of an error. -/
def errorClass : StatsError → ErrorClass
  | degenerate _ => .degenerateCluster
  | alreadyFilled => .alreadyFilled
  | arithmetic cause => cause.errorClass
  | tooManyDigits => Document.LiteralError.tooManyDigits.errorClass

/-- The text of an error. -/
def message : StatsError → String
  | degenerate quantity => noticeText .degenerate none quantity.text
  | alreadyFilled => noticeText .alreadyFilled none ""
  | arithmetic cause => cause.message
  | tooManyDigits => Document.LiteralError.tooManyDigits.message

/-- The words for a divisor among the statistics. -/
def words (quantity : Quantity) : Except StatsError String :=
  match quantity.text? with
  | .ok text => .ok text
  | .error _ => .error .tooManyDigits

/-- The capacity of a broker has words if its id has a text. -/
theorem words_brokerCapacity (r : Resource) (id : Nat) :
    words (.brokerCapacity r id) =
      if id < Document.digitLimit then .ok (Quantity.brokerCapacity r id).text
      else .error .tooManyDigits := by
  rw [words, Quantity.text?, Document.wholeText?, Int.natAbs_natCast]
  by_cases hid : id < Document.digitLimit
  · rw [if_pos hid, if_pos hid]
    rfl
  · rw [if_neg hid, if_neg hid]
    rfl

/-- An arithmetic result among the statistics. -/
def lift {β : Type} : Except ArithmeticError β → Except StatsError β
  | .ok x => .ok x
  | .error cause => .error (.arithmetic cause)

end StatsError

end ClusterBalance
