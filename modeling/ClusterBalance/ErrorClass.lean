/-! The classes of errors. A command line reports some classes as errors of its input; the others
end the program. -/

namespace ClusterBalance

/-- The class of an error, apart from its cause. -/
inductive ErrorClass where
  | invalidValue
  | missingKey
  | missingMember
  | wrongType
  | overflow
  | missingFile
  | fileSystem
  | tooDeep
  | malformedJson
  | malformedToml
  | degenerateCluster
  | alreadyFilled
  deriving DecidableEq, Repr

namespace ErrorClass

/-- The name by which logs and answers call a class. -/
def name : ErrorClass → String
  | invalidValue => "ValueError"
  | missingKey => "KeyError"
  | missingMember => "AttributeError"
  | wrongType => "TypeError"
  | overflow => "OverflowError"
  | missingFile => "FileNotFoundError"
  | fileSystem => "OSError"
  | tooDeep => "RecursionError"
  | malformedJson => "JSONDecodeError"
  | malformedToml => "TOMLDecodeError"
  | degenerateCluster => "DegenerateClusterError"
  | alreadyFilled => "StatsAlreadyPopulatedError"

/-- Errors of the statistics themselves. -/
def isStatistical : ErrorClass → Bool
  | degenerateCluster | alreadyFilled => true
  | _ => false

/-- Errors of a value, whatever more is known of them. -/
def isInvalidValue : ErrorClass → Bool
  | invalidValue | malformedJson | malformedToml => true
  | c => c.isStatistical

end ErrorClass

end ClusterBalance
