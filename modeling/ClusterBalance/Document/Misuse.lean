/-! What goes wrong where a value is used as something that it is not: asked for what it does not
have, compared with a value of another kind, or taken for a number. -/

namespace ClusterBalance

/-- The relations of an order. -/
inductive Comparator where
  | less
  | atMost
  | more
  | atLeast
  deriving DecidableEq, Repr

namespace Comparator

/-- The sign of a relation. -/
def sign : Comparator → String
  | less => "<"
  | atMost => "<="
  | more => ">"
  | atLeast => ">="

/-- Whether a relation holds of two values, from how they compare. -/
def admits : Comparator → Ordering → Bool
  | less, o => o.isLT
  | atMost, o => o.isLE
  | more, o => o.isGT
  | atLeast, o => o.isGE

end Comparator

/-- A wrong use of a value, with the words for the kinds of the values in it. -/
inductive Misuse where
  | noMember (kind member : String)
  | notOrdered (comparator : Comparator) (left right : String)
  | noQuotient (dividend divisor : String)
  | notHashable (kind : String)
  | notIterable (kind : String)
  | notReal (kind : String)
  | notStart (kind : String)
  deriving DecidableEq, Repr

/-- The text of a misuse. -/
def Misuse.message : Misuse → String
  | noMember kind member => "'" ++ kind ++ "' object has no attribute '" ++ member ++ "'"
  | notOrdered comparator left right =>
    "'" ++ comparator.sign ++ "' not supported between instances of '" ++ left ++ "' and '" ++
      right ++ "'"
  | noQuotient dividend divisor =>
    "unsupported operand type(s) for /: '" ++ dividend ++ "' and '" ++ divisor ++ "'"
  | notHashable kind => "unhashable type: '" ++ kind ++ "'"
  | notIterable kind => "'" ++ kind ++ "' object is not iterable"
  | notReal kind => "must be real number, not " ++ kind
  | notStart kind => "startswith first arg must be str or a tuple of str, not " ++ kind

end ClusterBalance
