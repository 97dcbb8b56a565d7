/-! What keeps a text from being read as a document. -/

namespace ClusterBalance.Document

/-- Why a text is not read: it breaks the grammar, it has a whole number of too many digits, or it
nests too deep, with the words for what it was that did. -/
inductive ReadError where
  | malformed
  | tooManyDigits (count : Nat)
  | tooDeep (occasion : String)
  deriving DecidableEq, Repr

/-- Whole numbers have at most this many digits where their size is not bounded otherwise. -/
def maxWholeDigits : Nat := 4300

/-- The least whole number with too many digits. -/
def digitLimit : Nat := Nat.pow 10 maxWholeDigits

/-- What is said about too many digits. -/
def digitLimitText : String :=
  "Exceeds the limit (" ++ toString maxWholeDigits ++ " digits) for integer string conversion"

/-- What is said to be done about too many digits. -/
def digitLimitAdvice : String := "; use sys.set_int_max_str_digits() to increase the limit"

/-- What is said about too many levels. -/
def depthLimitText : String := "maximum recursion depth exceeded"

/-- The text of an error, apart from what the grammar has to say. -/
def ReadError.message : ReadError → String
  | malformed => "malformed text"
  | tooManyDigits count =>
    digitLimitText ++ ": value has " ++ toString count ++ " digits" ++ digitLimitAdvice
  | tooDeep occasion => depthLimitText ++ occasion

/-- Something that has to be there. -/
def required {β : Type} : Option β → Except ReadError β
  | some x => .ok x
  | none => .error .malformed

/-- Checks the number of digits of a whole number. -/
def checkDigits (digits : List Char) : Except ReadError Unit :=
  if digits.length ≤ maxWholeDigits then .ok () else .error (.tooManyDigits digits.length)

end ClusterBalance.Document
