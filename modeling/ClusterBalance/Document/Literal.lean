import ClusterBalance.Document
import ClusterBalance.Document.Limits
import ClusterBalance.Document.ReadError
import ClusterBalance.ErrorClass

/-! The texts of documents: the literal one, by which messages quote a value that was given, and
the wording where a text is wanted. Not every document has them: its whole numbers have a bounded
number of digits, and it nests to a bounded depth. -/

namespace ClusterBalance.Document

mutual

/-- The literal text of a value. -/
def literal : Document → String
  | null => "None"
  | bool true => "True"
  | bool false => "False"
  | int n => toString n
  | float x => Decimal.plain.write x
  | string s => s.quoted
  | moment m => m.literal
  | list items => "[" ++ ", ".intercalate (itemLiterals items) ++ "]"
  | object fields => "\x7b" ++ ", ".intercalate (fieldLiterals fields) ++ "\x7d"

/-- The literal texts of the items of a list. -/
def itemLiterals : List Document → List String
  | [] => []
  | item :: rest => literal item :: itemLiterals rest

/-- The literal texts of the fields of an object. -/
def fieldLiterals : List (LooseText × Document) → List String
  | [] => []
  | (key, value) :: rest => (key.quoted ++ ": " ++ literal value) :: fieldLiterals rest

end

/-- The text of a value where a text is wanted: a string is its own, a moment has a plain one, and
for any other value it is the literal. -/
def wording : Document → LooseText
  | string s => s
  | moment m => m.text
  | other => literal other

/-- The text of a value where a text is wanted, as it is shown. -/
def display (value : Document) : String := value.wording.shown

/-- Why a value has no literal text. -/
inductive LiteralError where
  | tooManyDigits
  | tooDeep
  deriving DecidableEq, Repr

namespace LiteralError

/-- The class of an error. -/
def errorClass : LiteralError → ErrorClass
  | tooManyDigits => .invalidValue
  | tooDeep => .tooDeep

/-- The text of an error. -/
def message : LiteralError → String
  | tooManyDigits => digitLimitText ++ digitLimitAdvice
  | tooDeep => depthLimitText ++ " while getting the repr of an object"

end LiteralError

/-- The text of a whole number, if it has one. -/
def wholeText? (n : Int) : Except LiteralError String :=
  if n.natAbs < digitLimit then .ok (toString n) else .error .tooManyDigits

theorem wholeText?_of_lt {n : Int} (h : n.natAbs < digitLimit) :
    wholeText? n = .ok (toString n) := if_pos h

theorem wholeText?_of_le {n : Int} (h : digitLimit ≤ n.natAbs) :
    wholeText? n = .error .tooManyDigits := if_neg (Nat.not_lt.mpr h)

mutual

/-- Checks a value with room for some levels of values. The first part that has no literal text
decides. -/
def checkLiteral : Nat → Document → Except LiteralError Unit
  | 0, _ => .error .tooDeep
  | _ + 1, int n => do let _ ← wholeText? n
  | room + 1, list items => checkItemLiterals room items
  | room + 1, object fields => checkFieldLiterals room fields
  | _ + 1, _ => .ok ()

/-- Checks the items of a list. -/
def checkItemLiterals (room : Nat) : List Document → Except LiteralError Unit
  | [] => .ok ()
  | item :: rest => do
    checkLiteral room item
    checkItemLiterals room rest

/-- Checks the values of the fields of an object. -/
def checkFieldLiterals (room : Nat) : List (LooseText × Document) → Except LiteralError Unit
  | [] => .ok ()
  | (_, value) :: rest => do
    checkLiteral room value
    checkFieldLiterals room rest

end

variable [Limits]

/-- The literal text of a value, if it has one. -/
def literal? (value : Document) : Except LiteralError String := do
  checkLiteral (Limits.literalDepth + 1) value
  return value.literal

/-- The text of a value where a text is wanted, if it has one. -/
def wording? (value : Document) : Except LiteralError LooseText := do
  checkLiteral (Limits.literalDepth + 1) value
  return value.wording

@[simp] theorem wording?_string (t : LooseText) : wording? (string t) = .ok t := rfl

/-- The wording of a whole number is its text. -/
theorem wording?_int (n : Int) : wording? (int n) = LooseText.sound <$> wholeText? n := by
  unfold wording? checkLiteral wholeText?
  split <;> rfl

end ClusterBalance.Document
