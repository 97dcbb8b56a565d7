import ClusterBalance.Decimal.Binary64
import ClusterBalance.Text.Blank
import ClusterBalance.Text.Digit

/-! Reading decimals: the scanning of digits that all number grammars share, and the liberal grammar
in which a number is given on a command line. -/

namespace ClusterBalance.Decimal

/-- The value of a list of decimal digits. -/
def digitsValue (cs : List Char) : Nat :=
  cs.foldl (fun value c => 10 * value + (c.toNat - '0'.toNat)) 0

/-- The digits at the start of a text, and the rest. -/
def spanDigits (cs : List Char) : List Char × List Char :=
  (cs.takeWhile Char.isDigit, cs.dropWhile Char.isDigit)

/-- A minus sign or an optional plus sign at the start of a text, and the rest. -/
def spanSign : List Char → Bool × List Char
  | '-' :: rest => (true, rest)
  | '+' :: rest => (false, rest)
  | cs => (false, cs)

/-- The double nearest to a decimal in its written parts. -/
def ofParts (negative : Bool) (whole part : List Char) (exponent : Int) : Float :=
  ofDecimal negative (digitsValue (whole ++ part)) (exponent - part.length)

/-- An exponent with its mark, if one is at the start of the text. A mark without digits is no
exponent. -/
def spanExponent? : List Char → Option (Int × List Char)
  | [] => none
  | c :: cs =>
    if c = 'e' ∨ c = 'E' then
      let (negative, unsigned) := spanSign cs
      let (digits, rest) := spanDigits unsigned
      if digits.isEmpty then none
      else some (if negative then -(digitsValue digits : Int) else digitsValue digits, rest)
    else none

/-- Digits on at least one side of an optional point, and an optional exponent, up to the end. -/
def readUnsigned? (negative : Bool) (cs : List Char) : Option Float :=
  let (whole, afterWhole) := spanDigits cs
  let (part, afterPart) :=
    match afterWhole with
    | '.' :: rest => spanDigits rest
    | rest => ([], rest)
  let (exponent, rest) := (spanExponent? afterPart).getD (0, afterPart)
  if (whole.isEmpty && part.isEmpty) || !rest.isEmpty then none
  else some (ofParts negative whole part exponent)

/-- Drops the underscores, each of which has to stand between two digits. -/
def dropSeparators? : Option Char → List Char → Option (List Char)
  | _, [] => some []
  | before, '_' :: rest =>
    if before.any Char.isDigit && rest.head?.any Char.isDigit then dropSeparators? (some '_') rest
    else none
  | _, c :: rest => (dropSeparators? (some c) rest).map (c :: ·)

/-- Decimal digits of any script become those of ASCII; white space beyond ASCII becomes a space. -/
def asciiForm (c : Char) : Char :=
  if c.toNat < 128 then c
  else if Text.isBlank c then ' '
  else match Text.digitValue? c with
    | some n => Nat.digitChar n
    | none => c

/-- The white space that may surround a number in its ASCII form. -/
def isNumberBlank (c : Char) : Bool := c = ' ' ∨ ('\t' ≤ c ∧ c ≤ '\r')

/-- The body of a number: the words for the special values in any case, or a decimal. -/
def readBody? (negative : Bool) (cs : List Char) : Option Float :=
  let word := cs.map Char.toLower
  if word = "nan".toList then some (0.0 / 0.0)
  else if word = "inf".toList ∨ word = "infinity".toList then
    some (ofMagnitude negative infinityBits)
  else (dropSeparators? none cs).bind (readUnsigned? negative)

/-- The number that a whole text stands for, white space around it aside. -/
def read? (s : String) : Option Float :=
  let ascii := s.toList.map asciiForm
  let trimmed := ((ascii.dropWhile isNumberBlank).reverse.dropWhile isNumberBlank).reverse
  let (negative, body) := spanSign trimmed
  readBody? negative body

end ClusterBalance.Decimal
