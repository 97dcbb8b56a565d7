/-! Control sequences of terminals, as they set colours and move the cursor, and texts without
them. -/

namespace ClusterBalance.Text

/-- The characters of the parameters of a sequence. -/
def isParameter (c : Char) : Bool := '0' ≤ c && c ≤ '?'

/-- The characters between the parameters of a sequence and its end. -/
def isIntermediate (c : Char) : Bool := ' ' ≤ c && c ≤ '/'

/-- The characters that end a sequence. -/
def isFinal (c : Char) : Bool := '@' ≤ c && c ≤ '~'

/-- What follows a control sequence at the start of a text, if there is one. -/
def afterSequence? : List Char → Option (List Char)
  | '\x1b' :: '[' :: rest =>
    match (rest.dropWhile isParameter).dropWhile isIntermediate with
    | final :: after => if isFinal final then some after else none
    | [] => none
  | _ => none

/-- The characters that stand in no control sequence, behind some that are to be skipped. -/
def plainFrom : Nat → List Char → List Char
  | _, [] => []
  | skipped + 1, _ :: cs => plainFrom skipped cs
  | 0, c :: cs =>
    match afterSequence? (c :: cs) with
    | some rest => plainFrom (cs.length - rest.length) cs
    | none => c :: plainFrom 0 cs

/-- A text without control sequences. -/
def plain (s : String) : String := String.ofList (plainFrom 0 s.toList)

end ClusterBalance.Text
