/-! Breaking a sentence into lines of a limited width, between its words. -/

namespace ClusterBalance.Text

/-- The words of a sentence, each with the spaces behind it. -/
def words (cs : List Char) : List (List Char) :=
  cs.splitBy fun a b => !(a == ' ' && b != ' ')

/-- A word without the spaces behind it. -/
def bare (word : List Char) : List Char := (word.reverse.dropWhile (· = ' ')).reverse

/-- A line without the spaces at its end that do not fit. -/
def trimEnd (width : Nat) (line : List Char) : List Char :=
  if line.length ≤ width then line
  else line.take (max width (bare line).length)

/-- Lines of words: a word that does not fit behind the others starts a new line. -/
def fill (width : Nat) (line : List Char) : List (List Char) → List (List Char)
  | [] => [line]
  | word :: rest =>
    if line.length + (bare word).length ≤ width ∨ line.isEmpty then
      fill width (line ++ word) rest
    else line :: fill width word rest

/-- The lines of a sentence. A space at the end of a line stays where it fits. -/
def wrap (width : Nat) (s : String) : List String :=
  (fill width [] (words s.toList)).map fun line => String.ofList (trimEnd width line)

end ClusterBalance.Text
