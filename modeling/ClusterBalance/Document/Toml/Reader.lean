import ClusterBalance.Decimal.Reader
import ClusterBalance.Document.Json.Reader
import ClusterBalance.Document.Toml.Moment
import ClusterBalance.Document.Toml.Tables

/-! Reading documents from TOML text. -/

namespace ClusterBalance.Document.Toml

open Decimal (spanDigits digitsValue)

/-- White space on one line. -/
def isBlank (c : Char) : Bool := c = ' ' ∨ c = '\t'

/-- Drops white space on one line. -/
def skip (cs : List Char) : List Char := cs.dropWhile isBlank

/-- Control characters may not stand in strings and comments; the tab may. -/
def isControl (c : Char) : Bool := (c.toNat < 0x20 && c != '\t') || c.toNat = 0x7F

/-- The characters of a key without quotes. -/
def isKeyChar (c : Char) : Bool := c.isAlphanum || c = '-' || c = '_'

/-- Digits, where single underscores may stand between two of them; and the rest. -/
def spanGrouped (isDigit : Char → Bool) : List Char → List Char × List Char
  | [] => ([], [])
  | [c] => if isDigit c then ([c], []) else ([], [c])
  | c :: d :: rest =>
    if isDigit c then
      if d = '_' ∧ rest.head?.any isDigit then
        let (digits, after) := spanGrouped isDigit rest
        (c :: digits, after)
      else
        let (digits, after) := spanGrouped isDigit (d :: rest)
        (c :: digits, after)
    else ([], c :: d :: rest)

/-- A comment at the start of a text is dropped up to the end of its line. -/
def skipComment? : List Char → Option (List Char)
  | '#' :: rest =>
    let body := rest.takeWhile (· != '\n')
    if body.any isControl then none else some (rest.dropWhile (· != '\n'))
  | cs => some cs

/-- Drops white space, line ends and comments inside a list. -/
def skipInList? : Nat → List Char → Option (List Char)
  | 0, cs => some cs
  | fuel + 1, cs =>
    match cs.dropWhile fun c => isBlank c || c = '\n' with
    | '#' :: rest => do skipInList? fuel (← skipComment? ('#' :: rest))
    | after => some after

/-- A number of hexadecimal digits as a character, and the rest. -/
def hexChar? (width : Nat) (cs : List Char) : Option (Char × List Char) := do
  let digits := cs.take width
  if digits.length < width then none
  else do
    let values ← digits.mapM Json.hexValue?
    let n := values.foldl (fun n d => 16 * n + d) 0
    if n.isValidChar then some (Char.ofNat n, cs.drop width) else none

/-- The character of an escape, behind its backslash. -/
def escape? : List Char → Option (Char × List Char)
  | 'u' :: rest => hexChar? 4 rest
  | 'U' :: rest => hexChar? 8 rest
  | '/' :: _ => none
  | c :: rest => (Json.simpleEscape? c).map (·, rest)
  | [] => none

/-- A string in double quotes on one line, behind its opening quote. -/
def basicBody? : Nat → List Char → Option (List Char × List Char)
  | 0, _ => none
  | _, [] => none
  | _, '"' :: rest => some ([], rest)
  | fuel + 1, '\\' :: rest => do
    let (c, after) ← escape? rest
    let (body, after) ← basicBody? fuel after
    return (c :: body, after)
  | fuel + 1, c :: rest => do
    if isControl c then none
    else
      let (body, after) ← basicBody? fuel rest
      return (c :: body, after)

/-- A string in single quotes on one line, behind its opening quote. -/
def literalBody? (cs : List Char) : Option (List Char × List Char) :=
  let body := cs.takeWhile (· != '\'')
  match cs.dropWhile (· != '\'') with
  | _ :: rest => if body.any isControl then none else some (body, rest)
  | [] => none

/-- What follows a backslash at the end of a line: the white space up to the next text is
dropped. -/
def continuation? (cs : List Char) : Option (List Char) :=
  match skip cs with
  | '\n' :: rest => some (rest.dropWhile fun c => isBlank c || c = '\n')
  | [] => some []
  | _ => none

/-- Up to two more quotes belong to the text of a string over several lines. -/
def extraQuotes (quote : Char) : List Char → List Char × List Char
  | a :: b :: rest =>
    if a = quote ∧ b = quote then ([a, b], rest)
    else if a = quote then ([a], b :: rest)
    else ([], a :: b :: rest)
  | [a] => if a = quote then ([a], []) else ([], [a])
  | [] => ([], [])

/-- A string in double quotes over several lines, behind its opening quotes. -/
def longBasicBody? : Nat → List Char → Option (List Char × List Char)
  | 0, _ => none
  | _, [] => none
  | _, '"' :: '"' :: '"' :: rest => some (extraQuotes '"' rest)
  | fuel + 1, '\\' :: rest => do
    if rest.head?.any fun c => isBlank c || c = '\n' then
      longBasicBody? fuel (← continuation? rest)
    else
      let (c, after) ← escape? rest
      let (body, after) ← longBasicBody? fuel after
      return (c :: body, after)
  | fuel + 1, c :: rest => do
    if isControl c && c != '\n' then none
    else
      let (body, after) ← longBasicBody? fuel rest
      return (c :: body, after)

/-- A string in single quotes over several lines, behind its opening quotes. -/
def longLiteralBody? : List Char → Option (List Char × List Char)
  | [] => none
  | '\'' :: '\'' :: '\'' :: rest => some (extraQuotes '\'' rest)
  | c :: rest =>
    if isControl c && c != '\n' then none
    else (longLiteralBody? rest).map fun (body, after) => (c :: body, after)

/-- A line end right behind the opening quotes is not part of the text. -/
def dropLineEnd : List Char → List Char
  | '\n' :: rest => rest
  | cs => cs

/-- A string at the start of a text. -/
def string? : List Char → Option (List Char × List Char)
  | '"' :: '"' :: '"' :: rest =>
    let cs := dropLineEnd rest
    longBasicBody? (cs.length + 1) cs
  | '"' :: rest => basicBody? (rest.length + 1) rest
  | '\'' :: '\'' :: '\'' :: rest => longLiteralBody? (dropLineEnd rest)
  | '\'' :: rest => literalBody? rest
  | _ => none

/-- One part of a key. -/
def keyPart? : List Char → Option (String × List Char)
  | '"' :: rest => (basicBody? (rest.length + 1) rest).map fun (s, r) => (String.ofList s, r)
  | '\'' :: rest => (literalBody? rest).map fun (s, r) => (String.ofList s, r)
  | cs =>
    let name := cs.takeWhile isKeyChar
    if name.isEmpty then none else some (String.ofList name, cs.dropWhile isKeyChar)

/-- A key of one part or several with dots between them, and the white space behind it. -/
def key? : Nat → List Char → Option (Path × List Char)
  | 0, _ => none
  | fuel + 1, cs => do
    let (part, after) ← keyPart? cs
    match skip after with
    | '.' :: rest =>
      let (parts, after) ← key? fuel (skip rest)
      return (part :: parts, after)
    | after => return ([part], after)

/-- A whole number behind a zero and the letter of its base. -/
def basedNumber? (base : Char) (cs : List Char) : Option (Document × List Char) :=
  let radix := if base = 'x' then 16 else if base = 'o' then 8 else 2
  let isDigit := fun c : Char => (Json.hexValue? c).any (· < radix)
  let (digits, rest) := spanGrouped isDigit cs
  if digits.isEmpty then none
  else
    let value := digits.foldl (fun n c => radix * n + (Json.hexValue? c).getD 0) 0
    some (.int value, rest)

/-- A sign at the start of a number: whether there is one, whether it is a minus, and the rest. -/
def spanSign : List Char → Bool × Bool × List Char
  | '-' :: rest => (true, true, rest)
  | '+' :: rest => (true, false, rest)
  | cs => (false, false, cs)

/-- The digits before the point. -/
def wholeDigits? : List Char → Option (List Char × List Char)
  | '0' :: rest => some (['0'], rest)
  | cs =>
    let (digits, rest) := spanGrouped Char.isDigit cs
    if digits.isEmpty then none else some (digits, rest)

/-- The digits behind the point, if there are any. -/
def partDigits? : List Char → Option (List Char × List Char)
  | '.' :: rest =>
    let (digits, after) := spanGrouped Char.isDigit rest
    if digits.isEmpty then none else some (digits, after)
  | _ => none

/-- An exponent, if there is one. -/
def exponent? : List Char → Option (Int × List Char)
  | c :: cs =>
    if c = 'e' ∨ c = 'E' then
      let (_, negative, unsigned) := spanSign cs
      let (digits, after) := spanGrouped Char.isDigit unsigned
      if digits.isEmpty then none
      else some (if negative then -(digitsValue digits : Int) else digitsValue digits, after)
    else none
  | [] => none

/-- A whole number in decimal digits. -/
def wholeNumber (negative : Bool) (digits : List Char) : Except ReadError Document := do
  checkDigits digits
  let n : Int := digitsValue digits
  return .int (if negative then -n else n)

/-- A number in decimal digits behind its sign, and the rest. Its digits may be too many. -/
def decimal? (negative : Bool) (cs : List Char) :
    Option (Except ReadError Document × List Char) := do
  let (whole, afterWhole) ← wholeDigits? cs
  let part := partDigits? afterWhole
  let afterPart := (part.map (·.2)).getD afterWhole
  let exponent := exponent? afterPart
  let rest := (exponent.map (·.2)).getD afterPart
  if part.isNone && exponent.isNone then
    return (wholeNumber negative whole, rest)
  else
    let digits := (part.map (·.1)).getD []
    let scale := (exponent.map (·.1)).getD 0
    return (.ok (.float (Decimal.ofParts negative whole digits scale)), rest)

/-- The special numbers, behind their sign. -/
def special? (negative : Bool) : List Char → Option (Document × List Char)
  | 'i' :: 'n' :: 'f' :: rest =>
    some (.float (Decimal.ofMagnitude negative Decimal.infinityBits), rest)
  | 'n' :: 'a' :: 'n' :: rest => some (.float (0.0 / 0.0), rest)
  | _ => none

/-- A truth value at the start of a text, and the rest. -/
def boolean? : List Char → Option (Document × List Char)
  | 't' :: 'r' :: 'u' :: 'e' :: rest => some (.bool true, rest)
  | 'f' :: 'a' :: 'l' :: 's' :: 'e' :: rest => some (.bool false, rest)
  | _ => none

/-- A number whose digits name another base than ten, and the rest. -/
def based? : List Char → Option (Document × List Char)
  | '0' :: base :: rest =>
    if base = 'x' ∨ base = 'o' ∨ base = 'b' then basedNumber? base rest else none
  | _ => none

/-- A moment as a value, and the rest. -/
def momentValue? (cs : List Char) : Option (Document × List Char) :=
  (moment? cs).map fun (m, rest) => (.moment m, rest)

/-- A value other than a string, a list or a table, and the rest. -/
def scalar (cs : List Char) : Except ReadError (Document × List Char) :=
  let (_, negative, unsigned) := spanSign cs
  match (boolean? cs).or ((momentValue? cs).or (based? cs)) with
  | some found => .ok found
  | none =>
    match decimal? negative unsigned with
    | some (number, rest) => do return (← number, rest)
    | none => required (special? negative unsigned)

/-- The room left inside a list or a table, which takes some steps of it and needs a few more for
what it starts with. -/
def inside (steps start room : Nat) : Except ReadError Nat :=
  if room < steps + start then .error (.tooDeep "") else .ok (room - steps)

/-- The room left inside a list. -/
def insideList (room : Nat) : Except ReadError Nat := inside 2 2 room

/-- The room left inside an inline table. -/
def insideTable (room : Nat) : Except ReadError Nat := inside 3 3 room

mutual

/-- A value at the start of a text, and the rest. -/
def value : Nat → Nat → List Char → Except ReadError (Document × List Char)
  | 0, _, _ => .error .malformed
  | fuel + 1, room, cs =>
    match cs with
    | '[' :: rest => do
      let room ← insideList room
      match ← required (skipInList? rest.length rest) with
      | ']' :: after => return (.list [], after)
      | after =>
        let (items, after) ← items fuel room after
        return (.list items, after)
    | '\x7b' :: rest => do
      let room ← insideTable room
      match skip rest with
      | '\x7d' :: after => return (.object [], after)
      | after =>
        let (fields, after) ← inlineFields fuel room {} after
        return (.object fields, after)
    | '"' :: _ | '\'' :: _ => do
      let (body, after) ← required (string? cs)
      return (.string (.sound (String.ofList body)), after)
    | _ => scalar cs

/-- The items of a list up to its closing bracket, and the rest. A comma may stand behind the last
item. -/
def items : Nat → Nat → List Char → Except ReadError (List Document × List Char)
  | 0, _, _ => .error .malformed
  | fuel + 1, room, cs => do
    let (item, after) ← value fuel room cs
    match ← required (skipInList? after.length after) with
    | ']' :: rest => return ([item], rest)
    | ',' :: rest =>
      match ← required (skipInList? rest.length rest) with
      | ']' :: after => return ([item], after)
      | after =>
        let (more, after) ← items fuel room after
        return (item :: more, after)
    | _ => .error .malformed

/-- The fields of an inline table up to its closing brace, and the rest. -/
def inlineFields :
    Nat → Nat → InlineTable → List Char → Except ReadError (Fields × List Char)
  | 0, _, _, _ => .error .malformed
  | fuel + 1, room, table, cs => do
    let (key, after) ← required (key? (cs.length + 1) cs)
    match after with
    | '=' :: rest =>
      let (value, after) ← value fuel room (skip rest)
      let table ← required (table.addField? key value)
      match skip after with
      | '\x7d' :: rest => return (table.fields, rest)
      | ',' :: rest => inlineFields fuel room table (skip rest)
      | _ => .error .malformed
    | _ => .error .malformed

end

/-- A header in double brackets, behind them. -/
def listHeader? (t : Tables) (cs : List Char) : Option (Tables × List Char) := do
  let (key, after) ← key? (cs.length + 1) (skip cs)
  let t ← t.settle.openListTable? key
  match after with
  | ']' :: ']' :: rest => return (t, rest)
  | _ => none

/-- A header in single brackets, behind them. -/
def tableHeader? (t : Tables) (cs : List Char) : Option (Tables × List Char) := do
  let (key, after) ← key? (cs.length + 1) (skip cs)
  let t ← t.settle.openTable? key
  match after with
  | ']' :: rest => return (t, rest)
  | _ => none

variable [Limits]

/-- A key and its value. -/
def field (t : Tables) (cs : List Char) : Except ReadError (Tables × List Char) := do
  let (key, after) ← required (key? (cs.length + 1) cs)
  match after with
  | '=' :: rest =>
    let (value, after) ← value (2 * rest.length + 2) Limits.tomlSteps (skip rest)
    return (← required (t.addField? key value), after)
  | _ => .error .malformed

/-- The statement at the start of a text, if there is one. -/
def statement (t : Tables) (cs : List Char) : Except ReadError (Tables × List Char) :=
  match cs with
  | '[' :: '[' :: rest => required (listHeader? t rest)
  | '[' :: rest => required (tableHeader? t rest)
  | '#' :: _ => .ok (t, cs)
  | _ => field t cs

/-- The statements of a text, one on a line. -/
def statements : Nat → Tables → List Char → Except ReadError Tables
  | 0, _, _ => .error .malformed
  | fuel + 1, t, cs =>
    match skip cs with
    | [] => .ok t
    | '\n' :: rest => statements fuel t rest
    | cs => do
      let (t, after) ← statement t cs
      match ← required (skipComment? (skip after)) with
      | [] => return t
      | '\n' :: rest => statements fuel t rest
      | _ => .error .malformed

/-- Line ends of two characters become those of one. -/
def unifyLineEnds : List Char → List Char
  | '\r' :: '\n' :: rest => '\n' :: unifyLineEnds rest
  | c :: rest => c :: unifyLineEnds rest
  | [] => []

/-- The fields of the document that a whole text holds. -/
def read (text : String) : Except ReadError Fields := do
  let cs := unifyLineEnds text.toList
  return (← statements (cs.length + 1) {} cs).fields

end ClusterBalance.Document.Toml
