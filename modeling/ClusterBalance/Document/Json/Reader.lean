import ClusterBalance.Decimal.Reader
import ClusterBalance.Document
import ClusterBalance.Document.Limits
import ClusterBalance.Document.ReadError

/-! Reading documents from JSON text. The readers agree on the grammar and differ in what they do
with numbers that do not fit, and in whether they know the special numbers and halves of surrogate
pairs; a `Dialect` says which. Of a repeated key the last value counts, at the place of the
first. -/

namespace ClusterBalance.Document.Json

/-- The choices of a reader. Whole numbers outside `wholeRange` are read as floats, and without a
range they may not have too many digits; `unbounded` admits the words for the special numbers and
reads a float that is too large as infinite; `halves` admits escapes of half a surrogate pair;
lists and objects nest at most `depth` deep. -/
structure Dialect where
  wholeRange : Option (Int × Int)
  unbounded : Bool
  halves : Bool
  depth : Option Nat

/-- The whole numbers that fit a signed or an unsigned word of 64 bits. -/
def wordRange : Int × Int := (-0x8000000000000000, 0xFFFFFFFFFFFFFFFF)

/-- Snapshots are read strictly. -/
def strict : Dialect := ⟨some wordRange, false, false, some 1024⟩

/-- Settings are read with whole numbers of any size, the special numbers and halves. -/
def lenient [Limits] : Dialect := ⟨none, true, true, some Limits.jsonDepth⟩

/-- White space between tokens. -/
def isBlank (c : Char) : Bool := c = ' ' ∨ c = '\t' ∨ c = '\n' ∨ c = '\r'

/-- Drops white space. -/
def skip (cs : List Char) : List Char := cs.dropWhile isBlank

/-- The value of a hexadecimal digit. -/
def hexValue? (c : Char) : Option Nat :=
  if '0' ≤ c ∧ c ≤ '9' then some (c.toNat - '0'.toNat)
  else if 'a' ≤ c ∧ c ≤ 'f' then some (c.toNat - 'a'.toNat + 10)
  else if 'A' ≤ c ∧ c ≤ 'F' then some (c.toNat - 'A'.toNat + 10)
  else none

/-- The value of four hexadecimal digits. -/
def hexUnit? (a b c d : Char) : Option Nat := do
  return 4096 * (← hexValue? a) + 256 * (← hexValue? b) + 16 * (← hexValue? c) + (← hexValue? d)

/-- The symbol of a unit. -/
def symbolOfUnit (unit : Nat) : Symbol :=
  match Half.ofUnit? unit with
  | some half => .half half
  | none => .char (Char.ofNat unit)

/-- Puts a symbol in front of others. Two halves that make a surrogate pair become its character. -/
def pushSymbol : Symbol → List Symbol → List Symbol
  | .half high, .half low :: rest =>
    match high.join? low with
    | some c => .char c :: rest
    | none => .half high :: .half low :: rest
  | symbol, rest => symbol :: rest

/-- The character of an escape of one letter. -/
def simpleEscape? : Char → Option Char
  | '"' => some '"'
  | '\\' => some '\\'
  | '/' => some '/'
  | 'b' => some '\x08'
  | 'f' => some '\x0c'
  | 'n' => some '\n'
  | 'r' => some '\r'
  | 't' => some '\t'
  | _ => none

/-- The symbols of a string up to its closing quote, and the rest. Control characters have to be
escaped. -/
def stringBody? : List Char → Option (List Symbol × List Char)
  | [] => none
  | '"' :: rest => some ([], rest)
  | '\\' :: 'u' :: a :: b :: c :: d :: rest =>
    match hexUnit? a b c d with
    | none => none
    | some unit =>
      (stringBody? rest).map fun (body, after) => (pushSymbol (symbolOfUnit unit) body, after)
  | '\\' :: c :: rest =>
    match simpleEscape? c with
    | none => none
    | some e => (stringBody? rest).map fun (body, after) => (.char e :: body, after)
  | c :: rest =>
    if c = '\\' ∨ c.toNat < 0x20 then none
    else (stringBody? rest).map fun (body, after) => (.char c :: body, after)

/-- A string behind its opening quote, and the rest. Whether it may be broken is up to the
dialect. -/
def Dialect.string? (dialect : Dialect) (cs : List Char) : Option (LooseText × List Char) := do
  let (body, after) ← stringBody? cs
  let text := LooseText.ofSymbols body
  if dialect.halves || text.sound?.isSome then some (text, after) else none

/-- A whole number, by the dialect's range. -/
def Dialect.whole (dialect : Dialect) (negative : Bool) (digits : List Char) :
    Except ReadError Document := do
  let size : Int := Decimal.digitsValue digits
  let n := if negative then -size else size
  match dialect.wholeRange with
  | some (least, greatest) =>
    if least ≤ n ∧ n ≤ greatest then return .int n
    else return .float (← required (Decimal.ofWhole? n))
  | none =>
    checkDigits digits
    return .int n

/-- A float, unless it is too large for the dialect. -/
def Dialect.float (dialect : Dialect) (x : Float) : Except ReadError Document :=
  if x.isInf && !dialect.unbounded then .error .malformed else .ok (.float x)

/-- The digits before the point: a zero alone, or digits that start with another one. -/
def wholeDigits? (cs : List Char) : Option (List Char × List Char) :=
  match cs with
  | '0' :: rest => some (['0'], rest)
  | _ =>
    let (digits, rest) := Decimal.spanDigits cs
    if digits.isEmpty then none else some (digits, rest)

/-- A point with digits behind it, if one follows. A point without digits is left alone. -/
def spanPart (cs : List Char) : List Char × List Char :=
  match cs with
  | '.' :: rest =>
    let (digits, after) := Decimal.spanDigits rest
    if digits.isEmpty then ([], cs) else (digits, after)
  | _ => ([], cs)

/-- A number without its sign, and the rest. -/
def unsigned (dialect : Dialect) (negative : Bool) (cs : List Char) :
    Except ReadError (Document × List Char) := do
  let (whole, afterWhole) ← required (wholeDigits? cs)
  let (part, afterPart) := spanPart afterWhole
  match Decimal.spanExponent? afterPart with
  | some (exponent, rest) =>
    return (← dialect.float (Decimal.ofParts negative whole part exponent), rest)
  | none =>
    if part.isEmpty then return (← dialect.whole negative whole, afterPart)
    else return (← dialect.float (Decimal.ofParts negative whole part 0), afterPart)

/-- The words that stand for values. -/
def words (dialect : Dialect) : List (List Char × Document) :=
  [("null".toList, .null), ("true".toList, .bool true), ("false".toList, .bool false)] ++
    if dialect.unbounded then
      [("NaN".toList, .float (0.0 / 0.0)), ("Infinity".toList, .float (1.0 / 0.0)),
        ("-Infinity".toList, .float (-1.0 / 0.0))]
    else []

/-- A word at the start of a text, and the rest. -/
def word? (dialect : Dialect) (cs : List Char) : Option (Document × List Char) :=
  (words dialect).findSome? fun (word, value) =>
    if word.isPrefixOf cs then some (value, cs.drop word.length) else none

/-- A value other than a string, a list or an object, and the rest. -/
def scalar (dialect : Dialect) (cs : List Char) : Except ReadError (Document × List Char) :=
  match word? dialect cs with
  | some found => .ok found
  | none =>
    match cs with
    | '-' :: rest => unsigned dialect true rest
    | _ => unsigned dialect false cs

/-- The room left one level further down, in a part of the given kind, if any is left. -/
def deeper (kind : String) : Option Nat → Except ReadError (Option Nat)
  | none => .ok none
  | some 0 => .error (.tooDeep (" while decoding a JSON " ++ kind ++ " from a unicode string"))
  | some (room + 1) => .ok (some room)

/-- The fields of an object, each key once. -/
def collect (fields : List (LooseText × Document)) : List (LooseText × Document) :=
  fields.foldl (fun done (key, value) => put key value done) []

mutual

/-- A value at the start of a text, and the rest. -/
def value (dialect : Dialect) : Nat → Option Nat → List Char →
    Except ReadError (Document × List Char)
  | 0, _, _ => .error .malformed
  | fuel + 1, room, cs =>
    match cs with
    | '"' :: rest => do
      let (text, after) ← required (dialect.string? rest)
      return (.string text, after)
    | '[' :: rest => do
      let inner ← deeper "array" room
      match skip rest with
      | ']' :: after => return (.list [], after)
      | after =>
        let (items, after) ← items dialect fuel inner after
        return (.list items, after)
    | '\x7b' :: rest => do
      let inner ← deeper "object" room
      match skip rest with
      | '\x7d' :: after => return (.object [], after)
      | after =>
        let (fields, after) ← fields dialect fuel inner after
        return (.object (collect fields), after)
    | _ => scalar dialect cs

/-- The items of a list up to its closing bracket, and the rest. -/
def items (dialect : Dialect) : Nat → Option Nat → List Char →
    Except ReadError (List Document × List Char)
  | 0, _, _ => .error .malformed
  | fuel + 1, room, cs => do
    let (item, after) ← value dialect fuel room cs
    match skip after with
    | ',' :: rest =>
      let (more, after) ← items dialect fuel room (skip rest)
      return (item :: more, after)
    | ']' :: rest => return ([item], rest)
    | _ => .error .malformed

/-- The fields of an object up to its closing brace, and the rest. -/
def fields (dialect : Dialect) : Nat → Option Nat → List Char →
    Except ReadError (List (LooseText × Document) × List Char)
  | 0, _, _ => .error .malformed
  | fuel + 1, room, cs =>
    match cs with
    | '"' :: body => do
      let (key, after) ← required (dialect.string? body)
      match skip after with
      | ':' :: rest =>
        let (value, after) ← value dialect fuel room (skip rest)
        match skip after with
        | ',' :: rest =>
          let (more, after) ← fields dialect fuel room (skip rest)
          return ((key, value) :: more, after)
        | '\x7d' :: rest => return ([(key, value)], rest)
        | _ => .error .malformed
      | _ => .error .malformed
    | _ => .error .malformed

end

/-- The document that a whole text holds. Every second step of the reader consumes a character, so
the fuel suffices. -/
def read (dialect : Dialect) (text : String) : Except ReadError Document := do
  let cs := text.toList
  let (document, rest) ← value dialect (2 * cs.length + 2) dialect.depth (skip cs)
  if (skip rest).isEmpty then return document else throw .malformed

/-- The document that a whole text holds, if it holds one. -/
def read? (dialect : Dialect) (text : String) : Option Document :=
  (read dialect text).toOption

end ClusterBalance.Document.Json
