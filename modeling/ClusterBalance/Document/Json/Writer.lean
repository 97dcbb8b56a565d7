import ClusterBalance.Decimal.Layout
import ClusterBalance.Document.Json.Reader

/-! Writing documents as JSON text, on one line or indented by two spaces. Numbers that are not
finite are written as null. Not every document is written: whole numbers have to fit a word of 64
bits, texts have to be sound, lists and objects may not nest too deep, and there are no dates. -/

namespace ClusterBalance.Document.Json

/-- A character inside a string: quotes, backslashes and control characters are escaped. -/
def escapeChar (c : Char) : List Char :=
  if c = '"' then ['\\', '"']
  else if c = '\\' then ['\\', '\\']
  else if c = '\x08' then ['\\', 'b']
  else if c = '\t' then ['\\', 't']
  else if c = '\n' then ['\\', 'n']
  else if c = '\x0c' then ['\\', 'f']
  else if c = '\r' then ['\\', 'r']
  else if c.toNat < 0x20 then '\\' :: 'u' :: Text.hexDigits 4 c.toNat
  else [c]

/-- The characters of a string in its quotes. -/
def stringChars (cs : List Char) : List Char := '"' :: (cs.flatMap escapeChar ++ ['"'])

/-- A string in its quotes. -/
def stringText (s : String) : String := String.ofList (stringChars s.toList)

/-- A float in its shortest digits. -/
def floatText (x : Float) : String :=
  if x.isFinite then Decimal.interchange.write x else "null"

/-- How the parts of a list or an object are set apart: with an indentation, each stands on a line
of its own. -/
inductive Spacing where
  | compact
  | indented (level : Nat)

/-- The start of a line at a level. -/
def newline (level : Nat) : String := String.ofList ('\n' :: List.replicate (2 * level) ' ')

/-- One level further in. -/
def Spacing.inner : Spacing → Spacing
  | compact => compact
  | indented level => indented (level + 1)

/-- What stands in front of a part. -/
def Spacing.lead : Spacing → String
  | compact => ""
  | indented level => newline level

/-- What stands between a key and its value. -/
def Spacing.colon : Spacing → String
  | compact => ":"
  | indented _ => ": "

/-- Parts between brackets, which stand together if there are none. -/
def bracketed (spacing : Spacing) (left right : String) (parts : List String) : String :=
  if parts.isEmpty then left ++ right
  else
    left ++ ",".intercalate (parts.map (spacing.inner.lead ++ ·)) ++ spacing.lead ++ right

mutual

/-- The text of a value. -/
def text (spacing : Spacing) : Document → String
  | null => "null"
  | bool true => "true"
  | bool false => "false"
  | int n => toString n
  | float x => floatText x
  | string s => stringText s.shown
  | moment m => stringText m.text
  | list items => bracketed spacing "[" "]" (itemTexts spacing.inner items)
  | object fields => bracketed spacing "\x7b" "\x7d" (fieldTexts spacing.inner fields)

/-- The texts of the items of a list. -/
def itemTexts (spacing : Spacing) : List Document → List String
  | [] => []
  | item :: rest => text spacing item :: itemTexts spacing rest

/-- The texts of the fields of an object. -/
def fieldTexts (spacing : Spacing) : List (LooseText × Document) → List String
  | [] => []
  | (key, value) :: rest =>
    (stringText key.shown ++ spacing.colon ++ text spacing value) :: fieldTexts spacing rest

end

/-- What keeps a value from being written. -/
inductive WriteError where
  | wholeOutOfRange
  | brokenText
  | tooDeep
  | foreign
  deriving DecidableEq, Repr

/-- The text of a write error. -/
def WriteError.message : WriteError → String
  | wholeOutOfRange => "Integer exceeds 64-bit range"
  | brokenText => "str is not valid UTF-8: surrogates not allowed"
  | tooDeep => "Recursion limit reached"
  | foreign => "Type is not JSON serializable: object"

/-- Lists and objects nest at most this deep where they are written, whether they are empty or
not. -/
def writtenDepth : Nat := 254

/-- One level further down, if there is room for it. -/
def roomBelow : Nat → Except WriteError Nat
  | 0 => .error .tooDeep
  | room + 1 => .ok room

/-- Checks a whole number. -/
def checkWhole (n : Int) : Except WriteError Unit :=
  if wordRange.1 ≤ n ∧ n ≤ wordRange.2 then .ok () else .error .wholeOutOfRange

/-- Checks a text. -/
def checkText (s : LooseText) : Except WriteError Unit :=
  if s.sound?.isSome then .ok () else .error .brokenText

mutual

/-- Checks a value with room for some levels of lists and objects. The first part that cannot be
written decides. -/
def check (room : Nat) : Document → Except WriteError Unit
  | int n => checkWhole n
  | string s => checkText s
  | moment _ => .error .foreign
  | list items => do checkItems (← roomBelow room) items
  | object fields => do checkFields (← roomBelow room) fields
  | _ => .ok ()

/-- Checks the items of a list. -/
def checkItems (room : Nat) : List Document → Except WriteError Unit
  | [] => .ok ()
  | item :: rest => do
    check room item
    checkItems room rest

/-- Checks the fields of an object. -/
def checkFields (room : Nat) : List (LooseText × Document) → Except WriteError Unit
  | [] => .ok ()
  | (key, value) :: rest => do
    checkText key
    check room value
    checkFields room rest

end

/-- The text of a document that can be written. -/
def write? (spacing : Spacing) (document : Document) : Except WriteError String := do
  check writtenDepth document
  return text spacing document

end ClusterBalance.Document.Json
