import ClusterBalance.Text.Quoted

/-! Texts in which half of a surrogate pair may stand alone. No character stands for such a half,
but an escape may name it, so a document may hold it. -/

namespace ClusterBalance

/-- Half of a surrogate pair, by its place among all halves. -/
structure Half where
  index : Fin 2048
  deriving DecidableEq, Repr

/-- The number of the first half. -/
def Half.firstUnit : Nat := 0xD800

/-- The number of a half. -/
def Half.unit (h : Half) : Nat := Half.firstUnit + h.index

/-- The half with a number, if there is one. -/
def Half.ofUnit? (unit : Nat) : Option Half :=
  if h : Half.firstUnit ≤ unit ∧ unit - Half.firstUnit < 2048 then
    some ⟨⟨unit - Half.firstUnit, h.2⟩⟩
  else none

/-- Whether a half is the first of a pair. -/
def Half.isHigh (h : Half) : Bool := h.index < 1024

/-- The character of the pair that two halves make. -/
def Half.join? (high low : Half) : Option Char :=
  if high.isHigh && !low.isHigh then
    some (Char.ofNat (0x10000 + high.index * 1024 + (low.index - 1024)))
  else none

/-- What a loose text is made of. -/
inductive Symbol where
  | char (c : Char)
  | half (h : Half)
  deriving DecidableEq, Repr

/-- The character of a symbol. -/
def Symbol.char? : Symbol → Option Char
  | .char c => some c
  | .half _ => none

/-- The number of a symbol. -/
def Symbol.code : Symbol → Nat
  | .char c => c.toNat
  | .half h => h.unit

/-- A symbol between the given quotes. A half is written by its number. -/
def Symbol.escapeIn (quote : Char) : Symbol → List Char
  | .char c => Text.escapeIn quote c
  | .half h => '\\' :: 'u' :: Text.hexDigits 4 h.unit

/-- A text: sound if it has characters only, broken at each half that stands alone. -/
inductive LooseText where
  | sound (s : String)
  | broken (start : String) (half : Half) (rest : LooseText)
  deriving DecidableEq, Repr

instance : Coe String LooseText := ⟨LooseText.sound⟩

instance : Inhabited LooseText := ⟨.sound ""⟩

namespace LooseText

/-- The symbols of a text. -/
def symbols : LooseText → List Symbol
  | sound s => s.toList.map Symbol.char
  | broken start half rest => start.toList.map Symbol.char ++ Symbol.half half :: rest.symbols

/-- The numbers of the symbols of a text. -/
def codes (t : LooseText) : List Nat := t.symbols.map Symbol.code

/-- Texts are ordered by the numbers of their symbols. -/
instance : LT LooseText := ⟨fun s t => s.codes < t.codes⟩

instance : DecidableLT LooseText := fun s t => inferInstanceAs (Decidable (s.codes < t.codes))

/-- The text of some symbols behind characters, which are given from the last to the first. -/
def gather (before : List Char) : List Symbol → LooseText
  | [] => sound (String.ofList before.reverse)
  | Symbol.char c :: rest => gather (c :: before) rest
  | Symbol.half h :: rest => broken (String.ofList before.reverse) h (gather [] rest)

/-- The text of some symbols. -/
def ofSymbols (symbols : List Symbol) : LooseText := gather [] symbols

/-- The text as a string, if it is sound. -/
def sound? : LooseText → Option String
  | sound s => some s
  | broken .. => none

/-- A text and another one behind it. -/
def append : LooseText → LooseText → LooseText
  | sound s, sound t => sound (s ++ t)
  | sound s, broken start half rest => broken (s ++ start) half rest
  | broken start half rest, t => broken start half (rest.append t)

/-- What stands for a half where only characters can stand. -/
def replacement : Char := Char.ofNat 0xFFFD

/-- The text as a string, with its halves replaced. -/
def shown : LooseText → String
  | sound s => s
  | broken start _ rest => start ++ String.singleton replacement ++ rest.shown

/-- A text in quotes. -/
def quoted (t : LooseText) : String :=
  let cs := t.symbols
  let quote := Text.quoteFor (cs.filterMap Symbol.char?)
  String.ofList (quote :: (cs.flatMap (Symbol.escapeIn quote) ++ [quote]))

end LooseText

end ClusterBalance
