import ClusterBalance.Decimal.Shortest

/-! How a double is written: the layout of its shortest digits, as a record of a format's choices,
and the writing with a fixed number of places. -/

namespace ClusterBalance.Decimal

/-- A format's choices for the shortest digits: the decimal exponents from `least` to below
`bound` are written positionally, and an exponent has at least `exponentWidth` digits. -/
structure Layout where
  least : Int
  bound : Int
  exponentWidth : Nat

/-- The decimal digits of a natural number. -/
def digitChars (n : Nat) : List Char := (toString n).toList

/-- Drops the zeros at the end. -/
def trimZeros (cs : List Char) : List Char :=
  (cs.reverse.dropWhile (· == '0')).reverse

/-- Puts copies of `fill` in front up to a width. -/
def padLeft (width : Nat) (fill : Char) (cs : List Char) : List Char :=
  List.replicate (width - cs.length) fill ++ cs

/-- A sign and at least `width` digits. -/
def exponentChars (width : Nat) (exponent : Int) : List Char :=
  (if exponent < 0 then '-' else '+') :: padLeft width '0' (digitChars exponent.natAbs)

/-- Digits with the point after `places` of them, filled with zeros on either side. -/
def positional (cs : List Char) (places : Int) : List Char :=
  if places ≤ 0 then
    '0' :: '.' :: (List.replicate (-places).toNat '0' ++ cs)
  else
    let whole := cs.take places.toNat
    let part := cs.drop places.toNat
    whole ++ List.replicate (places.toNat - whole.length) '0' ++
      '.' :: (if part.isEmpty then ['0'] else part)

/-- Digits with the point after the first, and an exponent. -/
def scientific (width : Nat) (cs : List Char) (exponent : Int) : List Char :=
  let lead := cs.take 1
  let part := cs.drop 1
  lead ++ (if part.isEmpty then [] else '.' :: part) ++ 'e' :: exponentChars width exponent

/-- A positive decimal in the given layout. -/
def Numeral.chars (layout : Layout) (numeral : Numeral) : List Char :=
  let all := digitChars numeral.digits
  let lead : Int := numeral.exponent + all.length - 1
  let cs := if numeral.digits = 0 then ['0'] else trimZeros all
  if layout.least ≤ lead ∧ lead < layout.bound then positional cs (lead + 1)
  else scientific layout.exponentWidth cs lead

/-- A double in its shortest digits. -/
def Layout.write (layout : Layout) (x : Float) : String :=
  let sign := fun negative : Bool => if negative then "-" else ""
  match Reading.ofFloat x with
  | .nan => "nan"
  | .infinite negative => sign negative ++ "inf"
  | .finite negative significand exponent =>
    sign negative ++ String.ofList ((shortest significand exponent).chars layout)

/-- Messages write a double positionally from `0.0001` to below `1e+16`. -/
def plain : Layout := ⟨-4, 16, 2⟩

/-- Snapshots and reports write a double positionally from `0.00001` to below `1e+16`. -/
def interchange : Layout := ⟨-5, 16, 1⟩

/-- The digits of a natural number of units of `10 ^ -places`, with the point in its place. -/
def fixedChars (places : Nat) (units : Nat) : List Char :=
  let cs := padLeft (places + 1) '0' (digitChars units)
  let whole := cs.length - places
  cs.take whole ++ (if places = 0 then [] else '.' :: cs.drop whole)

/-- A double with a fixed number of places, rounded from its exact value, a tie to the even
digit. -/
def fixed (places : Nat) (x : Float) : String :=
  let sign := fun negative : Bool => if negative then "-" else ""
  match Reading.ofFloat x with
  | .nan => "nan"
  | .infinite negative => sign negative ++ "inf"
  | .finite negative significand exponent =>
    let (n, d) := scaleDecimal significand 1 places
    let (n, d) := scaleBinary n d exponent
    sign negative ++ String.ofList (fixedChars places (roundDiv n d))

/-- A text set to the right of a field of the given width. -/
def rightAligned (width : Nat) (s : String) : String :=
  String.ofList (padLeft width ' ' s.toList)

end ClusterBalance.Decimal
