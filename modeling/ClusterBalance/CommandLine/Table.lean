import ClusterBalance.Cluster
import ClusterBalance.Decimal.Layout

/-! Tables in boxes: a title over them, a heavy frame around the head, a light one around the
rows. A table that is too wide for its place loses width from its widest columns, and texts that do
not fit them end in dots. -/

namespace ClusterBalance.CommandLine

/-- A table. The first column is set to the left, the others to the right. -/
structure Table where
  title : String
  head : List String
  rows : List (List String)

namespace Table

/-- The width of a text. -/
def width (s : String) : Nat := s.toList.length

/-- The width of each column: that of its longest cell. -/
def columnWidths (t : Table) : List Nat :=
  t.rows.foldl (fun widths row => List.zipWith (fun w s => max w (width s)) widths row)
    (t.head.map width)

/-- Takes away from each of the widest columns in turn, which are as wide as `widest`, its share of
what is too much, `limit` at most. `count` of them are still to come. -/
def takeShares (widest limit : Nat) : Nat → Nat → List Nat → List Nat
  | _, _, [] => []
  | excess, count, w :: ws =>
    if w = widest then
      let share := min limit (Decimal.roundDiv excess count)
      (w - share) :: takeShares widest limit (excess - share) (count - 1) ws
    else w :: takeShares widest limit excess count ws

/-- Makes the widest columns narrower, down to the next narrower ones at most, and so on until the
columns fit. -/
def narrow (available : Nat) : Nat → List Nat → List Nat
  | 0, widths => widths
  | fuel + 1, widths =>
    let excess := totalCount widths - available
    let widest := widths.foldl max 0
    let next := (widths.filter (· ≠ widest)).foldl max 0
    if excess = 0 ∨ widest = next then widths
    else
      narrow available fuel
        (takeShares widest (min excess (widest - next)) excess (widths.count widest) widths)

/-- Column widths that fit between the bars of a line of the given width. A cell has a blank on
either side, and the first column keeps its width. No column starts out wider than the line. Each
round makes more columns alike, so a few more rounds than columns suffice. -/
def fitWidths (lineWidth : Nat) : List Nat → List Nat
  | [] => []
  | first :: others =>
    let room := lineWidth - (others.length + 2)
    let padded := others.map fun w => min (w + 2) room
    first :: (narrow (room - (first + 2)) (others.length + 2) padded).map (· - 2)

/-- A text that is cut to a width, which a sign at its end shows. -/
def cut (w : Nat) (s : String) : String :=
  if width s ≤ w then s else String.ofList (s.toList.take (w - 1)) ++ "…"

/-- Copies of a character. -/
def run (n : Nat) (c : Char) : String := String.ofList (List.replicate n c)

/-- A horizontal line of the frame. -/
def rule (left middle right : String) (line : Char) (widths : List Nat) : String :=
  left ++ middle.intercalate (widths.map fun w => run (w + 2) line) ++ right

/-- The cells of a row, each as wide as its column. -/
def alignCells (widths : List Nat) (cells : List String) : List String :=
  match widths, cells with
  | w :: ws, s :: rest =>
    (s ++ run (w - width s) ' ') ::
      List.zipWith (fun w s => Decimal.rightAligned w (cut w s)) ws rest
  | _, _ => []

/-- A row of cells between bars. -/
def row (bar : String) (widths : List Nat) (cells : List String) : String :=
  bar ++ " " ++ (" " ++ bar ++ " ").intercalate (alignCells widths cells) ++ " " ++ bar

/-- A text in the middle of a line. -/
def centred (total : Nat) (s : String) : String :=
  let excess := total - width s
  run (excess / 2) ' ' ++ s ++ run (excess - excess / 2) ' '

/-- The lines of a table in lines of a width. -/
def lines (t : Table) (lineWidth : Nat) : List String :=
  let widths := fitWidths lineWidth t.columnWidths
  let top := rule "┏" "┳" "┓" '━' widths
  [centred (width top) t.title, top, row "┃" widths t.head, rule "┡" "╇" "┩" '━' widths] ++
    t.rows.map (row "│" widths) ++ [rule "└" "┴" "┘" '─' widths]

end Table

end ClusterBalance.CommandLine
