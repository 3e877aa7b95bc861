/-!
# Boxed drawings

A square table of characters is drawn with a box around every cell.  A drawing of `n` rows has a
border above and below every row: `2 * n + 1` lines, each of `4 * n + 1` characters.
-/

namespace ConstraintSearch.BoxGrid

/-- A border over `columns` cells, with the junctions at its left end, between cells and at its
right end. -/
def border (left middle right : Char) (columns : Nat) : List Char :=
  left :: (List.range columns).flatMap fun column =>
    ['─', '─', '─', if column + 1 = columns then right else middle]

/-- A row of cells. -/
def row (cells : List Char) : List Char :=
  '│' :: cells.flatMap fun c => [' ', c, ' ', '│']

/-- The lines of the drawing of a table with `size` rows and columns. -/
def lines (size : Nat) (cell : Nat → Nat → Char) : List (List Char) :=
  border '┌' '┬' '┐' size
    :: (List.range size).flatMap (fun r =>
        row ((List.range size).map (cell r))
          :: if r + 1 < size then [border '├' '┼' '┤' size] else [])
    ++ [border '└' '┴' '┘' size]

/-- The drawing of a table with `size` rows and columns; every line is ended. -/
def render (size : Nat) (cell : Nat → Nat → Char) : String :=
  String.ofList ((lines size cell).flatMap (· ++ ['\n']))

end ConstraintSearch.BoxGrid
