import Overlay.Text.Style

/-! Tables of text: a line of headers, a line of dashes and a line for each row. -/
namespace Overlay.Cli

/-- One line of cells, each as wide as its column. Cells without a column are left
out. -/
def tableLine (separator : String) (cells : List String) (widths : List Nat)
    (render : Nat → String → String) : String :=
  separator.intercalate ((cells.zip widths).map fun (cell, width) => render width cell) ++ "\n"

def formatTable (color : Bool) (headers : List String) (rows : List (List String))
    (widths : List Nat) : String :=
  let header := tableLine " | " headers widths fun width cell =>
    Text.paint color [.bold] (Text.pad width cell)
  let dashes := "-+-".intercalate (widths.map fun width =>
    String.ofList (List.replicate width '-')) ++ "\n"
  String.join (header :: dashes :: rows.map fun row => tableLine " | " row widths Text.pad)

def paddable (widths : List Nat) (cells : List String) : Bool :=
  (cells.zip widths).all fun (_, width) => decide (width ≤ Text.maxPadding)

/-- A table of any widths. There is none if a cell cannot be padded to its column. -/
def formatTable? (color : Bool) (headers : List String) (rows : List (List String))
    (widths : List Nat) : Option String :=
  if (headers :: rows).all (paddable widths) then some (formatTable color headers rows widths)
  else none

end Overlay.Cli
