import Mathlib.Algebra.Ring.Nat
import Mathlib.Data.List.Forall2
import Overlay.Cli.Table
import Overlay.Proofs.Text.Split
import Overlay.Proofs.Text.Style

/-! Where the cells of a table stand. Without colour all lines of a table are equally long, and
every column starts at one place on all of them, however its cells are written. -/
namespace Overlay.Cli

section
variable {α : Type} {separator piece : List α} {pieces : List (List α)}

theorem length_intercalate (nonempty : pieces ≠ []) :
    (separator.intercalate pieces).length =
      (pieces.map List.length).sum + separator.length * (pieces.length - 1) := by
  induction pieces with
  | nil => contradiction
  | cons piece pieces ih =>
    cases pieces with
    | nil => simp
    | cons next pieces =>
      have others := ih (List.cons_ne_nil next pieces)
      rw [List.intercalate_cons_cons, List.length_append, List.length_append, others]
      simp only [List.map_cons, List.sum_cons, List.length_cons, Nat.add_sub_cancel, Nat.mul_succ]
      omega

/-- A piece is found behind the pieces in front of it and a separator for each of them. -/
theorem take_drop_intercalate (separator : List α) {j : Nat} (found : pieces[j]? = some piece) :
    ((separator.intercalate pieces).drop
      (((pieces.map List.length).take j).sum + separator.length * j)).take piece.length =
      piece := by
  induction pieces generalizing j with
  | nil => contradiction
  | cons first pieces ih =>
    cases j with
    | zero =>
      obtain rfl : first = piece := Option.some.inj found
      cases pieces <;> simp [List.intercalate_cons_cons]
    | succ j =>
      rw [List.getElem?_cons_succ] at found
      obtain ⟨next, others, rfl⟩ : ∃ next others, pieces = next :: others :=
        List.exists_cons_of_ne_nil fun none => by simp [none] at found
      have start : ((first :: next :: others).map List.length |>.take (j + 1)).sum +
          separator.length * (j + 1) = (first ++ separator).length +
            ((((next :: others).map List.length).take j).sum + separator.length * j) := by
        rw [List.map_cons, List.take_succ_cons, List.sum_cons, List.length_append, Nat.mul_succ]
        omega
      rw [start, List.intercalate_cons_cons, ← List.drop_drop, List.drop_left]
      exact ih found

theorem mem_of_mem_intercalate {x : α} (member : x ∈ separator.intercalate pieces) :
    x ∈ separator ∨ ∃ piece ∈ pieces, x ∈ piece := by
  induction pieces with
  | nil => contradiction
  | cons piece pieces ih =>
    cases pieces with
    | nil => exact .inr ⟨piece, List.mem_cons_self, by simpa using member⟩
    | cons next pieces =>
      rw [List.intercalate_cons_cons, List.append_assoc] at member
      rcases List.mem_append.1 member with inPiece | member
      · exact .inr ⟨piece, List.mem_cons_self, inPiece⟩
      rcases List.mem_append.1 member with inSeparator | member
      · exact .inl inSeparator
      · exact (ih member).imp_right fun ⟨other, inRest, found⟩ =>
          ⟨other, List.mem_cons_of_mem _ inRest, found⟩

end

/-- Cells of one line each, as many as there are columns and none wider than its own. -/
def Fits (cells : List String) (widths : List Nat) : Prop :=
  List.Forall₂ (fun cell width => cell.length ≤ width ∧ '\n' ∉ cell.toList) cells widths

instance (cells : List String) (widths : List Nat) : Decidable (Fits cells widths) :=
  inferInstanceAs (Decidable (List.Forall₂ _ cells widths))

structure IsTable (headers : List String) (rows : List (List String)) (widths : List Nat) :
    Prop where
  columns : widths ≠ []
  header : Fits headers widths
  row : ∀ row ∈ rows, Fits row widths

/-- Where a column starts: behind those in front of it and a separator for each of them. -/
def offset (widths : List Nat) (column : Nat) : Nat := (widths.take column).sum + 3 * column

/-- Each cell stands where its column starts, followed by nothing but blanks. -/
def InColumns (cells : List String) (widths : List Nat) (line : List Char) : Prop :=
  ∀ j cell width, cells[j]? = some cell → widths[j]? = some width →
    (line.drop (offset widths j)).take width =
      cell.toList ++ List.replicate (width - cell.length) ' '

/-- How the lines of a table without colour look. -/
structure Layout (headers : List String) (rows : List (List String)) (widths : List Nat)
    (lines : List (List Char)) : Prop where
  count : lines.length = rows.length + 2
  length : ∀ line ∈ lines, line.length = widths.sum + 3 * (widths.length - 1)
  header : ∀ line, lines[0]? = some line → InColumns headers widths line
  row : ∀ i row line, rows[i]? = some row → lines[i + 2]? = some line → InColumns row widths line

def padded (cells : List String) (widths : List Nat) : List (List Char) :=
  (cells.zip widths).map fun (cell, width) => (Text.pad width cell).toList

def rowLine (widths : List Nat) (cells : List String) : List Char :=
  " | ".toList.intercalate (padded cells widths)

def dashes (widths : List Nat) : List (List Char) := widths.map (List.replicate · '-')

def tableLines (headers : List String) (rows : List (List String)) (widths : List Nat) :
    List (List Char) :=
  rowLine widths headers :: "-+-".toList.intercalate (dashes widths) :: rows.map (rowLine widths)

theorem toList_tableLine (cells : List String) (widths : List Nat) :
    (tableLine " | " cells widths Text.pad).toList = rowLine widths cells ++ ['\n'] := by
  simp [tableLine, rowLine, padded, String.toList_intercalate, Function.comp_def]

theorem toList_formatTable (headers : List String) (rows : List (List String))
    (widths : List Nat) :
    (formatTable false headers rows widths).toList =
      (tableLines headers rows widths).flatMap (· ++ ['\n']) := by
  have header : tableLine " | " headers widths
      (fun width cell => Text.paint false [.bold] (Text.pad width cell)) =
        tableLine " | " headers widths Text.pad := rfl
  rw [formatTable, header, String.toList_join, tableLines]
  simp only [List.flatMap_cons, toList_tableLine, List.flatMap_map]
  simp [dashes, String.toList_intercalate, Function.comp_def]

section
variable {headers cells : List String} {rows : List (List String)} {widths : List Nat}

theorem map_length_padded (fits : Fits cells widths) :
    (padded cells widths).map List.length = widths := by
  induction fits with
  | nil => rfl
  | @cons cell width cells widths fit others ih =>
    change (Text.pad width cell).toList.length :: (padded cells widths).map List.length = _
    rw [Text.length_toList_pad fit.1, ih]

theorem newline_not_mem_padded (fits : Fits cells widths) :
    ∀ piece ∈ padded cells widths, '\n' ∉ piece := by
  induction fits with
  | nil => exact List.forall_mem_nil _
  | @cons cell width cells widths fit others ih =>
    refine List.forall_mem_cons.2 ⟨?_, ih⟩
    change '\n' ∉ (Text.pad width cell).toList
    rw [Text.toList_pad, List.mem_append, not_or]
    exact ⟨fit.2, fun blank => absurd (List.eq_of_mem_replicate blank) (by decide)⟩

theorem getElem?_padded {j width : Nat} {cell : String} (cellAt : cells[j]? = some cell)
    (widthAt : widths[j]? = some width) :
    (padded cells widths)[j]? = some (Text.pad width cell).toList := by
  have paired : (cells.zip widths)[j]? = some (cell, width) :=
    List.getElem?_zip_eq_some.2 ⟨cellAt, widthAt⟩
  rw [padded, List.getElem?_map, paired, Option.map_some]

theorem map_length_dashes (widths : List Nat) : (dashes widths).map List.length = widths := by
  simp [dashes, Function.comp_def]

/-- Pieces as wide as the columns, three characters between them. -/
theorem length_line {separator : List Char} {pieces : List (List Char)} (columns : widths ≠ [])
    (three : separator.length = 3) (sized : pieces.map List.length = widths) :
    (separator.intercalate pieces).length = widths.sum + 3 * (widths.length - 1) := by
  subst sized
  rw [length_intercalate (by simpa using columns), three, List.length_map]

theorem inColumns_rowLine (fits : Fits cells widths) :
    InColumns cells widths (rowLine widths cells) := by
  intro j cell width cellAt widthAt
  have found := getElem?_padded cellAt widthAt
  have sized : (Text.pad width cell).toList.length = width := by
    have lengthAt := congrArg (Option.map List.length) found
    rw [← List.getElem?_map, map_length_padded fits, widthAt] at lengthAt
    exact (Option.some.inj lengthAt).symm
  have placed := take_drop_intercalate " | ".toList found
  rw [map_length_padded fits, sized, Text.toList_pad] at placed
  exact placed

theorem newline_not_mem_line {separator : List Char} {pieces : List (List Char)}
    (inside : '\n' ∉ separator) (free : ∀ piece ∈ pieces, '\n' ∉ piece) :
    '\n' ∉ separator.intercalate pieces := by
  intro member
  rcases mem_of_mem_intercalate member with inSeparator | ⟨piece, among, inPiece⟩
  · exact inside inSeparator
  · exact free piece among inPiece

theorem newline_not_mem_tableLines (table : IsTable headers rows widths) :
    ∀ line ∈ tableLines headers rows widths, '\n' ∉ line := by
  have ofCells {cells : List String} (fits : Fits cells widths) : '\n' ∉ rowLine widths cells :=
    newline_not_mem_line (by decide) (newline_not_mem_padded fits)
  refine List.forall_mem_cons.2 ⟨ofCells table.header, List.forall_mem_cons.2 ⟨?_, ?_⟩⟩
  · refine newline_not_mem_line (by decide) (List.forall_mem_map.2 fun width _ dash => ?_)
    exact absurd (List.eq_of_mem_replicate dash) (by decide)
  · exact List.forall_mem_map.2 fun row member => ofCells (table.row row member)

theorem layout_tableLines (table : IsTable headers rows widths) :
    Layout headers rows widths (tableLines headers rows widths) where
  count := by simp [tableLines]
  length := by
    have ofCells {cells : List String} (fits : Fits cells widths) :
        (rowLine widths cells).length = widths.sum + 3 * (widths.length - 1) :=
      length_line table.columns rfl (map_length_padded fits)
    refine List.forall_mem_cons.2 ⟨ofCells table.header, List.forall_mem_cons.2 ⟨?_, ?_⟩⟩
    · exact length_line table.columns rfl (map_length_dashes widths)
    · exact List.forall_mem_map.2 fun row member => ofCells (table.row row member)
  header := by
    rintro _ ⟨⟩
    exact inColumns_rowLine table.header
  row := by
    intro i row line rowAt lineAt
    have whole : some (rowLine widths row) = some line := by
      rw [← lineAt, tableLines, List.getElem?_cons_succ, List.getElem?_cons_succ,
        List.getElem?_map, rowAt, Option.map_some]
    obtain rfl := Option.some.inj whole
    exact inColumns_rowLine (table.row row (List.mem_of_getElem? rowAt))

theorem paddable_of_le (narrow : ∀ width ∈ widths, width ≤ Text.maxPadding)
    (cells : List String) : paddable widths cells = true := by
  refine List.all_eq_true.2 fun ⟨cell, width⟩ member => decide_eq_true ?_
  exact narrow width (List.of_mem_zip member).2

/-- Where cells can be padded to every column, there is a table. -/
theorem formatTable?_of_le (narrow : ∀ width ∈ widths, width ≤ Text.maxPadding) (color : Bool) :
    formatTable? color headers rows widths = some (formatTable color headers rows widths) :=
  if_pos (List.all_eq_true.2 fun cells _ => paddable_of_le narrow cells)

-- The columns of the list of the store are such.
example (color : Bool) : formatTable? color headers rows [24, 16, 10, 24] =
    some (formatTable color headers rows [24, 16, 10, 24]) := formatTable?_of_le (by decide) color

theorem le_of_paddable (paddable : paddable widths cells = true) (fits : Fits cells widths) :
    ∀ width ∈ widths, width ≤ Text.maxPadding := by
  intro width member
  rw [← List.map_snd_zip (Nat.le_of_eq fits.length_eq.symm)] at member
  obtain ⟨⟨cell, _⟩, paired, rfl⟩ := List.mem_map.1 member
  exact of_decide_eq_true (List.all_eq_true.1 paddable _ paired)

theorem formatTable?_eq_some_iff {text : String} (header : Fits headers widths) :
    formatTable? false headers rows widths = some text ↔
      (∀ width ∈ widths, width ≤ Text.maxPadding) ∧
        text = formatTable false headers rows widths := by
  constructor
  · intro made
    rw [formatTable?] at made
    split at made
    · next paddable =>
      have first := List.all_eq_true.1 paddable headers List.mem_cons_self
      exact ⟨le_of_paddable first header, (Option.some.inj made).symm⟩
    · contradiction
  · rintro ⟨narrow, rfl⟩
    exact formatTable?_of_le narrow false

/-- A table without colour is laid out in columns unless one of them is too wide to pad cells to
it. What is cut to a length of three or more keeps to it, and what has it is left alone. -/
theorem layout_exact (table : IsTable headers rows widths) {max : Nat} (room : 3 ≤ max)
    (s : String) :
    ((∃ text, formatTable? false headers rows widths = some text) ↔
        ∀ width ∈ widths, width ≤ 65535) ∧
      (∀ text, formatTable? false headers rows widths = some text →
        ∃ lines, Text.splitAll '\n' text.toList = lines ++ [[]] ∧
          Layout headers rows widths lines) ∧
      (Text.abbreviate s max).length ≤ max ∧
      (Text.abbreviate s max = s ↔ s.length ≤ max) ∧
      (max < s.length →
        Text.abbreviate s max = String.ofList (s.toList.take (max - 3)) ++ "...") ∧
      Text.abbreviate (Text.abbreviate s max) max = Text.abbreviate s max := by
  refine ⟨⟨?narrow, fun narrow => ⟨_, formatTable?_of_le narrow false⟩⟩, ?lines,
    Text.length_abbreviate_le room s, Text.abbreviate_eq_self_iff room, Text.abbreviate_of_lt,
    Text.abbreviate_abbreviate room s⟩
  case narrow =>
    rintro ⟨text, made⟩
    exact ((formatTable?_eq_some_iff table.header).1 made).1
  case lines =>
    intro text made
    obtain ⟨-, rfl⟩ := (formatTable?_eq_some_iff table.header).1 made
    refine ⟨tableLines headers rows widths, ?_, layout_tableLines table⟩
    rw [toList_formatTable, Text.splitAll_flatMap (newline_not_mem_tableLines table)]

end

/-- Characters count, not bytes, and the last column is padded as well. -/
theorem layout_exact_accented :
    IsTable ["Key", "Typ"] [["aé", "x"]] [3, 4] ∧ 3 ≤ 8 ∧
      (∃ lines, Text.splitAll '\n' "Key | Typ \n----+-----\naé  | x   \n".toList = lines ++ [[]] ∧
        Layout ["Key", "Typ"] [["aé", "x"]] [3, 4] lines) ∧
      Text.abbreviate "0123456789ABCDEF" 8 = "01234..." := by
  have table : IsTable ["Key", "Typ"] [["aé", "x"]] [3, 4] :=
    ⟨by decide, by decide, by decide⟩
  obtain ⟨-, lines, -, -, cut, -⟩ := layout_exact table (by decide : 3 ≤ 8) "0123456789ABCDEF"
  exact ⟨table, by decide, lines _ rfl, cut (by decide)⟩

/-- One character more than can be padded, and there is no table. -/
theorem formatTable?_too_wide :
    IsTable ["a"] [] [65536] ∧ formatTable? false ["a"] [] [65536] = none :=
  ⟨⟨by decide, by decide, by decide⟩, rfl⟩

end Overlay.Cli
