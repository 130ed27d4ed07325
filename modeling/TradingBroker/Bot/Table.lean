import Mathlib.Data.List.Forall2
import TradingBroker.Lib.Columns
import TradingBroker.Lib.Html
import TradingBroker.Schemas.Core

/-!
# Text tables

`bot/app/utils/table.py`. A table is lines of cells padded to the widths of their columns, a
rule under the first, escaped as a whole. The padding is blanks and so is what is trimmed off a
line, so a table is well laid out as soon as its lines are as many as they should be. What can
spoil that is a line break in a cell, unless it is trimmed off, and what can spoil the table
altogether is a list of caps that is too short: `table_laid_iff`.

A line break is trimmed off a line only where nothing but blanks is left of the row behind
it, so the condition on a row is about all of its cells joined (`breaks`, of
`Lib.Columns`) and not about each by itself. Escaping neither makes nor removes a line
break, and what the reader sees is the text before it, so the layout is stated of the
unescaped text, with the widths the lines keep to.
-/

namespace TradingBroker.Bot.Table

open TradingBroker.Lib.Columns TradingBroker.Lib.Html

def ellipsis : Nat := '…'.toNat
def colSep : PyStr := pyStr "  "
def ruleChar : Nat := '─'.toNat
def space : Nat := ' '.toNat
def newline : Nat := '\n'.toNat

/-- `_truncate`. -/
def truncate (text : PyStr) : Option Int → PyStr
  | none => text
  | some width =>
      if width ≤ 0 ∨ text.length ≤ width then text
      else if width = 1 then [ellipsis]
      else text.take (width - 1).toNat ++ [ellipsis]

/-- `text.ljust(width)` and `text.rjust(width)`. -/
def ljust (width : Nat) (text : PyStr) : PyStr :=
  text ++ List.replicate (width - text.length) space
def rjust (width : Nat) (text : PyStr) : PyStr :=
  List.replicate (width - text.length) space ++ text

/-- A value of a row, as `str` spells it. -/
abbrev Value := Option PyStr

/-! ## `render_table`

Of `aligns` and `max_widths`, `None` and the empty list come to the same. -/

section
variable (n : Nat) (aligns : List String) (maxWidths : List (Option Int))

def caps : List (Option Int) := if maxWidths.isEmpty then List.replicate n none else maxWidths

/-- The row cut or filled up to the columns. -/
def rowValues (row : List Value) : List Value :=
  row.take n ++ List.replicate (n - (row.take n).length) none

/-- `_row_cells`; `none` is an `IndexError`. -/
def rowCells (row : List Value) : Option (List PyStr) :=
  (rowValues n row).zipIdx.mapM fun v =>
    (caps n maxWidths)[v.2]?.map (truncate (v.1.getD []))

def widthOf (table : List (List PyStr)) (i : Nat) : Nat :=
  (table.map fun r => (r[i]?.getD []).length).foldr Nat.max 0

def widthsOf (table : List (List PyStr)) : List Nat := (List.range n).map (widthOf table)

def isRight (i : Nat) : Bool :=
  if aligns.isEmpty then false else (aligns ++ List.replicate n "l")[i]? == some "r"

/-- The cell of a column, padded. -/
def pad (widths : List Nat) (values : List PyStr) (i : Nat) : PyStr :=
  if isRight n aligns i then rjust (widths[i]?.getD 0) (values[i]?.getD [])
  else ljust (widths[i]?.getD 0) (values[i]?.getD [])

def parts (widths : List Nat) (values : List PyStr) : List PyStr :=
  (List.range n).map (pad n aligns widths values)

/-- `_line`. -/
def line (widths : List Nat) (values : List PyStr) : PyStr :=
  (colSep.intercalate (parts n aligns widths values)).rdropWhile isPySpace

def rule (widths : List Nat) : PyStr :=
  List.replicate (widths.foldr Nat.add 0 + colSep.length * (n - 1)) ruleChar

end

def renderTable (headers : List PyStr) (rows : List (List Value)) (aligns : List String)
    (maxWidths : List (Option Int)) : Option PyStr := do
  let n := headers.length
  let head ← rowCells n maxWidths (headers.map some)
  let cells ← rows.mapM (rowCells n maxWidths)
  let widths := widthsOf n (head :: cells)
  let body := [newline].intercalate
    (line n aligns widths head :: rule n widths :: cells.map (line n aligns widths))
  return pyStr "<pre>" ++ (escapeText body ++ pyStr "</pre>")

/-! ## What a table should be -/

/-- The text of a column in a row, truncated. -/
def cellText (maxWidths : List (Option Int)) (row : List Value) (i : Nat) : PyStr :=
  truncate (row[i]?.join.getD []) maxWidths[i]?.join

def cellTexts (n : Nat) (maxWidths : List (Option Int)) (row : List Value) : List PyStr :=
  (List.range n).map (cellText maxWidths row)

/-- A line is its padded cells, but for blanks that were trimmed off its end, and each cell
starts, or ends if it is right-aligned, where its column does. -/
def LineLaid (n : Nat) (aligns : List String) (widths : List Nat) (cells : List PyStr)
    (line : PyStr) : Prop :=
  ∃ blanks : PyStr, (∀ c ∈ blanks, isPySpace c = true) ∧
    line ++ blanks = colSep.intercalate (parts n aligns widths cells) ∧
    ∀ i cell width, cells[i]? = some cell → widths[i]? = some width → cell.length ≤ width ∧
      At (line ++ blanks) (if isRight n aligns i then
        columnStart colSep.length widths i + (width - cell.length)
        else columnStart colSep.length widths i) cell

/-- One line for the headers, one for the rule and one for each row; widths of the
columns that every line keeps to; and no cell longer than its cap, of which a width
below one is none. It is about the text as it is shown, between the `pre` tags. -/
structure TableLaid (refs : References) (headers : List PyStr) (rows : List (List Value))
    (aligns : List String) (maxWidths : List (Option Int)) (out : PyStr) : Prop where
  laid : ∃ inner head lines widths, out = pyStr "<pre>" ++ (inner ++ pyStr "</pre>") ∧
    (unescape refs inner).splitOn newline =
      head :: rule headers.length widths :: lines ∧
    widths.length = headers.length ∧
    LineLaid headers.length aligns widths
      (cellTexts headers.length maxWidths (headers.map some)) head ∧
    List.Forall₂ (fun row => LineLaid headers.length aligns widths
      (cellTexts headers.length maxWidths row)) rows lines
  capped : ∀ row ∈ headers.map some :: rows, ∀ i width, maxWidths[i]? = some (some width) →
    0 < width → ((cellText maxWidths row i).length : Int) ≤ width

/-- The caps are as many as the columns, if there are any. -/
def CapsGiven (headers : List PyStr) (maxWidths : List (Option Int)) : Prop :=
  maxWidths = [] ∨ headers.length ≤ maxWidths.length

/-- No line break in a row has anything but blanks behind it. -/
def RowsUnbroken (headers : List PyStr) (rows : List (List Value))
    (maxWidths : List (Option Int)) : Prop :=
  ∀ row ∈ headers.map some :: rows,
    breaks isPySpace newline (cellTexts headers.length maxWidths row).flatten = false

/-! ## The cells of a row -/

section
variable {n : Nat} {aligns : List String} {maxWidths : List (Option Int)}

/-- `List.mapM_pure`, for a function that succeeds on the members. -/
theorem mapM_of_mem {α β : Type} {f : α → Option β} {g : α → β} {xs : List α}
    (h : ∀ x ∈ xs, f x = some (g x)) : xs.mapM f = some (xs.map g) := by
  induction xs with
  | nil => rfl
  | cons x xs ih =>
      rw [List.mapM_cons, h x List.mem_cons_self, ih fun y hy => h y (List.mem_cons_of_mem _ hy)]
      rfl

theorem mapM_eq_none {α β : Type} {f : α → Option β} {xs : List α} {x : α} (hx : x ∈ xs)
    (h : f x = none) : xs.mapM f = none := by
  obtain ⟨before, after, rfl⟩ := List.append_of_mem hx
  rw [List.mapM_append, List.mapM_cons, h]
  cases before.mapM f <;> rfl

theorem length_rowValues (row : List Value) : (rowValues n row).length = n := by
  rw [rowValues, List.length_append, List.length_replicate, List.length_take]
  omega

theorem getElem?_rowValues {row : List Value} {i : Nat} (hi : i < n) :
    (rowValues n row)[i]? = some row[i]?.join := by
  rw [rowValues]
  by_cases h : i < row.length
  · rw [List.getElem?_append_left (by rw [List.length_take]; omega), List.getElem?_take,
      if_pos hi, List.getElem?_eq_getElem h]
    rfl
  · rw [List.getElem?_append_right (by rw [List.length_take]; omega), List.getElem?_replicate,
      if_pos (by rw [List.length_take]; omega), List.getElem?_eq_none (by omega)]
    rfl

theorem getElem?_caps {i : Nat} (hi : i < n) (hcaps : maxWidths = [] ∨ n ≤ maxWidths.length) :
    (caps n maxWidths)[i]? = some maxWidths[i]?.join := by
  unfold caps
  rcases hcaps with rfl | hcaps
  · rw [List.isEmpty_nil, if_pos rfl, List.getElem?_replicate, if_pos hi]
    rfl
  · have hne : maxWidths.isEmpty = false := by
      rw [List.isEmpty_eq_false_iff, ← List.length_pos_iff]
      omega
    rw [hne, if_neg Bool.false_ne_true, List.getElem?_eq_getElem (by omega)]
    rfl

theorem rowCells_eq (hcaps : maxWidths = [] ∨ n ≤ maxWidths.length) (row : List Value) :
    rowCells n maxWidths row = some (cellTexts n maxWidths row) := by
  have hcell : ∀ v ∈ (rowValues n row).zipIdx, ((caps n maxWidths)[v.2]?.map
      (truncate (v.1.getD []))) = some (cellText maxWidths row v.2) := by
    intro v hv
    have hget := List.mem_zipIdx_iff_getElem?.1 hv
    have hi : v.2 < n := by
      rw [← length_rowValues (n := n) row]
      exact (List.getElem?_eq_some_iff.1 hget).1
    rw [getElem?_rowValues hi, Option.some.injEq] at hget
    rw [getElem?_caps hi hcaps, Option.map_some, ← hget]
    rfl
  have hindex : (rowValues n row).zipIdx.map Prod.snd = List.range n := by
    rw [List.zipIdx_map_snd, length_rowValues, List.range_eq_range']
  rw [rowCells, mapM_of_mem hcell, Option.some.injEq, cellTexts, ← hindex, List.map_map]
  rfl

/-- With too few caps, no row can be cut. -/
theorem rowCells_eq_none (hcaps : ¬ (maxWidths = [] ∨ n ≤ maxWidths.length)) (row : List Value) :
    rowCells n maxWidths row = none := by
  obtain ⟨hne, hlt⟩ := not_or.1 hcaps
  have hi : maxWidths.length < (rowValues n row).length := by
    rw [length_rowValues]
    omega
  have hmem : ((rowValues n row)[maxWidths.length], maxWidths.length) ∈
      (rowValues n row).zipIdx :=
    List.mem_zipIdx_iff_getElem?.2 (List.getElem?_eq_getElem hi)
  refine mapM_eq_none hmem ?_
  have hempty : maxWidths.isEmpty = false := List.isEmpty_eq_false_iff.2 hne
  simp only [caps, hempty, if_neg Bool.false_ne_true, List.getElem?_length, Option.map_none]

theorem length_cellTexts (row : List Value) : (cellTexts n maxWidths row).length = n := by
  rw [cellTexts, List.length_map, List.length_range]

/-! ## The lines -/

theorem length_pad {widths : List Nat} {values : List PyStr} {i width : Nat}
    (hwidth : widths[i]? = some width) (hfits : (values[i]?.getD []).length ≤ width) :
    (pad n aligns widths values i).length = width := by
  unfold pad
  rw [hwidth, Option.getD_some]
  split
  · rw [rjust, List.length_append, List.length_replicate]
    omega
  · rw [ljust, List.length_append, List.length_replicate]
    omega

/-- Where a cell stands in its column. -/
theorem at_pad {widths : List Nat} {values : List PyStr} {i width : Nat} {cell : PyStr}
    (hwidth : widths[i]? = some width) (hcell : values[i]? = some cell) :
    At (pad n aligns widths values i) (if isRight n aligns i then width - cell.length else 0)
      cell := by
  unfold pad
  rw [hwidth, hcell, Option.getD_some, Option.getD_some]
  split
  · exact ⟨_, [], by rw [List.append_nil]; rfl, List.length_replicate⟩
  · exact ⟨[], _, rfl, rfl⟩

theorem map_length_parts {widths : List Nat} {values : List PyStr} (hn : widths.length = n)
    (hfits : ∀ (i width : Nat), widths[i]? = some width → (values[i]?.getD []).length ≤ width) :
    (parts n aligns widths values).map List.length = widths := by
  refine List.ext_getElem? fun i => ?_
  rw [parts, List.map_map, List.getElem?_map]
  by_cases hi : i < n
  · have hwidth : widths[i]? = some widths[i] := List.getElem?_eq_getElem (by omega)
    rw [List.getElem?_range hi, Option.map_some, hwidth, Option.some.injEq]
    exact length_pad hwidth (hfits i _ hwidth)
  · rw [List.getElem?_eq_none (by rw [List.length_range]; omega), Option.map_none,
      List.getElem?_eq_none (by omega)]

theorem lineLaid_line {widths : List Nat} {values : List PyStr} (hn : widths.length = n)
    (hfits : ∀ (i width : Nat), widths[i]? = some width → (values[i]?.getD []).length ≤ width) :
    LineLaid n aligns widths values (line n aligns widths values) := by
  obtain ⟨blanks, hblanks, hline⟩ := exists_trimmed isPySpace
    (colSep.intercalate (parts n aligns widths values))
  refine ⟨blanks, hblanks, hline, fun i cell width hcell hwidth => ?_⟩
  have hi : i < n := hn ▸ (List.getElem?_eq_some_iff.1 hwidth).1
  have hpart : (parts n aligns widths values)[i]? = some (pad n aligns widths values i) := by
    rw [parts, List.getElem?_map, List.getElem?_range hi, Option.map_some]
  have hpadded : At (pad n aligns widths values i)
      (if isRight n aligns i then width - cell.length else 0) cell := at_pad hwidth hcell
  have hcolumn := (exists_at colSep hpart).trans hpadded
  rw [map_length_parts hn hfits] at hcolumn
  have hle := hfits i width hwidth
  rw [hcell, Option.getD_some] at hle
  refine ⟨hle, ?_⟩
  rw [line, hline]
  split
  · next hright =>
      rw [hright, if_pos rfl] at hcolumn
      exact hcolumn
  · next hright =>
      rw [if_neg hright, Nat.add_zero] at hcolumn
      exact hcolumn

theorem le_foldr_max {x : Nat} {xs : List Nat} (h : x ∈ xs) : x ≤ xs.foldr Nat.max 0 := by
  induction xs with
  | nil => cases h
  | cons y xs ih =>
      rw [List.foldr_cons]
      rcases List.mem_cons.1 h with rfl | h
      · exact Nat.le_max_left _ _
      · exact Nat.le_trans (ih h) (Nat.le_max_right _ _)

/-- Each column is as wide as its widest cell. -/
theorem length_le_widthsOf {table : List (List PyStr)} {values : List PyStr}
    (hvalues : values ∈ table) (i width : Nat) (hwidth : (widthsOf n table)[i]? = some width) :
    (values[i]?.getD []).length ≤ width := by
  rw [widthsOf, List.getElem?_map, Option.map_eq_some_iff] at hwidth
  obtain ⟨j, hj, rfl⟩ := hwidth
  have hij : i = j := by
    obtain ⟨hi, hget⟩ := List.getElem?_eq_some_iff.1 hj
    rwa [List.getElem_range] at hget
  subst hij
  exact le_foldr_max (List.mem_map_of_mem hvalues)

theorem length_widthsOf (table : List (List PyStr)) : (widthsOf n table).length = n := by
  rw [widthsOf, List.length_map, List.length_range]

/-! ## Line breaks -/

/-- The blanks a line is filled up with. -/
def notSpace (c : Nat) : Bool := c != space

theorem filter_pad {widths : List Nat} {values : List PyStr} (i : Nat) :
    (pad n aligns widths values i).filter notSpace = (values[i]?.getD []).filter notSpace := by
  have hfill : ∀ m, (List.replicate m space).filter notSpace = [] := by
    intro m
    rw [List.filter_eq_nil_iff]
    intro c hc
    rw [List.eq_of_mem_replicate hc]
    decide
  unfold pad
  split
  · rw [rjust, List.filter_append, hfill, List.nil_append]
  · rw [ljust, List.filter_append, hfill, List.append_nil]

theorem filter_intercalate (ps : List PyStr) :
    (colSep.intercalate ps).filter notSpace = ps.flatMap (List.filter notSpace) := by
  induction ps with
  | nil => rfl
  | cons p ps ih =>
      by_cases hne : ps = []
      · rw [hne, List.intercalate_singleton, List.flatMap_singleton]
      · have hsep : colSep.filter notSpace = [] := by decide
        rw [List.intercalate_cons_of_ne_nil hne, List.filter_append, List.filter_append, hsep,
          List.append_nil, ih, List.flatMap_cons]

theorem flatten_eq {values : List PyStr} (hvalues : values.length = n) :
    ((List.range n).map fun i => values[i]?.getD []) = values := by
  refine List.ext_getElem? fun i => ?_
  rw [List.getElem?_map]
  by_cases hi : i < n
  · rw [List.getElem?_range hi, Option.map_some, List.getElem?_eq_getElem (by omega)]
    rfl
  · rw [List.getElem?_eq_none (by rw [List.length_range]; omega), Option.map_none,
      List.getElem?_eq_none (by omega)]

/-- A line has a break if its cells, one after the other, have one that is not trimmed off. -/
theorem newline_mem_line_iff {widths : List Nat} {values : List PyStr}
    (hvalues : values.length = n) :
    newline ∈ line n aligns widths values ↔ breaks isPySpace newline values.flatten = true := by
  have hspace : ∀ c, notSpace c = false → isPySpace c = true ∧ c ≠ newline := by
    intro c hc
    have heq : c = space := by simpa [notSpace] using hc
    subst heq
    decide
  have hfilter : (colSep.intercalate (parts n aligns widths values)).filter notSpace =
      values.flatten.filter notSpace := by
    conv => rhs; rw [← flatten_eq hvalues]
    rw [filter_intercalate, parts, List.flatMap_map, List.filter_flatten, List.map_map,
      List.flatMap]
    congr 1
    exact List.map_congr_left fun i _ => filter_pad i
  rw [line, mem_rdropWhile_iff (by decide), ← breaks_filter hspace, hfilter, breaks_filter hspace]

theorem newline_notMem_rule (widths : List Nat) : newline ∉ rule n widths := by
  intro h
  have heq := List.eq_of_mem_replicate h
  revert heq
  decide

/-! ## Caps -/

theorem length_truncate {text : PyStr} {width : Int} (hwidth : 0 < width) :
    ((truncate text (some width)).length : Int) ≤ width := by
  rw [truncate]
  split
  · next h =>
      rcases h with h | h
      · omega
      · exact h
  · split
    · rw [List.length_singleton]
      omega
    · rw [List.length_append, List.length_take, List.length_singleton]
      omega

end

/-! ## The table -/

section
variable (refs : References) (headers : List PyStr) (rows : List (List Value))
  (aligns : List String) (maxWidths : List (Option Int))

/-- The cells of the table, and the lines made of them. -/
def tableCells : List (List PyStr) :=
  (headers.map some :: rows).map (cellTexts headers.length maxWidths)

def tableWidths : List Nat := widthsOf headers.length (tableCells headers rows maxWidths)

def rowLine (row : List Value) : PyStr :=
  line headers.length aligns (tableWidths headers rows maxWidths)
    (cellTexts headers.length maxWidths row)

def tableLines : List PyStr :=
  rowLine headers rows aligns maxWidths (headers.map some) ::
    rule headers.length (tableWidths headers rows maxWidths) ::
      rows.map (rowLine headers rows aligns maxWidths)

variable {headers maxWidths}

theorem renderTable_eq (hcaps : CapsGiven headers maxWidths) :
    renderTable headers rows aligns maxWidths = some (pyStr "<pre>" ++
      (escapeText ([newline].intercalate (tableLines headers rows aligns maxWidths)) ++
        pyStr "</pre>")) := by
  have hrows : rows.mapM (rowCells headers.length maxWidths) =
      some (rows.map (cellTexts headers.length maxWidths)) := by
    rw [funext fun row => rowCells_eq hcaps row]
    exact List.mapM_pure
  simp only [renderTable, rowCells_eq hcaps, hrows, Option.bind_eq_bind, Option.bind_some,
    List.map_map]
  rfl

theorem renderTable_eq_none (hcaps : ¬ CapsGiven headers maxWidths) :
    renderTable headers rows aligns maxWidths = none := by
  simp only [renderTable, rowCells_eq_none hcaps, Option.bind_eq_bind, Option.bind_none]

theorem lineLaid_rowLine {row : List Value} (hrow : row ∈ headers.map some :: rows) :
    LineLaid headers.length aligns (tableWidths headers rows maxWidths)
      (cellTexts headers.length maxWidths row) (rowLine headers rows aligns maxWidths row) :=
  lineLaid_line (length_widthsOf _) fun i width hwidth =>
    length_le_widthsOf (List.mem_map_of_mem hrow) i width hwidth

/-- The lines are as many as they should be if no row is broken. -/
theorem unbroken_iff :
    (∀ l ∈ tableLines headers rows aligns maxWidths, newline ∉ l) ↔
      RowsUnbroken headers rows maxWidths := by
  have hline : ∀ row, newline ∉ rowLine headers rows aligns maxWidths row ↔
      breaks isPySpace newline (cellTexts headers.length maxWidths row).flatten = false := by
    intro row
    rw [rowLine, newline_mem_line_iff (length_cellTexts row), Bool.not_eq_true]
  rw [tableLines, List.forall_mem_cons, List.forall_mem_cons, List.forall_mem_map, RowsUnbroken,
    List.forall_mem_cons, hline]
  constructor
  · intro h
    exact ⟨h.1, fun row hrow => (hline row).1 (h.2.2 row hrow)⟩
  · intro h
    exact ⟨h.1, newline_notMem_rule _, fun row hrow => (hline row).2 (h.2 row hrow)⟩

/-- A table that is laid out has no broken row. -/
theorem rowsUnbroken_of_laid {out : PyStr} (hcaps : CapsGiven headers maxWidths)
    (hout : renderTable headers rows aligns maxWidths = some out)
    (htable : TableLaid refs headers rows aligns maxWidths out) :
    RowsUnbroken headers rows maxWidths := by
  rw [renderTable_eq rows aligns hcaps, Option.some.injEq] at hout
  obtain ⟨inner, head, lines, widths, hinner, hsplit, -, -, hlines⟩ := htable.laid
  rw [← hout] at hinner
  have hbody := List.append_cancel_right (List.append_cancel_left hinner)
  rw [← hbody, unescape_escapeText] at hsplit
  rw [← unbroken_iff rows aligns, tableLines, ← length_lines_iff]
  rw [tableLines] at hsplit
  rw [hsplit, List.length_cons, List.length_cons, List.length_cons, List.length_map,
    hlines.length_eq]

/-- A table with no broken row is laid out. -/
theorem tableLaid_of_unbroken (hrows : RowsUnbroken headers rows maxWidths) :
    TableLaid refs headers rows aligns maxWidths (pyStr "<pre>" ++
      (escapeText ([newline].intercalate (tableLines headers rows aligns maxWidths)) ++
        pyStr "</pre>")) := by
  have hlines := (unbroken_iff rows aligns).2 hrows
  refine ⟨⟨_, rowLine headers rows aligns maxWidths (headers.map some),
    rows.map (rowLine headers rows aligns maxWidths), tableWidths headers rows maxWidths,
    rfl, ?_, length_widthsOf _, ?_, ?_⟩, ?_⟩
  · rw [unescape_escapeText, List.splitOn_intercalate newline hlines (List.cons_ne_nil _ _)]
    rfl
  · exact lineLaid_rowLine rows aligns List.mem_cons_self
  · rw [List.forall₂_map_right_iff, List.forall₂_same]
    exact fun row hrow => lineLaid_rowLine rows aligns (List.mem_cons_of_mem _ hrow)
  · intro row _ i width hwidth hpos
    rw [cellText, hwidth]
    exact length_truncate hpos

end

/-- For all headers, rows, alignments and caps. -/
theorem table_laid_iff (refs : References) (headers : List PyStr) (rows : List (List Value))
    (aligns : List String) (maxWidths : List (Option Int)) :
    (∃ out, renderTable headers rows aligns maxWidths = some out ∧
        TableLaid refs headers rows aligns maxWidths out) ↔
      CapsGiven headers maxWidths ∧ RowsUnbroken headers rows maxWidths := by
  constructor
  · intro h
    obtain ⟨out, hout, htable⟩ := h
    by_cases hcaps : CapsGiven headers maxWidths
    · exact ⟨hcaps, rowsUnbroken_of_laid refs rows aligns hcaps hout htable⟩
    · rw [renderTable_eq_none rows aligns hcaps] at hout
      cases hout
  · intro h
    obtain ⟨hcaps, hrows⟩ := h
    exact ⟨_, renderTable_eq rows aligns hcaps, tableLaid_of_unbroken refs rows aligns hrows⟩

/-! ## A cell of two lines -/

namespace Broken

/-- The references that escaping makes. -/
def named (name : List Nat) : Option (List Nat) :=
  if name = codes "amp;" then some (codes "&")
  else if name = codes "lt;" then some (codes "<")
  else if name = codes "gt;" then some (codes ">")
  else none

theorem named_amp : named (codes "amp;") = some (codes "&") := by decide
theorem named_lt : named (codes "lt;") = some (codes "<") := by decide
theorem named_gt : named (codes "gt;") = some (codes ">") := by decide

def references : References := ⟨named, id, named_amp, named_lt, named_gt⟩

def row : List Value := [some (pyStr "a\nb")]

end Broken

/-- A table of one row has four lines. -/
theorem not_table_laid :
    ¬ ∃ out, renderTable [pyStr "NAME"] [Broken.row] [] [] = some out ∧
      TableLaid Broken.references [pyStr "NAME"] [Broken.row] [] [] out := by
  intro h
  obtain ⟨out, hout, htable⟩ := h
  have hrows := rowsUnbroken_of_laid Broken.references [Broken.row] [] (.inl rfl) hout htable
  have hbroken := hrows Broken.row (List.mem_cons_of_mem _ List.mem_cons_self)
  revert hbroken
  decide

end TradingBroker.Bot.Table
