import Mathlib.Data.List.Basic
import Precedence.Proofs.Text.Lines
import Precedence.Proofs.Text.Words
import Precedence.Render.Grid

/-!
# Reading a grid back

The grid of a table whose symbols are words has a line for the columns and a line for each row. The
words of the first line are the columns; the words of the line of a row are its symbol and the
letters of its actions. In every line the cell of a column ends at the same offset, so each letter
stands below the last character of the symbol of its column.
-/

namespace Precedence

open Text (IsUnbroken IsWord IsWordRun isBlank splitLines words words_blank words_run)

namespace Text

/-- A text that ends in a run without blanks has no blanks at its end. -/
theorem dropBlankEnd_append {run : List Char} (wordRun : IsWordRun run) (text : List Char) :
    dropBlankEnd (text ++ run) = text ++ run := by
  obtain ⟨front, last, rfl⟩ := (List.eq_nil_or_concat run).resolve_left wordRun.1
  have nonblank : isBlank last = false := wordRun.2 last (by simp)
  rw [List.concat_eq_append, ← List.append_assoc, dropBlankEnd, List.reverse_append,
    List.reverse_singleton, List.singleton_append, List.dropWhile_cons_of_neg (by simp [nonblank])]
  simp

/-- A word stands in a line after some other words and ends at an offset. -/
def StandsAfter (earlier : List (List Char)) (word line : List Char) (stop : Nat) : Prop :=
  ∃ before after, line = before ++ word ++ after ∧ words before = earlier ∧
    (before ++ word).length = stop

end Text

namespace ActionTable

open Text (StandsAfter isBlank_of_mem_head?_nil isBlank_of_mem_head?_space isBlank_space words_nil
  words_replicate_append)

variable {labelWidth cellWidth : Nat} {label : List Char} {cells : List (List Char)}

/-! ## Cells -/

/-- Cells as they stand in a line, with a space before each. -/
def cellRun (cellWidth : Nat) (cells : List (List Char)) : List Char :=
  cells.flatMap fun cell => ' ' :: padLeft cellWidth cell

/-- Cells begin with a space, if there are any. -/
theorem isBlank_of_mem_head?_cellRun (cellWidth : Nat) (cells : List (List Char))
    {rest : List Char} (ends : ∀ next ∈ rest.head?, isBlank next = true) :
    ∀ next ∈ (cellRun cellWidth cells ++ rest).head?, isBlank next = true := by
  cases cells with
  | nil => exact ends
  | cons cell cells => exact isBlank_of_mem_head?_space _

/-- The words of cells are what the cells hold. -/
theorem words_cellRun_append (cellWidth : Nat) (areRuns : ∀ cell ∈ cells, IsWordRun cell)
    {rest : List Char} (ends : ∀ next ∈ rest.head?, isBlank next = true) :
    words (cellRun cellWidth cells ++ rest) = cells ++ words rest := by
  induction cells with
  | nil => rfl
  | cons cell cells ih =>
    have later := ih fun other held => areRuns other (List.mem_cons_of_mem _ held)
    have run := words_run (areRuns cell List.mem_cons_self)
      (isBlank_of_mem_head?_cellRun cellWidth cells ends)
    have split : cellRun cellWidth (cell :: cells) ++ rest =
        ' ' :: (List.replicate (cellWidth - cell.length) ' ' ++
          (cell ++ (cellRun cellWidth cells ++ rest))) := by
      simp [cellRun, padLeft]
    rw [split, words_blank _ isBlank_space, words_replicate_append, run, later, List.cons_append]

/-- Cells that fit are equally wide. -/
theorem length_cellRun (fit : ∀ cell ∈ cells, cell.length ≤ cellWidth) :
    (cellRun cellWidth cells).length = cells.length * (cellWidth + 1) := by
  induction cells with
  | nil => simp [cellRun]
  | cons cell cells ih =>
    have later := ih fun other held => fit other (List.mem_cons_of_mem _ held)
    have fits := fit cell List.mem_cons_self
    simp only [cellRun, List.flatMap_cons, List.length_append, List.length_cons, padLeft,
      List.length_replicate] at later ⊢
    rw [later, Nat.succ_mul]
    omega

/-! ## Lines -/

/-- What a line of a grid is made of: a word as its label, or none, and at least one cell, each with
a word in it, none longer than the widths allow. -/
structure Fits (labelWidth cellWidth : Nat) (label : List Char) (cells : List (List Char)) :
    Prop where
  /-- The label is a word if there is one. -/
  labelled : label = [] ∨ IsWordRun label
  /-- The label is not longer than labels may be. -/
  label_le : label.length ≤ labelWidth
  /-- There is a cell. -/
  cells_ne_nil : cells ≠ []
  /-- Each cell holds a word. -/
  isWordRun : ∀ cell ∈ cells, IsWordRun cell
  /-- No cell is longer than cells may be. -/
  cell_le : ∀ cell ∈ cells, cell.length ≤ cellWidth

/-- A line has nothing at its end to drop, for its last cell holds a word. -/
theorem Fits.gridLine_eq (fits : Fits labelWidth cellWidth label cells) :
    gridLine labelWidth cellWidth label cells =
      padRight labelWidth label ++ cellRun cellWidth cells := by
  obtain ⟨front, last, rfl⟩ := (List.eq_nil_or_concat cells).resolve_left fits.cells_ne_nil
  have split : padRight labelWidth label ++ cellRun cellWidth (front.concat last) =
      (padRight labelWidth label ++ cellRun cellWidth front ++
        ' ' :: List.replicate (cellWidth - last.length) ' ') ++ last := by
    simp [cellRun, padLeft]
  have kept := Text.dropBlankEnd_append (fits.isWordRun last (by simp))
    (padRight labelWidth label ++ cellRun cellWidth front ++
      ' ' :: List.replicate (cellWidth - last.length) ' ')
  rw [← split] at kept
  exact kept

/-- A label with the spaces after it has the words of the label. -/
theorem words_padRight_append (labelled : label = [] ∨ IsWordRun label) {rest : List Char}
    (ends : ∀ next ∈ rest.head?, isBlank next = true) :
    words (padRight labelWidth label ++ rest) = words label ++ words rest := by
  rw [padRight, List.append_assoc]
  rcases labelled with rfl | run
  · rw [List.nil_append, words_replicate_append, words_nil, List.nil_append]
  · have spaces : ∀ next ∈ (List.replicate (labelWidth - label.length) ' ' ++ rest).head?,
        isBlank next = true := by
      cases labelWidth - label.length with
      | zero => exact ends
      | succ count => exact isBlank_of_mem_head?_space _
    rw [words_run run spaces, words_replicate_append, Text.words_wordRun run,
      List.singleton_append]

/-- The words of a line are its label, if it has one, and what its cells hold. -/
theorem Fits.words_gridLine (fits : Fits labelWidth cellWidth label cells) :
    words (gridLine labelWidth cellWidth label cells) = words label ++ cells := by
  have ends := isBlank_of_mem_head?_cellRun cellWidth cells isBlank_of_mem_head?_nil
  have ofCells := words_cellRun_append cellWidth fits.isWordRun isBlank_of_mem_head?_nil
  rw [List.append_nil] at ends ofCells
  rw [fits.gridLine_eq, words_padRight_append fits.labelled ends, ofCells, words_nil,
    List.append_nil]

/-- A cell stands in a line after the label and the cells before it, and where it ends depends only
on its number and the two widths. -/
theorem Fits.standsAfter (fits : Fits labelWidth cellWidth label cells) {j : Nat}
    {cell : List Char} (isCell : cells[j]? = some cell) :
    StandsAfter (words label ++ cells.take j) cell (gridLine labelWidth cellWidth label cells)
      (labelWidth + (j + 1) * (cellWidth + 1)) := by
  obtain ⟨inside, isElement⟩ := List.getElem?_eq_some_iff.mp isCell
  have cellFits := fits.cell_le cell (List.mem_of_getElem? isCell)
  have labelFits := fits.label_le
  have earlierRuns : ∀ other ∈ cells.take j, IsWordRun other :=
    fun other listed => fits.isWordRun other (List.mem_of_mem_take listed)
  have earlierFit : ∀ other ∈ cells.take j, other.length ≤ cellWidth :=
    fun other listed => fits.cell_le other (List.mem_of_mem_take listed)
  -- The spaces before the cell follow the cells before it.
  let spaces := ' ' :: List.replicate (cellWidth - cell.length) ' '
  have spacesBlank := isBlank_of_mem_head?_space (List.replicate (cellWidth - cell.length) ' ')
  have wordless : words spaces = [] := by
    have passed := words_replicate_append (cellWidth - cell.length) []
    rw [List.append_nil] at passed
    rw [words_blank _ isBlank_space, passed, words_nil]
  have splitCells : cells = cells.take j ++ cell :: cells.drop (j + 1) := by
    rw [← isElement, List.getElem_cons_drop, List.take_append_drop]
  refine ⟨padRight labelWidth label ++ (cellRun cellWidth (cells.take j) ++ spaces),
    cellRun cellWidth (cells.drop (j + 1)), ?_, ?_, ?_⟩
  · rw [fits.gridLine_eq]
    conv_lhs => rw [splitCells]
    simp [cellRun, padLeft, spaces]
  · rw [words_padRight_append fits.labelled (isBlank_of_mem_head?_cellRun _ _ spacesBlank),
      words_cellRun_append _ earlierRuns spacesBlank, wordless, List.append_nil]
  · have ofLabel : (padRight labelWidth label).length = labelWidth := by
      rw [padRight, List.length_append, List.length_replicate]
      omega
    have ofEarlier := length_cellRun earlierFit
    rw [List.length_take, Nat.min_eq_left (Nat.le_of_lt inside)] at ofEarlier
    simp only [List.length_append, ofLabel, ofEarlier, spaces, List.length_cons,
      List.length_replicate, Nat.succ_mul]
    omega

/-- A line is not broken. -/
theorem Fits.isUnbroken (fits : Fits labelWidth cellWidth label cells) :
    IsUnbroken (gridLine labelWidth cellWidth label cells) := by
  have ofSpaces (count : Nat) : IsUnbroken (List.replicate count ' ') := by
    intro character held
    rw [List.eq_of_mem_replicate held]
    decide
  have ofLabel : IsUnbroken label := by
    rcases fits.labelled with rfl | run
    · exact List.forall_mem_nil _
    · exact Text.isUnbroken_of_nonblank run.2
  have ofCells : IsUnbroken (cellRun cellWidth cells) := by
    intro character held
    obtain ⟨cell, listed, held⟩ := List.mem_flatMap.mp held
    have ofCell := Text.isUnbroken_of_nonblank (fits.isWordRun cell listed).2
    have padded := (ofSpaces (cellWidth - cell.length + 1)).append ofCell
    exact padded character held
  rw [fits.gridLine_eq]
  exact (ofLabel.append (ofSpaces _)).append ofCells

/-! ## Tables -/

/-- Actions written as letters. -/
def letters (actions : List Action) : List (List Char) :=
  actions.map fun action => [action.letter]

/-- A letter is a word of one character. -/
theorem isWordRun_of_mem_letters {actions : List Action} {cell : List Char}
    (listed : cell ∈ letters actions) : IsWordRun cell ∧ cell.length = 1 := by
  obtain ⟨action, _, rfl⟩ := List.mem_map.mp listed
  cases action <;> decide

/-- No listed symbol is longer than the longest. -/
theorem length_le_longest {symbols : List String} {symbol : String} (listed : symbol ∈ symbols)
    (orElse : Nat) : symbol.toList.length ≤ longest symbols orElse := by
  rw [String.length_toList]
  exact List.le_max?_getD_of_mem (List.mem_map_of_mem listed)

/-- The rows and columns of a table are words, and there is a column. -/
structure HasWords (table : ActionTable) : Prop where
  /-- Each row is a word. -/
  isWord_of_mem_rows : ∀ row ∈ table.rows, IsWord row
  /-- Each column is a word. -/
  isWord_of_mem_columns : ∀ column ∈ table.columns, IsWord column
  /-- There is a column. -/
  columns_ne_nil : table.columns ≠ []

/-- The line for the columns can be read back. -/
theorem HasWords.fits_columns {table : ActionTable} (hasWords : table.HasWords) :
    Fits (longest table.rows 0) (longest table.columns 1) [] (table.columns.map String.toList) where
  labelled := Or.inl rfl
  label_le := Nat.zero_le _
  cells_ne_nil := fun none => hasWords.columns_ne_nil (List.map_eq_nil_iff.mp none)
  isWordRun := by
    intro cell listed
    obtain ⟨column, held, rfl⟩ := List.mem_map.mp listed
    exact hasWords.isWord_of_mem_columns column held
  cell_le := by
    intro cell listed
    obtain ⟨column, held, rfl⟩ := List.mem_map.mp listed
    exact length_le_longest held 1

/-- The line for a row with an action for each column can be read back. -/
theorem HasWords.fits_row {table : ActionTable} (hasWords : table.HasWords) {row : String}
    (listed : row ∈ table.rows) {actions : List Action}
    (complete : actions.length = table.columns.length) :
    Fits (longest table.rows 0) (longest table.columns 1) row.toList (letters actions) where
  labelled := Or.inr (hasWords.isWord_of_mem_rows row listed)
  label_le := length_le_longest listed 0
  cells_ne_nil := by
    have nonempty := List.length_pos_of_ne_nil hasWords.columns_ne_nil
    apply List.ne_nil_of_length_pos
    rw [letters, List.length_map]
    omega
  isWordRun := fun _ held => (isWordRun_of_mem_letters held).1
  cell_le := by
    intro cell held
    obtain ⟨column, others, isColumns⟩ := List.exists_cons_of_ne_nil hasWords.columns_ne_nil
    have isFirst : column ∈ table.columns := by simp [isColumns]
    have positive := List.length_pos_of_ne_nil (hasWords.isWord_of_mem_columns column isFirst).1
    have wide := length_le_longest isFirst 1
    have short := (isWordRun_of_mem_letters held).2
    omega

variable {grammar : Grammar} {endMarker : String}

/-- The rows and columns of a table are words if the symbols of the grammar and the end marker
are. -/
theorem hasWords_ofRelations (areWords : ∀ symbol ∈ grammar.symbols, IsWord symbol)
    (endIsWord : IsWord endMarker) (relations : Relations) :
    (ofRelations grammar relations endMarker).HasWords := by
  simp only [Grammar.symbols, List.mem_append, or_imp, forall_and] at areWords
  obtain ⟨⟨nonTerminals, terminals⟩, empty⟩ := areWords
  have columns : ∀ column ∈ (ofRelations grammar relations endMarker).columns, IsWord column := by
    intro column listed
    simp only [ofRelations, List.mem_append, List.mem_singleton] at listed
    rcases listed with (terminal | isEmpty) | rfl
    · exact terminals column terminal
    · exact empty column isEmpty
    · exact endIsWord
  refine ⟨fun row listed => ?_, columns, by simp [ofRelations]⟩
  rcases List.mem_append.mp listed with nonTerminal | isColumn
  · exact nonTerminals row nonTerminal
  · exact columns row isColumn

/-- The grid of a table is a line for the columns and a line for each row with its actions. -/
theorem gridLines_ofRelations (grammar : Grammar) (relations : Relations) (endMarker : String) :
    let table := ofRelations grammar relations endMarker
    let line := gridLine (longest table.rows 0) (longest table.columns 1)
    table.gridLines = line [] (table.columns.map String.toList) ::
      table.rows.map fun row =>
        line row.toList (letters (table.columns.map (decideAction relations row))) := by
  intro table line
  have cells : table.cells = table.rows.map fun row =>
    table.columns.map (decideAction relations row) := rfl
  rw [gridLines, cells, List.zip_map_right, List.map_map, List.zip_eq_zipWith]
  simp only [List.zipWith_self, List.map_map]
  rfl

/-- The lines of the text of a grid are the lines that it is made of. -/
theorem splitLines_grid {relations : Relations}
    (hasWords : (ofRelations grammar relations endMarker).HasWords) :
    splitLines (ofRelations grammar relations endMarker).grid.toList =
      (ofRelations grammar relations endMarker).gridLines := by
  rw [grid, String.toList_ofList, Text.splitLines_joinLines]
  intro line listed
  rw [gridLines_ofRelations] at listed
  rcases List.mem_cons.mp listed with rfl | listed
  · exact hasWords.fits_columns.isUnbroken
  · obtain ⟨row, held, rfl⟩ := List.mem_map.mp listed
    exact (hasWords.fits_row held (List.length_map _)).isUnbroken

/-- The grid of a table whose symbols are words has a line for the columns and one for each row, and
reads back to the table: the words of the first line are the columns, the words of the line of a
row are its symbol and the letters of its actions, and each letter stands at the offset of the last
character of the symbol of its column in the first line. -/
theorem grid_reads_back (areWords : ∀ symbol ∈ grammar.symbols, IsWord symbol)
    (endIsWord : IsWord endMarker) (relations : Relations) :
    let table := ofRelations grammar relations endMarker
    ∃ header lines, splitLines table.grid.toList = header :: lines ∧
      lines.length = table.rows.length ∧ words header = table.columns.map String.toList ∧
      ∀ (i : Nat) (row : String), table.rows[i]? = some row →
        ∃ actions line, table.cells[i]? = some actions ∧ lines[i]? = some line ∧
          actions.length = table.columns.length ∧ words line = row.toList :: letters actions ∧
          ∀ (j : Nat) (column : String), table.columns[j]? = some column →
            ∃ action stop, actions[j]? = some action ∧
              StandsAfter ((table.columns.take j).map String.toList) column.toList header stop ∧
              StandsAfter (row.toList :: letters (actions.take j)) [action.letter] line stop := by
  intro table
  have hasWords : table.HasWords := hasWords_ofRelations areWords endIsWord relations
  let actionsOf (row : String) := table.columns.map (decideAction relations row)
  have complete (row : String) : (actionsOf row).length = table.columns.length := List.length_map _
  have ofColumns := hasWords.fits_columns
  have written := (splitLines_grid hasWords).trans (gridLines_ofRelations _ _ _)
  refine ⟨_, _, written, List.length_map _, ofColumns.words_gridLine, fun i row isRow => ?_⟩
  have listed : row ∈ table.rows := List.mem_of_getElem? isRow
  have ofRow := hasWords.fits_row listed (complete row)
  have labelWords := Text.words_wordRun (hasWords.isWord_of_mem_rows row listed)
  refine ⟨actionsOf row, gridLine (longest table.rows 0) (longest table.columns 1) row.toList
    (letters (actionsOf row)), ?_, ?_, complete row, ?_, fun j column isColumn => ?_⟩
  · change (table.rows.map actionsOf)[i]? = some (actionsOf row)
    rw [List.getElem?_map, isRow, Option.map_some]
  · rw [List.getElem?_map, isRow, Option.map_some]
  · rw [ofRow.words_gridLine, labelWords, List.singleton_append]
  · have isAction : (actionsOf row)[j]? = some (decideAction relations row column) := by
      rw [List.getElem?_map, isColumn, Option.map_some]
    have isColumnCell : (table.columns.map String.toList)[j]? = some column.toList := by
      rw [List.getElem?_map, isColumn, Option.map_some]
    have isLetter : (letters (actionsOf row))[j]? =
        some [(decideAction relations row column).letter] := by
      rw [letters, List.getElem?_map, isAction, Option.map_some]
    have inHeader := ofColumns.standsAfter isColumnCell
    have inLine := ofRow.standsAfter isLetter
    rw [words_nil, List.nil_append, ← List.map_take] at inHeader
    rw [labelWords, List.singleton_append, letters, ← List.map_take] at inLine
    exact ⟨decideAction relations row column, _, isAction, inHeader, inLine⟩

/-- Symbols of several lengths, some of characters that take more than one byte: the letter for
reading the second column after the symbol of the second row stands below the last character of
that column. -/
theorem grid_reads_back_wide :
    let grammar := Grammar.index [⟨"Größe", ["x", "日本語"]⟩, ⟨"Größe", ["ε"]⟩] (some "ε")
    let table := ofRelations grammar (.ofGrammar grammar "Größe" "$$") "$$"
    (∀ symbol ∈ grammar.symbols, IsWord symbol) ∧ IsWord "$$" ∧
      ∃ header lines line stop, splitLines table.grid.toList = header :: lines ∧
        lines.length = 5 ∧ words header = [['x'], ['日', '本', '語'], ['ε'], ['$', '$']] ∧
        lines[1]? = some line ∧ words line = [['x'], ['-'], ['S'], ['-'], ['-']] ∧
        StandsAfter [['x']] ['日', '本', '語'] header stop ∧
        StandsAfter [['x'], ['-']] ['S'] line stop := by
  intro grammar table
  have areWords : ∀ symbol ∈ grammar.symbols, IsWord symbol := by decide +kernel
  have endIsWord : IsWord "$$" := by decide +kernel
  have columns : table.columns = ["x", "日本語", "ε", "$$"] := by decide +kernel
  have rows : table.rows = ["Größe", "x", "日本語", "ε", "$$"] := by decide +kernel
  have cells : table.cells[1]? = some [.undefined, .shift, .undefined, .undefined] := by
    decide +kernel
  obtain ⟨header, lines, split, count, ofHeader, ofRows⟩ :=
    grid_reads_back areWords endIsWord (.ofGrammar grammar "Größe" "$$")
  obtain ⟨actions, line, isActions, isLine, _, ofLine, ofCells⟩ :=
    ofRows 1 "x" (by rw [show (ofRelations _ _ _).rows = _ from rows]; rfl)
  obtain ⟨action, stop, isAction, inHeader, inLine⟩ :=
    ofCells 1 "日本語" (by rw [show (ofRelations _ _ _).columns = _ from columns]; rfl)
  obtain rfl := Option.some.inj (isActions.symm.trans cells)
  obtain rfl := Option.some.inj isAction
  rw [show (ofRelations _ _ _).columns = _ from columns] at inHeader ofHeader
  rw [show (ofRelations _ _ _).rows = _ from rows] at count
  exact ⟨areWords, endIsWord, header, lines, line, stop, split, count, ofHeader, isLine, ofLine,
    inHeader, inLine⟩

end ActionTable

end Precedence
