import ChipEight.Proofs.Host.Pictures
import ChipEight.Proofs.Machine.Drawing

/-!
# What a text shows

The text of a raster has a line for every row and in it a cell for every pixel, one of two texts
(`prints_text`). If neither of them holds a line break, the lines stand between the line breaks of
the text (`splitOn_text`).

Where the cells are single characters, every pixel has a character of its own in the text
(`getElem?_text`), and `ofText` reads the raster back (`ofText_text`). It has to be told the shape
of the raster, for one of the two characters may be the line break itself, and rasters of different
shapes may have one text then: five lit pixels in a row and three in a column are both written as
five line breaks. Otherwise `readText` takes the shape from the lines (`readText_text`).
-/

namespace ChipEight

/-! ## Rows -/

section Rows

variable {α : Type} {rows : List (List α)} {n row column : Nat}

/-- Rows with a separator between them, and one more at the end, are rows that end with it. -/
theorem intercalate_append_separator (separator : α) (rowed : rows ≠ []) :
    [separator].intercalate rows ++ [separator] = (rows.map (· ++ [separator])).flatten := by
  induction rows with
  | nil => exact absurd rfl rowed
  | cons first rest ih =>
    by_cases last : rest = []
    · subst last
      simp
    · rw [List.intercalate_cons_of_ne_nil last, List.append_assoc, ih last, List.map_cons,
        List.flatten_cons]

/-- Where an item of a row stands when rows of one length are separated by an item. -/
theorem getElem?_intercalate (separator : α) (width : ∀ row ∈ rows, row.length = n)
    (early : row < rows.length) (within : column < n) :
    ([separator].intercalate rows)[row * (n + 1) + column]? =
      rows[row]?.bind fun row => row[column]? := by
  -- With a separator after the last row as well, all rows have one length and are simply joined.
  have rowed : rows ≠ [] := List.ne_nil_of_length_pos (Nat.zero_lt_of_lt early)
  have joined := intercalate_append_separator separator rowed
  have width' : ∀ row ∈ rows.map (· ++ [separator]), row.length = n + 1 := by
    simpa using width
  have length : ([separator].intercalate rows).length + 1 = rows.length * (n + 1) := by
    have lengths := congrArg List.length joined
    rwa [Picture.length_flatten width', List.length_append, List.length_map] at lengths
  have low : row * (n + 1) + column < ([separator].intercalate rows).length := by
    have last : (row + 1) * (n + 1) ≤ rows.length * (n + 1) := Nat.mul_le_mul_right _ early
    rw [Nat.succ_mul] at last
    omega
  have kept : ([separator].intercalate rows ++ [separator])[row * (n + 1) + column]? =
      ([separator].intercalate rows)[row * (n + 1) + column]? := List.getElem?_append_left low
  have long : (rows[row]).length = n := width _ (List.getElem_mem early)
  rw [← kept, joined, Picture.getElem?_flatten width' (Nat.lt_succ_of_lt within),
    List.getElem?_map, List.getElem?_eq_getElem early, Option.map_some, Option.bind_some,
    Option.bind_some, List.getElem?_append_left (long.symm ▸ within)]

/-- A separator between rows is not counted with the items of another kind. -/
theorem count_intercalate [DecidableEq α] {separator item : α} (apart : separator ≠ item) :
    ([separator].intercalate rows).count item = rows.flatten.count item := by
  induction rows with
  | nil => rfl
  | cons first rest ih =>
    by_cases last : rest = []
    · subst last
      simp
    · rw [List.intercalate_cons_of_ne_nil last, List.count_append, List.count_append, ih,
        List.count_singleton, beq_false_of_ne apart, List.flatten_cons, List.count_append]
      rfl

end Rows

namespace Raster

variable {r : Raster} {column row : Nat}

theorem length_rows (r : Raster) : r.rows.length = r.height := by
  rw [rows, List.length_map, List.length_range]

theorem length_of_mem_rows {cells : List Bool} (among : cells ∈ r.rows) :
    cells.length = r.width := by
  obtain ⟨row, -, rfl⟩ := List.mem_map.mp among
  rw [List.length_map, List.length_range]

/-- A pixel of a raster stands in its row. -/
theorem getElem?_rows (within : column < r.width) (early : row < r.height) :
    (r.rows[row]?.bind fun cells => cells[column]?) = some (r.lit column row) := by
  rw [rows, List.getElem?_map, List.getElem?_range early, Option.map_some, Option.bind_some,
    List.getElem?_map, List.getElem?_range within, Option.map_some]

/-- A raster holds its rows one after the other. -/
theorem flatten_rows (r : Raster) : r.rows.flatten = r.cells.toList := by
  refine Picture.flatten_eq_toList (fun _ => length_of_mem_rows) (r.length_rows ▸ r.size_cells) ?_
  intro row early column within
  rw [length_rows] at early
  obtain ⟨cells, here, there⟩ := Option.bind_eq_some_iff.mp (getElem?_rows within early)
  have inside : r.Contains (column, row) := ⟨within, early⟩
  have low : row * r.width + column < r.cells.size := inside.index_lt
  rw [List.getD_eq_getElem?_getD, here, Option.getD_some, there, lit, Array.getD_eq_getD_getElem?,
    Array.getElem?_eq_getElem low, Option.getD_some]

/-- The lit pixels are the lit cells of the rows. -/
theorem litCount_eq (r : Raster) : r.litCount = r.rows.flatten.count true := by
  rw [flatten_rows, Array.count_toList, litCount]

/-! ## Written rows -/

section Written

variable {α : Type} {on off : α}

/-- The rows of a raster, where one thing stands for the lit pixels and one for the dark ones. -/
def written (r : Raster) (on off : α) : List (List α) :=
  r.rows.map fun cells => cells.map fun cell => if cell then on else off

theorem length_written (r : Raster) (on off : α) : (r.written on off).length = r.height := by
  rw [written, List.length_map, length_rows]

theorem length_of_mem_written {line : List α} (among : line ∈ r.written on off) :
    line.length = r.width := by
  obtain ⟨cells, shown, rfl⟩ := List.mem_map.mp among
  rw [List.length_map, length_of_mem_rows shown]

theorem getElem?_written (within : column < r.width) (early : row < r.height) :
    ((r.written on off)[row]?.bind fun cells => cells[column]?) =
      some (if r.lit column row then on else off) := by
  obtain ⟨cells, here, there⟩ := Option.bind_eq_some_iff.mp (getElem?_rows within early)
  rw [written, List.getElem?_map, here, Option.map_some, Option.bind_some, List.getElem?_map, there,
    Option.map_some]

/-- What is not written for dark pixels is written once for every lit pixel. -/
theorem count_written [DecidableEq α] (r : Raster) (apart : on ≠ off) :
    (r.written on off).flatten.count on = r.litCount := by
  rw [written, ← List.map_flatten, Picture.count_cells apart, litCount_eq]

end Written

/-! ## Lines -/

/-- A text shows the pixels of a raster line by line, each as one of two texts. -/
structure Prints (r : Raster) (on off : String) (lines : List (List String)) : Prop where
  text : r.text on off = "\n".intercalate (lines.map String.join)
  height : lines.length = r.height
  width : ∀ line ∈ lines, line.length = r.width
  cell : ∀ column < r.width, ∀ row < r.height,
    (lines[row]?.bind fun cells => cells[column]?) = some (if r.lit column row then on else off)

/-- **The text of a raster shows its pixels.** -/
theorem prints_text (r : Raster) (on off : String) : r.Prints on off (r.written on off) where
  text := by
    rw [Raster.text, written, List.map_map]
    rfl
  height := r.length_written on off
  width := fun _ => length_of_mem_written
  cell := fun _ within _ early => getElem?_written within early

theorem toList_text (r : Raster) (on off : String) :
    (r.text on off).toList =
      ['\n'].intercalate ((r.written on off).map fun line => (String.join line).toList) := by
  rw [(r.prints_text on off).text, String.toList_intercalate, List.map_map]
  rfl

/-- **The lines of a text stand between its line breaks**, if no cell holds one. -/
theorem splitOn_text (high : 1 ≤ r.height) {on off : String} (plain : '\n' ∉ on.toList)
    (plain' : '\n' ∉ off.toList) :
    (r.text on off).toList.splitOn '\n' =
      (r.written on off).map fun line => (String.join line).toList := by
  have unbroken : ∀ line ∈ r.written on off, '\n' ∉ (String.join line).toList := by
    intro line among broken
    obtain ⟨cells, -, rfl⟩ := List.mem_map.mp among
    rw [String.toList_join, List.mem_flatMap] at broken
    obtain ⟨text, printed, broken⟩ := broken
    obtain ⟨cell, -, rfl⟩ := List.mem_map.mp printed
    cases cell with
    | true => exact plain broken
    | false => exact plain' broken
  rw [toList_text]
  refine List.splitOn_intercalate '\n' (by simpa using unbroken) (List.ne_nil_of_length_pos ?_)
  rwa [List.length_map, length_written]

/-! ## Characters -/

variable {on off : Char}

/-- Where the cells of a text are characters, its lines are the written rows. -/
theorem map_join_written (r : Raster) (on off : Char) :
    ((r.written (String.singleton on) (String.singleton off)).map fun line =>
      (String.join line).toList) = r.written on off := by
  rw [written, written, List.map_map]
  refine List.map_congr_left fun cells _ => ?_
  rw [Function.comp_apply, String.toList_join, List.flatMap_map, List.map_eq_flatMap]
  refine List.flatMap_congr fun cell _ => ?_
  cases cell <;> exact String.toList_singleton _

/-- **Every pixel has a character of its own** in the text. -/
theorem getElem?_text (within : column < r.width) (early : row < r.height) :
    (r.text (String.singleton on) (String.singleton off)).toList[row * (r.width + 1) + column]? =
      some (if r.lit column row then on else off) := by
  have below : row < (r.written on off).length := by rwa [length_written]
  rw [toList_text, map_join_written,
    getElem?_intercalate '\n' (fun _ => length_of_mem_written) below within,
    getElem?_written within early]

/-- The text has as many of the character for lit pixels as there are lit pixels, unless that
character is the line break. -/
theorem count_text (r : Raster) (apart : on ≠ off) (plain : on ≠ '\n') :
    (r.text (String.singleton on) (String.singleton off)).toList.count on = r.litCount := by
  rw [toList_text, map_join_written, count_intercalate plain.symm, count_written r apart]

/-- The raster of a given shape that a text shows, where one character stands for the lit pixels. A
line of the text is one character longer than the raster is wide, by its line break. -/
def ofText (width height : Nat) (on : Char) (text : String) : Raster :=
  ⟨width, height, Array.ofFn fun k : Fin (width * height) =>
    text.toList[k.val / width * (width + 1) + k.val % width]? == some on, by simp⟩

/-- A pixel of a raster that is read is found at the place of its character. -/
theorem lit_ofText {width height : Nat} (on : Char) (text : String) (within : column < width)
    (early : row < height) :
    (ofText width height on text).lit column row =
      (text.toList[row * (width + 1) + column]? == some on) := by
  have wide : 0 < width := Nat.zero_lt_of_lt within
  have low : row * width + column < width * height := by
    have inside : (ofText width height on text).Contains (column, row) := ⟨within, early⟩
    simpa [ofText] using inside.index_lt
  have above : (row * width + column) / width = row := by
    rw [Nat.mul_comm, Nat.mul_add_div wide, Nat.div_eq_of_lt within, Nat.add_zero]
  have beside : (row * width + column) % width = column := by
    rw [Nat.mul_add_mod_self_right, Nat.mod_eq_of_lt within]
  simp [lit, ofText, Array.getD_eq_getD_getElem?, low, above, beside]

/-- **A raster is read back from its text**, whichever two characters it is written with, the line
break among them. -/
theorem ofText_text (r : Raster) (apart : on ≠ off) :
    ofText r.width r.height on (r.text (String.singleton on) (String.singleton off)) = r := by
  refine ext_lit rfl rfl fun pixel inside => ?_
  have within : pixel.1 < r.width := inside.1
  have early : pixel.2 < r.height := inside.2
  rw [lit_ofText on _ within early, getElem?_text within early]
  cases r.lit pixel.1 pixel.2 with
  | true => simp
  | false => simp [apart.symm]

-- Without the shape, one text may stand for several rasters.
example : (mk 5 1 #[true, true, true, true, true] rfl).text "\n" "-" =
    (mk 1 3 #[true, true, true] rfl).text "\n" "-" := by
  decide +kernel

/-- The raster that a text shows, in the shape of its lines. -/
def readText (on : Char) (text : String) : Raster :=
  let lines := text.toList.splitOn '\n'
  ofText (lines.headD []).length lines.length on text

/-- **A raster is read back from its text alone**, if it is not written with line breaks. -/
theorem readText_text (r : Raster) (high : 1 ≤ r.height) (apart : on ≠ off) (plain : on ≠ '\n')
    (plain' : off ≠ '\n') :
    readText on (r.text (String.singleton on) (String.singleton off)) = r := by
  have lines : (r.text (String.singleton on) (String.singleton off)).toList.splitOn '\n' =
      r.written on off := by
    rw [splitOn_text high (by simpa using plain.symm) (by simpa using plain'.symm),
      map_join_written]
  have width : ((r.written on off).headD []).length = r.width := by
    cases written : r.written on off with
    | nil =>
      rw [← r.length_written on off, written] at high
      cases high
    | cons first rest => exact length_of_mem_written (written ▸ List.mem_cons_self)
  simp only [readText, lines, width, length_written, ofText_text r apart]

end Raster

end ChipEight
