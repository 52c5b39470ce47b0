import ChipEight.Picture
import Mathlib.Data.List.Count

/-!
# What a picture shows

The picture of a raster shows every cell as a square of pixels in one of two colours
(`render_enlarges`). It loses nothing: two rasters with one picture in white and black, enlarged
alike, are the same raster (`render_injective`). A picture repeats its pixels row by row, so the
proof takes the rows apart again: a list is known by its items repeated, rows of one length are
known by what they are joined to, and a picture is known by its rows.

A raster with pixels has a picture at every enlargement, the plain one among them (`render_eq_ok`),
and the pixels of the picture are counted in whole squares (`count_render`).
-/

namespace ChipEight.Picture

variable {α : Type} {n : Nat}

/-! ## Rows -/

theorem length_repeatEach (items : List α) : (repeatEach n items).length = items.length * n := by
  induction items with
  | nil => exact (Nat.zero_mul n).symm
  | cons item rest ih =>
    rw [repeatEach] at ih
    rw [repeatEach, List.flatMap_cons, List.length_append, List.length_replicate, ih,
      List.length_cons, Nat.succ_mul, Nat.add_comm]

/-- A list is known by its items repeated. -/
theorem repeatEach_injective (positive : 0 < n) {items items' : List α}
    (same : repeatEach n items = repeatEach n items') : items = items' := by
  have length : items.length = items'.length := by
    have lengths := congrArg List.length same
    rw [length_repeatEach, length_repeatEach] at lengths
    exact Nat.eq_of_mul_eq_mul_right positive lengths
  induction items generalizing items' with
  | nil => exact (List.length_eq_zero_iff.mp length.symm).symm
  | cons item rest ih =>
    cases items' with
    | nil => cases length
    | cons item' rest' =>
      simp only [repeatEach, List.flatMap_cons] at same ih
      obtain ⟨first, later⟩ :=
        List.append_inj same (List.length_replicate.trans List.length_replicate.symm)
      obtain ⟨-, item⟩ := List.replicate_inj.mp first
      rw [item.resolve_left (Nat.ne_of_gt positive), ih later (Nat.succ.inj length)]

/-- Rows of one length are known by what they are joined to. -/
theorem flatten_injective {rows rows' : List (List α)} (width : ∀ row ∈ rows, row.length = n)
    (width' : ∀ row ∈ rows', row.length = n) (height : rows.length = rows'.length)
    (same : rows.flatten = rows'.flatten) : rows = rows' := by
  induction rows generalizing rows' with
  | nil => exact (List.length_eq_zero_iff.mp height.symm).symm
  | cons row rest ih =>
    cases rows' with
    | nil => cases height
    | cons row' rest' =>
      simp only [List.flatten_cons] at same
      obtain ⟨first, later⟩ := List.append_inj same
        ((width row List.mem_cons_self).trans (width' row' List.mem_cons_self).symm)
      rw [first, ih (fun row among => width row (List.mem_cons_of_mem _ among))
        (fun row among => width' row (List.mem_cons_of_mem _ among)) (Nat.succ.inj height) later]

/-- Where an item of a row stands when rows of one length are joined. -/
theorem getElem?_flatten {rows : List (List α)} (width : ∀ row ∈ rows, row.length = n)
    {row column : Nat} (within : column < n) :
    rows.flatten[row * n + column]? = rows[row]?.bind fun row => row[column]? := by
  induction rows generalizing row with
  | nil => rfl
  | cons first rest ih =>
    have long : first.length = n := width first List.mem_cons_self
    rw [List.flatten_cons]
    cases row with
    | zero =>
      rw [Nat.zero_mul, Nat.zero_add, List.getElem?_append_left (by rwa [long]),
        List.getElem?_cons_zero, Option.bind_some]
    | succ row =>
      have past : (row + 1) * n + column - n = row * n + column := by
        rw [Nat.succ_mul]
        omega
      have after : n ≤ (row + 1) * n + column := by
        rw [Nat.succ_mul]
        omega
      rw [List.getElem?_append_right (by rwa [long]), long, past, List.getElem?_cons_succ,
        ih fun row among => width row (List.mem_cons_of_mem _ among)]

/-- Rows of one length are joined to as many items as they hold. -/
theorem length_flatten {rows : List (List α)} (width : ∀ row ∈ rows, row.length = n) :
    rows.flatten.length = rows.length * n := by
  induction rows with
  | nil => exact (Nat.zero_mul n).symm
  | cons first rest ih =>
    rw [List.flatten_cons, List.length_append, width first List.mem_cons_self,
      ih fun row among => width row (List.mem_cons_of_mem _ among), List.length_cons, Nat.succ_mul,
      Nat.add_comm]

/-- Rows of one length are joined to the items that are stored row by row. -/
theorem flatten_eq_toList {rows : List (List α)} {cells : Array α}
    (width : ∀ row ∈ rows, row.length = n) (size : cells.size = n * rows.length)
    (same : ∀ row < rows.length, ∀ column < n,
      (rows.getD row [])[column]? = cells[row * n + column]?) :
    rows.flatten = cells.toList := by
  refine List.ext_getElem? fun i => ?_
  by_cases low : i < n * rows.length
  · have wide : 0 < n := Nat.pos_of_mul_pos_right (Nat.zero_lt_of_lt low)
    have within : i % n < n := Nat.mod_lt i wide
    have early : i / n < rows.length := Nat.div_lt_of_lt_mul low
    have place : rows.flatten[i / n * n + i % n]? = rows[i / n]?.bind fun row => row[i % n]? :=
      getElem?_flatten width within
    have stored := same (i / n) early (i % n) within
    rw [List.getD_eq_getElem?_getD, List.getElem?_eq_getElem early, Option.getD_some] at stored
    rw [Nat.div_add_mod', List.getElem?_eq_getElem early, Option.bind_some, stored,
      Nat.div_add_mod'] at place
    rw [place, Array.getElem?_toList]
  · have beyond : rows.flatten.length ≤ i := by
      rw [length_flatten width, Nat.mul_comm]
      exact Nat.le_of_not_lt low
    rw [List.getElem?_eq_none beyond, Array.getElem?_toList,
      Array.getElem?_eq_none (size ▸ Nat.le_of_not_lt low)]

/-- The picture has as many pixels as its sides say. -/
def Full (p : Picture) : Prop := p.pixels.size = p.width * p.height

variable {p p' : Picture}

theorem length_rows (p : Picture) : p.rows.length = p.height := by
  rw [rows, List.length_map, List.length_range]

/-- A row of a picture ends where its pixels still go on or just end. -/
theorem Full.end_row (full : p.Full) {k : Nat} (early : k < p.height) :
    k * p.width + p.width ≤ p.pixels.size := by
  have last : (k + 1) * p.width ≤ p.height * p.width := Nat.mul_le_mul_right _ early
  rwa [Nat.succ_mul, Nat.mul_comm p.height, ← full] at last

/-- The rows of a picture are as long as it is wide. -/
theorem Full.length_row (full : p.Full) {row : List Color} (among : row ∈ p.rows) :
    row.length = p.width := by
  obtain ⟨k, early, rfl⟩ := List.mem_map.mp among
  have last := full.end_row (List.mem_range.mp early)
  rw [Array.length_toList, Array.size_extract, Nat.min_eq_left last, Nat.add_sub_cancel_left]

/-- A pixel of a picture stands in its row. -/
theorem Full.getElem?_rows (full : p.Full) {row column : Nat} (early : row < p.height)
    (within : column < p.width) :
    (p.rows.getD row [])[column]? = p.pixels[row * p.width + column]? := by
  have here : p.rows[row]? =
      some (p.pixels.extract (row * p.width) (row * p.width + p.width)).toList := by
    rw [rows, List.getElem?_map, List.getElem?_range early, Option.map_some]
  rw [List.getD_eq_getElem?_getD, here, Option.getD_some, Array.getElem?_toList,
    Array.getElem?_extract, Nat.min_eq_left (full.end_row early), Nat.add_sub_cancel_left,
    if_pos within]

/-- A picture stores its rows one after the other. -/
theorem Full.flatten_rows (full : p.Full) : p.rows.flatten = p.pixels.toList := by
  refine flatten_eq_toList (fun _ => full.length_row) (by rw [length_rows, full]) ?_
  intro row early column within
  exact full.getElem?_rows (p.length_rows ▸ early) within

/-- A picture is known by its rows. -/
theorem Full.ext_rows (full : p.Full) (full' : p'.Full) (width : p.width = p'.width)
    (rows : p.rows = p'.rows) : p = p' := by
  have height : p.height = p'.height := by rw [← length_rows, rows, length_rows]
  have pixels : p.pixels = p'.pixels := by
    refine Array.ext' ?_
    rw [← full.flatten_rows, rows, full'.flatten_rows]
  obtain ⟨_, _, _⟩ := p
  cases width
  cases height
  cases pixels
  rfl

/-- The rows of a stretched picture are as long as it is wide. -/
theorem Full.length_stretched (full : p.Full) (across down : Nat) :
    ∀ row ∈ repeatEach down (p.rows.map (repeatEach across)), row.length = p.width * across := by
  intro row among
  obtain ⟨wider, among, copied⟩ := List.mem_flatMap.mp among
  obtain ⟨narrow, shown, rfl⟩ := List.mem_map.mp among
  rw [List.eq_of_mem_replicate copied, length_repeatEach, full.length_row shown]

/-- A picture is known by its enlargement. -/
theorem Full.stretch_injective (full : p.Full) (full' : p'.Full) (positive : 0 < n)
    (same : p.stretch n n = p'.stretch n n) : p = p' := by
  have width : p.width = p'.width :=
    Nat.eq_of_mul_eq_mul_right positive (congrArg Picture.width same)
  have height : p.height = p'.height :=
    Nat.eq_of_mul_eq_mul_right positive (congrArg Picture.height same)
  have pixels : (repeatEach n (p.rows.map (repeatEach n))).flatten =
      (repeatEach n (p'.rows.map (repeatEach n))).flatten :=
    congrArg (fun q : Picture => q.pixels.toList) same
  have rows : p.rows.map (repeatEach n) = p'.rows.map (repeatEach n) := by
    refine repeatEach_injective positive
      (flatten_injective (full.length_stretched n n) ?_ ?_ pixels)
    · rw [width]
      exact full'.length_stretched n n
    · simp only [length_repeatEach, List.length_map, length_rows, height]
  exact full.ext_rows full' width
    ((List.map_inj_right fun _ _ => repeatEach_injective positive).mp rows)

theorem full_ofRaster (r : Raster) (on off : Color) : (ofRaster r on off).Full :=
  (Array.size_map ..).trans r.size_cells

theorem ofRaster_injective {r r' : Raster}
    (same : ofRaster r .white .black = ofRaster r' .white .black) : r = r' := by
  have distinct (a b : Bool) (same : (if a then Color.white else .black) =
      if b then Color.white else .black) : a = b := by
    revert a b
    decide
  have width : r.width = r'.width := congrArg Picture.width same
  have height : r.height = r'.height := congrArg Picture.height same
  have cells : r.cells = r'.cells :=
    (Array.map_inj_right distinct).mp (congrArg Picture.pixels same)
  obtain ⟨_, _, _, _⟩ := r
  cases width
  cases height
  cases cells
  rfl

/-- **The picture of a raster loses nothing**, however much it is enlarged. -/
theorem render_injective {r r' : Raster} {zoom : Int}
    (drawn : render r zoom .white .black = .ok p)
    (drawn' : render r' zoom .white .black = .ok p) : r = r' := by
  unfold render at drawn drawn'
  by_cases small : zoom < 1
  · rw [if_pos small] at drawn
    cases drawn
  · rw [if_neg small] at drawn drawn'
    by_cases plain : zoom = 1
    · rw [if_pos plain] at drawn drawn'
      exact ofRaster_injective (Except.ok.inj (drawn.trans drawn'.symm))
    · rw [if_neg plain] at drawn drawn'
      have positive : 0 < zoom.toNat := by omega
      split at drawn
      · cases drawn
      · split at drawn'
        · cases drawn'
        · exact ofRaster_injective ((full_ofRaster ..).stretch_injective (full_ofRaster ..) positive
            (Except.ok.inj (drawn.trans drawn'.symm)))

/-! ## Pixels -/

/-- An item of a list stands where it was repeated. -/
theorem getElem?_repeatEach (positive : 0 < n) (items : List α) (k : Nat) :
    (repeatEach n items)[k]? = items[k / n]? := by
  induction items generalizing k with
  | nil => rfl
  | cons item rest ih =>
    rw [repeatEach, List.flatMap_cons, ← repeatEach]
    by_cases first : k < n
    · rw [List.getElem?_append_left (by rwa [List.length_replicate]),
        List.getElem?_replicate_of_lt first, Nat.div_eq_of_lt first, List.getElem?_cons_zero]
    · have later : k / n = (k - n) / n + 1 := by
        rw [Nat.div_eq_sub_div positive (Nat.le_of_not_lt first)]
      rw [List.getElem?_append_right (by rw [List.length_replicate]; omega),
        List.length_replicate, ih, later, List.getElem?_cons_succ]

theorem Full.stretch (full : p.Full) (across down : Nat) : (p.stretch across down).Full := by
  rw [Full, Picture.stretch, List.size_toArray, length_flatten (full.length_stretched across down),
    length_repeatEach, List.length_map, length_rows, Nat.mul_comm]

/-- A picture that is stretched by one in both directions stays as it is. -/
theorem Full.stretch_one (full : p.Full) : p.stretch 1 1 = p := by
  have single {β : Type} (items : List β) : repeatEach 1 items = items := by
    simp [repeatEach]
  have alike : p.rows.map (repeatEach 1) = p.rows := List.map_id'' single p.rows
  rw [Picture.stretch, alike, single, full.flatten_rows, Nat.mul_one, Nat.mul_one]

/-- A picture that is stretched shows each pixel as a block. -/
theorem Full.pixel?_stretch (full : p.Full) {across down : Nat} (wide : 0 < across)
    (high : 0 < down) {column row : Nat} (within : column < p.width * across)
    (early : row < p.height * down) :
    (p.stretch across down).pixel? column row = p.pixel? (column / across) (row / down) := by
  have inside : column / across < p.width := Nat.div_lt_of_lt_mul (Nat.mul_comm .. ▸ within)
  have above : row / down < p.height := Nat.div_lt_of_lt_mul (Nat.mul_comm .. ▸ early)
  have here : p.rows[row / down]? = some (p.rows.getD (row / down) []) := by
    rw [List.getD_eq_getElem?_getD, List.getElem?_eq_getElem (p.length_rows ▸ above),
      Option.getD_some]
  rw [pixel?, pixel?, if_pos inside, Picture.stretch, if_pos within, List.getElem?_toArray,
    getElem?_flatten (full.length_stretched across down) within, getElem?_repeatEach high,
    List.getElem?_map, here, Option.map_some, Option.bind_some, getElem?_repeatEach wide,
    full.getElem?_rows above inside]

theorem pixel?_ofRaster {r : Raster} (on off : Color) {column row : Nat}
    (within : column < r.width) (early : row < r.height) :
    (ofRaster r on off).pixel? column row = some (if r.lit column row then on else off) := by
  have place : row * r.width + column < r.cells.size := by
    have last : (row + 1) * r.width ≤ r.height * r.width := Nat.mul_le_mul_right _ early
    rw [Nat.succ_mul, Nat.mul_comm r.height, ← r.size_cells] at last
    omega
  rw [pixel?, ofRaster, if_pos within, Array.getElem?_map, Raster.lit,
    Array.getElem?_eq_getElem place, Array.getD_eq_getD_getElem?, Array.getElem?_eq_getElem place]
  rfl

/-- A picture shows the cells of a raster in two colours, each as a square of `zoom` times `zoom`
pixels. -/
structure Enlarges (p : Picture) (r : Raster) (zoom : Int) (on off : Color) : Prop where
  width : (p.width : Int) = r.width * zoom
  height : (p.height : Int) = r.height * zoom
  full : p.Full
  pixel : ∀ column row, column < p.width → row < p.height →
    p.pixel? column row =
      some (if r.lit (column / zoom.toNat) (row / zoom.toNat) then on else off)

/-- **The picture of a raster is its enlargement.** -/
theorem render_enlarges {r : Raster} {zoom : Int} {on off : Color}
    (drawn : render r zoom on off = .ok p) : p.Enlarges r zoom on off := by
  have full := full_ofRaster r on off
  unfold render at drawn
  by_cases small : zoom < 1
  · rw [if_pos small] at drawn
    cases drawn
  · rw [if_neg small] at drawn
    by_cases plain : zoom = 1
    · rw [if_pos plain] at drawn
      obtain rfl := Except.ok.inj drawn
      subst plain
      exact {
        width := (Int.mul_one _).symm
        height := (Int.mul_one _).symm
        full
        pixel := fun column row within early => by
          rw [Int.toNat_one, Nat.div_one, Nat.div_one, pixel?_ofRaster on off within early] }
    · rw [if_neg plain] at drawn
      have enlarged : (zoom.toNat : Int) = zoom := Int.toNat_of_nonneg (by omega)
      have positive : 0 < zoom.toNat := by omega
      split at drawn
      · cases drawn
      · obtain rfl := Except.ok.inj drawn
        exact {
          width := by rw [← enlarged]; exact Int.natCast_mul _ _
          height := by rw [← enlarged]; exact Int.natCast_mul _ _
          full := full.stretch _ _
          pixel := fun column row within early => by
            have inside : column / zoom.toNat < r.width :=
              Nat.div_lt_of_lt_mul (Nat.mul_comm .. ▸ within)
            have above : row / zoom.toNat < r.height :=
              Nat.div_lt_of_lt_mul (Nat.mul_comm .. ▸ early)
            rw [full.pixel?_stretch positive positive within early,
              pixel?_ofRaster on off inside above] }

/-- **A raster with pixels has a picture at every enlargement**: its cells, stretched alike in both
directions. -/
theorem render_eq_ok {r : Raster} (wide : 1 ≤ r.width) (high : 1 ≤ r.height) {zoom : Int}
    (positive : 1 ≤ zoom) (on off : Color) :
    render r zoom on off = .ok ((ofRaster r on off).stretch zoom.toNat zoom.toNat) := by
  have solid : ¬((r.width = 0 ∨ r.height = 0) ∧ ¬(r.width = 0 ∧ r.height = 0)) := by omega
  rw [render, if_neg (by omega : ¬zoom < 1)]
  by_cases plain : zoom = 1
  · subst plain
    rw [if_pos rfl, Int.toNat_one, (full_ofRaster r on off).stretch_one]
  · rw [if_neg plain, if_neg solid]

/-! ## Counts -/

theorem count_repeatEach [DecidableEq α] (items : List α) (item : α) :
    (repeatEach n items).count item = items.count item * n := by
  induction items with
  | nil => exact (Nat.zero_mul n).symm
  | cons first rest ih =>
    rw [repeatEach] at ih
    rw [repeatEach, List.flatMap_cons, List.count_append, ih, List.count_replicate, List.count_cons,
      Nat.add_mul, Nat.add_comm]
    cases first == item <;> simp

/-- Rows that are repeated hold every item as often again. -/
theorem count_flatten_repeatEach [DecidableEq α] (rows : List (List α)) (item : α) :
    (repeatEach n rows).flatten.count item = rows.flatten.count item * n := by
  induction rows with
  | nil => exact (Nat.zero_mul n).symm
  | cons first rest ih =>
    rw [repeatEach] at ih
    rw [repeatEach, List.flatMap_cons, List.flatten_append, List.count_append, ih,
      List.count_flatten, List.map_replicate, List.sum_replicate_nat, List.flatten_cons,
      List.count_append, Nat.add_mul, Nat.mul_comm n]

/-- A stretched picture has a block for every pixel of a colour. -/
theorem Full.count_stretch (full : p.Full) (across down : Nat) (color : Color) :
    (p.stretch across down).pixels.count color = p.pixels.count color * across * down := by
  have joined : (p.rows.map (repeatEach across)).flatten = repeatEach across p.rows.flatten :=
    calc (p.rows.map (repeatEach across)).flatten
        = p.rows.flatMap (repeatEach across) := List.flatMap_def.symm
      _ = (p.rows.flatMap id).flatMap fun item => List.replicate across item :=
          List.flatMap_assoc.symm
      _ = repeatEach across p.rows.flatten := by rw [List.flatMap_id, repeatEach]
  rw [Picture.stretch, List.count_toArray, count_flatten_repeatEach, joined, count_repeatEach,
    full.flatten_rows, Array.count_toList]

/-- What stands for lit cells, and not for dark ones, stands there as often as there are lit
cells. -/
theorem count_cells [DecidableEq α] {on off : α} (apart : on ≠ off) (cells : List Bool) :
    (cells.map fun cell => if cell then on else off).count on = cells.count true := by
  have injective : Function.Injective fun cell : Bool => if cell then on else off := by
    intro cell cell' same
    cases cell <;> cases cell' <;> simp_all [apart.symm]
  exact List.count_map_of_injective cells _ injective true

theorem count_ofRaster (r : Raster) {on off : Color} (apart : on ≠ off) :
    (ofRaster r on off).pixels.count on = r.litCount := by
  rw [ofRaster, ← Array.count_toList, Array.toList_map, count_cells apart, Array.count_toList,
    Raster.litCount]

/-- **The picture of a raster has a square of pixels for every lit cell.** -/
theorem count_render {r : Raster} (wide : 1 ≤ r.width) (high : 1 ≤ r.height) {zoom : Int}
    (positive : 1 ≤ zoom) {on off : Color} (apart : on ≠ off)
    (drawn : render r zoom on off = .ok p) :
    (p.pixels.count on : Int) = r.litCount * (zoom * zoom) := by
  have enlarged : (zoom.toNat : Int) = zoom := Int.toNat_of_nonneg (by omega)
  rw [render_eq_ok wide high positive] at drawn
  obtain rfl := Except.ok.inj drawn
  rw [(full_ofRaster r on off).count_stretch, count_ofRaster r apart, Int.natCast_mul,
    Int.natCast_mul, enlarged, Int.mul_assoc]

end ChipEight.Picture
