import ChipEight.Proofs.Host.Texts

/-!
# The views of a raster

A raster is seen in four ways: its pixels are looked up one by one, it is written as a text, it is
painted as a picture of any enlargement, and its lit pixels are counted. After any strokes on a
blank screen, draws and clears in any order, the four views show one raster
(`views_show_one_raster`). They are compared pixel by pixel on rasters of every shape, so that no
view takes columns for rows.
-/

namespace ChipEight

namespace Raster

variable {r : Raster} {column row : Nat}

/-- Inside the raster no coordinate is wrapped. -/
theorem pixel_eq_ok (within : column < r.width) (early : row < r.height) :
    r.pixel column row = .ok (r.lit column row) := by
  have wide : 1 ≤ r.width := Nat.one_le_of_lt within
  have high : 1 ≤ r.height := Nat.one_le_of_lt early
  have across : wrap column r.width = column :=
    (wrap_eq_iff wide).mpr (Int.emod_eq_of_lt (by omega) (by omega))
  have down : wrap row r.height = row :=
    (wrap_eq_iff high).mpr (Int.emod_eq_of_lt (by omega) (by omega))
  rw [pixel, if_neg (by omega), across, down]

/-- The lit pixels are counted one by one. -/
theorem countP_lit (r : Raster) :
    (List.range r.height ×ˢ List.range r.width).countP (fun place => r.lit place.2 place.1) =
      r.litCount := by
  have places : (List.range r.height ×ˢ List.range r.width).map
      (fun place => r.lit place.2 place.1) = r.rows.flatten := by
    simp [SProd.sprod, List.product, rows, List.flatMap_def, List.map_flatten, Function.comp_def]
  rw [litCount_eq, ← places, List.count, List.countP_map]
  refine List.countP_congr fun place _ => ?_
  simp

end Raster

/-! ## Strokes -/

/-- What changes the raster of a screen. -/
inductive Stroke where
  | draw (s : Sprite)
  | clear
deriving DecidableEq, Repr

namespace Screen

/-- The screen after a stroke. -/
def stroke (screen : Screen) : Stroke → Except Fault Screen
  | .draw s => (screen.draw s.x s.y s.bytes).map Prod.fst
  | .clear => .ok screen.clear

/-- The screen after some strokes, one after the other. -/
def paint (screen : Screen) (strokes : List Stroke) : Except Fault Screen :=
  strokes.foldlM stroke screen

variable {screen : Screen}

/-- On a raster with pixels every stroke succeeds, and keeps its shape. -/
theorem exists_stroke (wide : 1 ≤ screen.raster.width) (high : 1 ≤ screen.raster.height)
    (s : Stroke) :
    ∃ after, screen.stroke s = .ok after ∧ after.raster.width = screen.raster.width ∧
      after.raster.height = screen.raster.height := by
  cases s with
  | draw s =>
    refine ⟨screen.drawn s.x s.y s.bytes, ?_, screen.raster.sides_draw s.x s.y s.bytes⟩
    rw [stroke, draw_eq_ok wide high]
    rfl
  | clear => exact ⟨screen.clear, rfl, rfl, rfl⟩

/-- **Any strokes succeed** on a raster with pixels, and keep its shape. -/
theorem exists_paint (wide : 1 ≤ screen.raster.width) (high : 1 ≤ screen.raster.height)
    (strokes : List Stroke) :
    ∃ after, screen.paint strokes = .ok after ∧ after.raster.width = screen.raster.width ∧
      after.raster.height = screen.raster.height := by
  induction strokes generalizing screen with
  | nil => exact ⟨screen, rfl, rfl, rfl⟩
  | cons s rest ih =>
    obtain ⟨next, stroked, width, height⟩ := exists_stroke wide high s
    obtain ⟨after, painted, width', height'⟩ :=
      ih (wide.trans_eq width.symm) (high.trans_eq height.symm)
    refine ⟨after, ?_, width'.trans width, height'.trans height⟩
    rw [paint, List.foldlM_cons, stroked]
    exact painted

end Screen

/-! ## Views -/

/-- **All views show the same raster.** Strokes on a blank screen with pixels succeed and keep its
shape. Every pixel of the raster that they leave can be looked up, and `litCount` of them are lit.
In its text there is a line for every row and a cell for every pixel, and `litCount` cells for lit
pixels, provided that these can be told from the others; the lines stand between the line breaks if
no cell holds one. From a text of two characters the raster is read back, even without its shape if
neither of them is the line break. And at every enlargement there is a picture, which shows each
pixel as a square of `zoom` times `zoom` pixels, so that `litCount` squares have the colour of lit
pixels, provided again that this is another colour than that of dark ones. -/
theorem views_show_one_raster {width height : Nat} (wide : 1 ≤ width) (high : 1 ≤ height)
    (strokes : List Stroke) :
    ∃ screen, (Screen.blank width height).paint strokes = .ok screen ∧
      (screen.raster.width = width ∧ screen.raster.height = height) ∧
      ((∀ column < width, ∀ row < height,
          screen.raster.pixel column row = .ok (screen.raster.lit column row)) ∧
        (List.range height ×ˢ List.range width).countP
          (fun place => screen.raster.lit place.2 place.1) = screen.raster.litCount) ∧
      (∀ on off : String, ∃ lines, screen.raster.Prints on off lines ∧
        (on ≠ off → lines.flatten.count on = screen.raster.litCount) ∧
        ('\n' ∉ on.toList → '\n' ∉ off.toList →
          (screen.raster.text on off).toList.splitOn '\n' =
            lines.map fun line => (String.join line).toList)) ∧
      (∀ on off : Char, on ≠ off →
        let text := screen.raster.text (String.singleton on) (String.singleton off)
        Raster.ofText width height on text = screen.raster ∧
        (on ≠ '\n' → text.toList.count on = screen.raster.litCount) ∧
        (on ≠ '\n' → off ≠ '\n' → Raster.readText on text = screen.raster)) ∧
      (∀ (zoom : Int) (on off : Color), 1 ≤ zoom →
        ∃ picture, Picture.render screen.raster zoom on off = .ok picture ∧
          picture.Enlarges screen.raster zoom on off ∧
          (on ≠ off →
            (picture.pixels.count on : Int) = screen.raster.litCount * (zoom * zoom))) := by
  obtain ⟨screen, painted, rfl, rfl⟩ :=
    Screen.exists_paint (show 1 ≤ (Screen.blank width height).raster.width from wide) high strokes
  refine ⟨screen, painted, ⟨rfl, rfl⟩,
    ⟨fun column within row early => Raster.pixel_eq_ok within early, screen.raster.countP_lit⟩,
    fun on off => ?_, fun on off apart => ?_, fun zoom on off positive => ?_⟩
  · exact ⟨_, screen.raster.prints_text on off, Raster.count_written _,
      fun plain plain' => Raster.splitOn_text high plain plain'⟩
  · exact ⟨screen.raster.ofText_text apart, screen.raster.count_text apart,
      screen.raster.readText_text high apart⟩
  · have drawn := Picture.render_eq_ok wide high positive on off
    exact ⟨_, drawn, Picture.render_enlarges drawn,
      fun apart => Picture.count_render wide high positive apart drawn⟩

/-- On a raster two pixels wide and three high, the last stroke leaves two dots. They come around
the left edge into the right column, in the middle and at the bottom. -/
theorem views_show_one_raster_upright :
    let strokes : List Stroke := [.draw ⟨0, 0, [255, 128]⟩, .clear, .draw ⟨-1, 4, [128, 384]⟩]
    let red : Color := ⟨255, 0, 0⟩
    1 ≤ 2 ∧ 1 ≤ 3 ∧
      ∃ screen, (Screen.blank 2 3).paint strokes = .ok screen ∧
        screen.raster.pixel 1 2 = .ok true ∧ screen.raster.litCount = 2 ∧
        Raster.readText '#' (screen.raster.text "#" "-") = screen.raster ∧
        Raster.ofText 2 3 '\n' (screen.raster.text "\n" "-") = screen.raster ∧
        ∃ picture, Picture.render screen.raster 2 red .black = .ok picture ∧
          (picture.width, picture.height) = (4, 6) ∧
          picture.pixel? 3 4 = some red ∧ picture.pixel? 1 4 = some .black ∧
          picture.pixels.count red = 8 := by
  intro strokes red
  obtain ⟨screen, painted, -, ⟨pixels, -⟩, -, characters, pictures⟩ :=
    views_show_one_raster (show 1 ≤ 2 by decide) (show 1 ≤ 3 by decide) strokes
  obtain ⟨readWithShape, -, -⟩ := characters '\n' '-' (by decide)
  obtain ⟨-, -, read⟩ := characters '#' '-' (by decide)
  obtain ⟨picture, drawn, enlarges, squares⟩ := pictures 2 red .black (by decide)
  obtain rfl : (⟨⟨2, 3, #[false, false, false, true, false, true], rfl⟩, true⟩ : Screen) = screen :=
    Except.ok.inj (Eq.trans (by decide +kernel) painted)
  have width : picture.width = 4 := by exact_mod_cast enlarges.width
  have height : picture.height = 6 := by exact_mod_cast enlarges.height
  refine ⟨by decide, by decide, _, painted, pixels 1 (by decide) 2 (by decide), rfl,
    read (by decide) (by decide), readWithShape, picture, drawn, ?_, ?_, ?_, ?_⟩
  · rw [width, height]
  · rw [enlarges.pixel 3 4 (by omega) (by omega)]
    rfl
  · rw [enlarges.pixel 1 4 (by omega) (by omega)]
    rfl
  · have counted := squares (by decide)
    exact_mod_cast counted

end ChipEight
