import ChipEight.Machine.Memory
import ChipEight.Proofs.Machine.Access
import Mathlib.Algebra.BigOperators.Group.List.Basic
import Mathlib.Data.Int.Bitwise
import Mathlib.Data.List.ProdSigma
import Mathlib.Data.Nat.Bits

/-!
# What drawing does to a raster

A sprite has dots, the set bits of its rows, and each dot falls on a pixel of the raster. Drawing
flips the pixel under every dot, one after the other (`hits_eq_map_dots`). On a raster that is
narrower or lower than the sprite several dots fall on one pixel, which is then flipped several
times; of the flips of a pixel only the parity is left at the end (`lit_strikes`).

`draws_flip_by_parity` says so for lists of draws. What the draws leave is therefore the same in any
order, it does not change when a sprite is moved by whole widths and heights, and drawing everything
a second time takes it back.
-/

namespace ChipEight

/-- The bits of the lowest byte of an integer are its own lowest bits. -/
theorem testBit_lowByte (n : Int) {k : Nat} (low : k < 8) :
    (lowByte n).toNat.testBit k = n.testBit k := by
  have byte : (lowByte n).toNat = (n % 256).toNat := by
    have remainder := toNat_lowByte n
    omega
  rw [byte]
  cases n with
  | ofNat m =>
    have natural : (Int.ofNat m % 256).toNat = m % 2 ^ 8 :=
      Int.toNat_emod (Int.natCast_nonneg m) (by decide)
    rw [natural, Nat.testBit_mod_two_pow, decide_eq_true low, Bool.true_and]
    rfl
  | negSucc m =>
    -- Below zero the bits of `m` are turned over, and so are those of its lowest byte.
    have complement : (Int.negSucc m % 256).toNat = 2 ^ 8 - (m % 2 ^ 8 + 1) := by omega
    have bounded : m % 2 ^ 8 < 2 ^ 8 := Nat.mod_lt m (by decide)
    rw [complement, Nat.testBit_two_pow_sub_succ bounded, Nat.testBit_mod_two_pow,
      decide_eq_true low, Bool.true_and, Bool.true_and]
    rfl

/-- A sprite at a place. Of the integer for a row only the lowest eight bits count, the highest of
them leftmost. -/
structure Sprite where
  x : Int
  y : Int
  rows : List Int
deriving DecidableEq, Repr

namespace Sprite

/-- The rows as bytes. -/
def bytes (s : Sprite) : List UInt8 := s.rows.map lowByte

/-- The dots of a sprite: row and column of every set bit. -/
def dots (s : Sprite) : List (Nat × Nat) :=
  (List.range s.rows.length ×ˢ List.range spriteWidth).filter fun dot =>
    (s.rows.getD dot.1 0).testBit (spriteWidth - 1 - dot.2)

/-- The dots of the first row come first, then those of the others, one row further down. -/
theorem dots_cons (x y : Int) (row : Int) (rest : List Int) :
    (mk x y (row :: rest)).dots =
      ((List.range spriteWidth).filter fun column => row.testBit (spriteWidth - 1 - column)).map
          (fun column => (0, column)) ++
        (mk x (y + 1) rest).dots.map fun dot => (dot.1 + 1, dot.2) := by
  have rows : List.range (rest.length + 1) ×ˢ List.range spriteWidth =
      (List.range spriteWidth).map (fun column => (0, column)) ++
        (List.range rest.length ×ˢ List.range spriteWidth).map fun dot => (dot.1 + 1, dot.2) := by
    rw [List.range_succ_eq_map, List.product_cons]
    simp only [SProd.sprod, List.product, List.flatMap_map, List.map_flatMap, List.map_map]
    rfl
  rw [dots, List.length_cons, rows, List.filter_append, List.filter_map, List.filter_map]
  rfl

/-- Does a dot of a sprite fall on a pixel? -/
def Covers (s : Sprite) (width height : Nat) (pixel : Nat × Nat) (dot : Nat × Nat) : Prop :=
  (s.x + dot.2) % width = pixel.1 ∧ (s.y + dot.1) % height = pixel.2

instance (s : Sprite) (width height : Nat) (pixel dot : Nat × Nat) :
    Decidable (s.Covers width height pixel dot) :=
  inferInstanceAs (Decidable (_ ∧ _))

/-- The number of dots of a sprite that fall on a pixel. -/
def dotsOn (s : Sprite) (width height : Nat) (pixel : Nat × Nat) : Nat :=
  s.dots.countP fun dot => s.Covers width height pixel dot

/-- The second sprite is the first one, moved by whole widths and heights. -/
structure Shifted (width height : Nat) (s s' : Sprite) : Prop where
  rows : s'.rows = s.rows
  x : ∃ turns : Int, s'.x = s.x + turns * width
  y : ∃ turns : Int, s'.y = s.y + turns * height

/-- Moved by whole widths and heights, a sprite covers what it covered before. -/
theorem Shifted.dotsOn_eq {width height : Nat} {s s' : Sprite} (shifted : Shifted width height s s')
    (pixel : Nat × Nat) : s'.dotsOn width height pixel = s.dotsOn width height pixel := by
  obtain ⟨rows, ⟨i, x⟩, ⟨j, y⟩⟩ := shifted
  have same : ∀ dot, s'.Covers width height pixel dot ↔ s.Covers width height pixel dot := by
    intro dot
    rw [Covers, Covers, x, y, add_right_comm, Int.add_mul_emod_self_right, add_right_comm,
      Int.add_mul_emod_self_right]
  simp only [dotsOn, dots, rows, same]

end Sprite

namespace Raster

variable {r : Raster} {hit pixel : Nat × Nat} {hits : List (Nat × Nat)}

/-- A pixel lies inside the raster. -/
def Contains (r : Raster) (pixel : Nat × Nat) : Prop := pixel.1 < r.width ∧ pixel.2 < r.height

/-- The place of a pixel in row-major order. -/
theorem Contains.index_lt (inside : r.Contains pixel) :
    pixel.2 * r.width + pixel.1 < r.cells.size := by
  have last : (pixel.2 + 1) * r.width ≤ r.height * r.width := Nat.mul_le_mul_right _ inside.2
  rw [Nat.succ_mul, Nat.mul_comm r.height] at last
  rw [r.size_cells]
  exact Nat.lt_of_lt_of_le (Nat.add_lt_add_left inside.1 _) last

/-- Pixels inside a raster have places of their own. -/
theorem Contains.index_inj (inside : r.Contains hit) (inside' : r.Contains pixel) :
    hit.2 * r.width + hit.1 = pixel.2 * r.width + pixel.1 ↔ hit = pixel := by
  refine ⟨fun same => ?_, fun same => same ▸ rfl⟩
  have wide : 0 < r.width := Nat.lt_of_le_of_lt (Nat.zero_le _) inside.1
  have column := congrArg (· % r.width) same
  have row := congrArg (· / r.width) same
  simp only [Nat.mul_add_mod_self_right, Nat.mod_eq_of_lt inside.1, Nat.mod_eq_of_lt inside'.1]
    at column
  simp only [Nat.mul_comm _ r.width, Nat.mul_add_div wide, Nat.div_eq_of_lt inside.1,
    Nat.div_eq_of_lt inside'.1, Nat.add_zero] at row
  exact Prod.ext column row

/-- Two rasters of one size with the same pixels are the same. -/
theorem ext_lit {r r' : Raster} (width : r.width = r'.width) (height : r.height = r'.height)
    (pixels : ∀ pixel, r.Contains pixel → r.lit pixel.1 pixel.2 = r'.lit pixel.1 pixel.2) :
    r = r' := by
  have size : r.cells.size = r'.cells.size := by
    rw [r.size_cells, r'.size_cells, width, height]
  have cells : r.cells = r'.cells := by
    refine Array.ext size fun i low low' => ?_
    have within : i < r.width * r.height := r.size_cells ▸ low
    have wide : 0 < r.width := Nat.pos_of_mul_pos_right (Nat.zero_lt_of_lt within)
    have inside : r.Contains (i % r.width, i / r.width) :=
      ⟨Nat.mod_lt i wide, Nat.div_lt_of_lt_mul within⟩
    have pixel := pixels _ inside
    simpa only [lit, ← width, Nat.div_add_mod', Array.getD_eq_getD_getElem?,
      Array.getElem?_eq_getElem low, Array.getElem?_eq_getElem low', Option.getD_some] using pixel
  obtain ⟨_, _, _, _⟩ := r
  cases width
  cases height
  cases cells
  rfl

/-- A flip turns one pixel over and leaves the others alone. -/
theorem lit_flip (inside : r.Contains hit) (inside' : r.Contains pixel) :
    (r.flip hit.1 hit.2).lit pixel.1 pixel.2 = (r.lit pixel.1 pixel.2 ^^ hit == pixel) := by
  simp only [lit, flip, Array.getD_eq_getD_getElem?, Array.getElem?_modify]
  by_cases same : hit = pixel
  · subst same
    rw [if_pos rfl, Array.getElem?_eq_getElem inside.index_lt]
    simp
  · rw [if_neg (mt (inside.index_inj inside').mp same), beq_false_of_ne same, Bool.xor_false]

/-! ## Strikes -/

theorem sides_strike (hits : List (Nat × Nat)) (state : Raster × Bool) :
    (hits.foldl strike state).1.width = state.1.width ∧
      (hits.foldl strike state).1.height = state.1.height := by
  induction hits generalizing state with
  | nil => exact ⟨rfl, rfl⟩
  | cons hit rest ih => exact ih (strike state hit)

theorem sides_draw (r : Raster) (x y : Int) (rows : List UInt8) :
    (r.draw x y rows).1.width = r.width ∧ (r.draw x y rows).1.height = r.height :=
  sides_strike (Raster.hits r.width r.height x y rows) (r, false)

/-- The first strike of several, and the others after it. -/
theorem strike_cons (r : Raster) (flag : Bool) (hit : Nat × Nat) (rest : List (Nat × Nat)) :
    (hit :: rest).foldl strike (r, flag) =
      rest.foldl strike (r.flip hit.1 hit.2, flag || r.lit hit.1 hit.2) := rfl

/-- **After any strikes a pixel differs from what it was by the parity of its strikes.** -/
theorem lit_strikes (inside : ∀ hit ∈ hits, r.Contains hit) (inside' : r.Contains pixel)
    (flag : Bool) :
    (hits.foldl strike (r, flag)).1.lit pixel.1 pixel.2 =
      (r.lit pixel.1 pixel.2 ^^ (hits.count pixel).bodd) := by
  induction hits generalizing r flag with
  | nil => simp
  | cons hit rest ih =>
    have here := inside hit List.mem_cons_self
    have later : ∀ other ∈ rest, (r.flip hit.1 hit.2).Contains other := fun other among =>
      inside other (List.mem_cons_of_mem _ among)
    rw [strike_cons, ih later inside', lit_flip here inside', List.count_cons]
    by_cases same : hit = pixel
    · simp [same]
    · simp [beq_false_of_ne same]

/-- **The strikes of a draw** are the dots of the sprite, each on the pixel on which it falls. -/
theorem hits_eq_map_dots (width height : Nat) (x y : Int) (rows : List Int) :
    Raster.hits width height x y (rows.map lowByte) =
      (Sprite.mk x y rows).dots.map fun (dot : Nat × Nat) =>
        (wrap (x + dot.2) width, wrap (y + dot.1) height) := by
  induction rows generalizing y with
  | nil => rfl
  | cons row rest ih =>
    have columns : setColumns (lowByte row) =
        (List.range spriteWidth).filter fun column => row.testBit (spriteWidth - 1 - column) := by
      refine List.filter_congr fun column early => ?_
      have low : spriteWidth - 1 - column < 8 := by
        rw [spriteWidth]
        omega
      exact testBit_lowByte row low
    rw [List.map_cons, Raster.hits, columns, ih, Sprite.dots_cons, List.map_append, List.map_map,
      List.map_map]
    congr 1
    · refine List.map_congr_left fun column _ => ?_
      simp
    · refine List.map_congr_left fun dot _ => ?_
      have below : y + ((dot.1 + 1 : Nat) : Int) = y + 1 + dot.1 := by omega
      simp only [Function.comp_apply, below]

/-- The place of a coordinate on an axis with pixels. -/
theorem wrap_eq_iff {coordinate : Int} {size place : Nat} (positive : 1 ≤ size) :
    wrap coordinate size = place ↔ coordinate % size = place := by
  have natural := Int.emod_nonneg coordinate (b := size) (by omega)
  rw [wrap]
  omega

theorem wrap_lt (coordinate : Int) {size : Nat} (positive : 1 ≤ size) :
    wrap coordinate size < size := by
  have below := Int.emod_lt_of_pos coordinate (b := size) (by omega)
  rw [wrap]
  omega

/-- A sprite strikes a pixel as often as dots of it fall there. -/
theorem count_hits {width height : Nat} (wide : 1 ≤ width) (high : 1 ≤ height) (s : Sprite)
    (pixel : Nat × Nat) :
    (Raster.hits width height s.x s.y s.bytes).count pixel = s.dotsOn width height pixel := by
  rw [Sprite.bytes, hits_eq_map_dots, List.count, List.countP_map, Sprite.dotsOn]
  refine List.countP_congr fun dot _ => ?_
  rw [Function.comp_apply, beq_iff_eq, decide_eq_true_iff, Prod.ext_iff, Sprite.Covers,
    wrap_eq_iff wide, wrap_eq_iff high]

/-- A sprite strikes no pixel outside the raster. -/
theorem contains_of_mem_hits (wide : 1 ≤ r.width) (high : 1 ≤ r.height) (s : Sprite) :
    ∀ hit ∈ Raster.hits r.width r.height s.x s.y s.bytes, r.Contains hit := by
  intro hit among
  rw [Sprite.bytes, hits_eq_map_dots] at among
  obtain ⟨dot, -, rfl⟩ := List.mem_map.mp among
  exact ⟨wrap_lt _ wide, wrap_lt _ high⟩

theorem lit_draw (wide : 1 ≤ r.width) (high : 1 ≤ r.height) (s : Sprite)
    (inside : r.Contains pixel) :
    (r.draw s.x s.y s.bytes).1.lit pixel.1 pixel.2 =
      (r.lit pixel.1 pixel.2 ^^ (s.dotsOn r.width r.height pixel).bodd) := by
  rw [draw, lit_strikes (contains_of_mem_hits wide high s) inside, count_hits wide high]

end Raster

/-! ## Lists of draws -/

/-- How often the dots of some sprites fall on a pixel: the number of dots of all sprites, each with
its sprite, that fall there. -/
def strikes (width height : Nat) (pixel : Nat × Nat) (sprites : List Sprite) : Nat :=
  (sprites.map fun s => s.dotsOn width height pixel).sum

namespace Screen

/-- Draws some sprites, one after the other. -/
def drawAll (screen : Screen) (sprites : List Sprite) : Except Fault Screen :=
  sprites.foldlM (fun screen s => (screen.draw s.x s.y s.bytes).map Prod.fst) screen

/-- What the draws of some sprites leave of a screen. -/
structure Leaves (screen : Screen) (sprites : List Sprite) (after : Screen) : Prop where
  width : after.raster.width = screen.raster.width
  height : after.raster.height = screen.raster.height
  lit : ∀ pixel, screen.raster.Contains pixel →
    after.raster.lit pixel.1 pixel.2 = (screen.raster.lit pixel.1 pixel.2 ^^
      (strikes screen.raster.width screen.raster.height pixel sprites).bodd)
  dirty : after.dirty = (screen.dirty || !sprites.isEmpty)

variable {screen after after' : Screen} {sprites sprites' : List Sprite}

/-- On a raster with pixels, every draw succeeds. -/
theorem draw_eq_ok (wide : 1 ≤ screen.raster.width) (high : 1 ≤ screen.raster.height)
    (s : Sprite) :
    screen.draw s.x s.y s.bytes =
      .ok (screen.drawn s.x s.y s.bytes, (screen.raster.draw s.x s.y s.bytes).2) := by
  have axes : screen.raster.lacksAxis s.bytes = false := by
    rw [Raster.lacksAxis, beq_false_of_ne (Nat.ne_of_gt high), beq_false_of_ne (Nat.ne_of_gt wide)]
    rfl
  rw [draw_eq_raiseOr, drawFault?, axes]
  rfl

/-- **Some draws flip every pixel as often as it is struck.** -/
theorem exists_leaves (wide : 1 ≤ screen.raster.width) (high : 1 ≤ screen.raster.height)
    (sprites : List Sprite) :
    ∃ after, screen.drawAll sprites = .ok after ∧ screen.Leaves sprites after := by
  induction sprites generalizing screen with
  | nil =>
    refine ⟨screen, rfl, rfl, rfl, fun pixel _ => ?_, ?_⟩
    · simp [strikes]
    · simp
  | cons s rest ih =>
    obtain ⟨width, height⟩ := screen.raster.sides_draw s.x s.y s.bytes
    have wideAfter : 1 ≤ (screen.drawn s.x s.y s.bytes).raster.width := wide.trans_eq width.symm
    have highAfter : 1 ≤ (screen.drawn s.x s.y s.bytes).raster.height := high.trans_eq height.symm
    obtain ⟨after, drawn, leaves⟩ := ih wideAfter highAfter
    refine ⟨after, ?_, leaves.width.trans width, leaves.height.trans height, fun pixel inside => ?_,
      ?_⟩
    · rw [drawAll, List.foldlM_cons, draw_eq_ok wide high]
      exact drawn
    · have inside' : (screen.drawn s.x s.y s.bytes).raster.Contains pixel :=
        ⟨inside.1.trans_eq width.symm, inside.2.trans_eq height.symm⟩
      have sides : strikes (screen.drawn s.x s.y s.bytes).raster.width
          (screen.drawn s.x s.y s.bytes).raster.height pixel rest =
          strikes screen.raster.width screen.raster.height pixel rest := by
        rw [Screen.drawn, width, height]
      rw [leaves.lit pixel inside', sides, Screen.drawn, Raster.lit_draw wide high s inside,
        Bool.xor_assoc, ← Nat.bodd_add, strikes, strikes, List.map_cons, List.sum_cons]
    · rw [leaves.dirty]
      simp [Screen.drawn]

/-- What draws leave is determined by how often they strike each pixel. -/
theorem Leaves.unique (leaves : screen.Leaves sprites after)
    (leaves' : screen.Leaves sprites' after')
    (struck : ∀ pixel, strikes screen.raster.width screen.raster.height pixel sprites' =
      strikes screen.raster.width screen.raster.height pixel sprites)
    (none : sprites'.isEmpty = sprites.isEmpty) : after' = after := by
  have raster : after'.raster = after.raster := by
    refine Raster.ext_lit (leaves'.width.trans leaves.width.symm)
      (leaves'.height.trans leaves.height.symm) fun pixel inside => ?_
    have inside' : screen.raster.Contains pixel :=
      ⟨inside.1.trans_eq leaves'.width, inside.2.trans_eq leaves'.height⟩
    rw [leaves'.lit pixel inside', leaves.lit pixel inside', struck]
  have dirty : after'.dirty = after.dirty := by rw [leaves'.dirty, leaves.dirty, none]
  obtain ⟨_, _⟩ := after
  cases raster
  cases dirty
  rfl

end Screen

theorem strikes_perm {width height : Nat} {pixel : Nat × Nat} {sprites sprites' : List Sprite}
    (permuted : sprites'.Perm sprites) :
    strikes width height pixel sprites' = strikes width height pixel sprites :=
  (permuted.map _).sum_eq

theorem strikes_shifted {width height : Nat} {pixel : Nat × Nat} {sprites sprites' : List Sprite}
    (shifted : List.Forall₂ (Sprite.Shifted width height) sprites sprites') :
    strikes width height pixel sprites' = strikes width height pixel sprites := by
  induction shifted with
  | nil => rfl
  | cons first _ ih =>
    rw [strikes, List.map_cons, List.sum_cons, first.dotsOn_eq]
    exact congrArg _ ih

/-- **Draws flip each pixel by the parity of its strikes.** On a raster with pixels, any draws
succeed, and a pixel is then what it was, flipped if an odd number of dots fell on it. So the draws
leave the same screen in any order and from places that are whole widths and heights away, and the
same draws in any order once more bring the raster back. -/
theorem draws_flip_by_parity (screen : Screen) (wide : 1 ≤ screen.raster.width)
    (high : 1 ≤ screen.raster.height) (sprites : List Sprite) :
    ∃ after, screen.drawAll sprites = .ok after ∧
      (after.raster.width = screen.raster.width ∧ after.raster.height = screen.raster.height) ∧
      (∀ column < screen.raster.width, ∀ row < screen.raster.height,
        after.raster.lit column row = (screen.raster.lit column row ^^
          (strikes screen.raster.width screen.raster.height (column, row) sprites).bodd)) ∧
      (∀ permuted : List Sprite, permuted.Perm sprites → screen.drawAll permuted = .ok after) ∧
      (∀ moved,
        List.Forall₂ (Sprite.Shifted screen.raster.width screen.raster.height) sprites moved →
          screen.drawAll moved = .ok after) ∧
      ∀ again : List Sprite, again.Perm sprites →
        ∃ restored, after.drawAll again = .ok restored ∧ restored.raster = screen.raster := by
  obtain ⟨after, drawn, leaves⟩ := Screen.exists_leaves wide high sprites
  refine ⟨after, drawn, ⟨leaves.width, leaves.height⟩, fun column within row early =>
    leaves.lit (column, row) ⟨within, early⟩, fun permuted same => ?_, fun moved shifted => ?_,
    fun again same => ?_⟩
  · obtain ⟨after', drawn', leaves'⟩ := Screen.exists_leaves wide high permuted
    rw [drawn', leaves.unique leaves' (fun pixel => strikes_perm same) same.isEmpty_eq]
  · obtain ⟨after', drawn', leaves'⟩ := Screen.exists_leaves wide high moved
    have none : moved.isEmpty = sprites.isEmpty := by cases shifted <;> rfl
    rw [drawn', leaves.unique leaves' (fun pixel => strikes_shifted shifted) none]
  · obtain ⟨restored, drawn', leaves'⟩ := Screen.exists_leaves
      (wide.trans_eq leaves.width.symm) (high.trans_eq leaves.height.symm) again
    refine ⟨restored, drawn', Raster.ext_lit (leaves'.width.trans leaves.width)
      (leaves'.height.trans leaves.height) fun pixel inside => ?_⟩
    have inside : after.raster.Contains pixel :=
      ⟨inside.1.trans_eq leaves'.width, inside.2.trans_eq leaves'.height⟩
    have inside' : screen.raster.Contains pixel :=
      ⟨inside.1.trans_eq leaves.width, inside.2.trans_eq leaves.height⟩
    rw [leaves'.lit pixel inside, leaves.lit pixel inside', leaves.width, leaves.height,
      strikes_perm same, Bool.xor_assoc, Bool.xor_self, Bool.xor_false]

/-- On a narrow raster, rows of eight dots, one of them below zero and far outside. -/
theorem draws_flip_by_parity_narrow :
    let screen := Screen.blank 3 2
    let sprites : List Sprite := [⟨-1, 5, [255, 1, -127]⟩, ⟨10 ^ 30, -7, [384]⟩]
    1 ≤ screen.raster.width ∧ 1 ≤ screen.raster.height ∧
      ∃ after, screen.drawAll sprites = .ok after ∧ after.raster.lit 1 1 = true ∧
        screen.drawAll sprites.reverse = .ok after ∧
        ∃ restored, after.drawAll sprites = .ok restored ∧ restored.raster = screen.raster := by
  intro screen sprites
  obtain ⟨after, drawn, -, pixels, permuted, -, again⟩ :=
    draws_flip_by_parity screen (by decide) (by decide) sprites
  refine ⟨by decide, by decide, after, drawn, ?_, permuted _ sprites.reverse_perm,
    again _ (.refl _)⟩
  rw [pixels 1 (by decide) 1 (by decide)]
  decide +kernel

end ChipEight
