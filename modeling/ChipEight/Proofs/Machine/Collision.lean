import ChipEight.Proofs.Machine.Drawing
import Mathlib.Data.List.Nodup

/-!
# When a draw collides

A draw collides when one of its strikes turns a lit pixel off; `darkenings` counts these strikes.
Each strike changes the number of lit pixels by one, so the lit pixels before and after a draw tell
how many of its strikes darkened (`litCount_strikes`). A pixel that is struck is darkened by its
first strike if it was lit, and by its second one otherwise (`darkenings_pos_iff`).

On a raster that is at least as wide and as high as the sprite no pixel is struck twice
(`nodup_hits`). Only there does a collision mean that the sprite met a lit pixel.
-/

namespace ChipEight

namespace Sprite

/-- A dot of the sprite falls on a pixel that is lit, or on one that is dark. -/
def Meets (s : Sprite) (r : Raster) (lit : Bool) : Prop :=
  ∃ column < r.width, ∃ row < r.height,
    1 ≤ s.dotsOn r.width r.height (column, row) ∧ r.lit column row = lit

/-- Several dots of the sprite fall on one pixel. -/
def Overlaps (s : Sprite) (width height : Nat) : Prop :=
  ∃ column < width, ∃ row < height, 2 ≤ s.dotsOn width height (column, row)

end Sprite

namespace Raster

variable {r : Raster} {hit pixel : Nat × Nat} {hits : List (Nat × Nat)}

/-- The number of strikes that turn a lit pixel off. -/
def darkenings (r : Raster) : List (Nat × Nat) → Nat
  | [] => 0
  | hit :: rest => (r.lit hit.1 hit.2).toNat + (r.flip hit.1 hit.2).darkenings rest

/-- A bit that is turned over is one more, or one less. -/
theorem count_set_not (bits : List Bool) {i : Nat} (low : i < bits.length) :
    (bits.set i !bits[i]).count true + 2 * bits[i].toNat = bits.count true + 1 := by
  have among (set : bits[i] = true) : 0 < bits.count true :=
    List.count_pos_iff.mpr (set ▸ List.getElem_mem low)
  rw [List.count_set low]
  revert among
  generalize bits[i] = bit
  cases bit with
  | false => simp
  | true =>
    intro among
    have positive := among rfl
    simp only [beq_self_eq_true, if_true, Bool.not_true, Bool.false_beq, Bool.false_eq_true,
      if_false, Bool.toNat_true]
    omega

/-- A flip adds a lit pixel, or takes away the one that was lit. -/
theorem litCount_flip (inside : r.Contains hit) :
    (r.flip hit.1 hit.2).litCount + 2 * (r.lit hit.1 hit.2).toNat = r.litCount + 1 := by
  have low : hit.2 * r.width + hit.1 < r.cells.toList.length := inside.index_lt
  have here : r.lit hit.1 hit.2 = r.cells.toList[hit.2 * r.width + hit.1] := by
    rw [lit, Array.getD_eq_getD_getElem?, Array.getElem?_eq_getElem inside.index_lt]
    rfl
  have turned : r.cells.toList.modify (hit.2 * r.width + hit.1) not =
      r.cells.toList.set (hit.2 * r.width + hit.1) !r.cells.toList[hit.2 * r.width + hit.1] := by
    rw [List.modify_eq_set_getElem?, List.getElem?_eq_getElem low]
    rfl
  rw [here, litCount, litCount, ← Array.count_toList, ← Array.count_toList, flip,
    Array.toList_modify, turned, count_set_not _ low]

/-- **Each strike adds a lit pixel or darkens one.** -/
theorem litCount_strikes (inside : ∀ hit ∈ hits, r.Contains hit) (flag : Bool) :
    (hits.foldl strike (r, flag)).1.litCount + 2 * r.darkenings hits =
      r.litCount + hits.length := by
  induction hits generalizing r flag with
  | nil => rfl
  | cons hit rest ih =>
    have here := litCount_flip (inside hit List.mem_cons_self)
    have later := ih (r := r.flip hit.1 hit.2)
      (fun other among => inside other (List.mem_cons_of_mem _ among))
      (flag || r.lit hit.1 hit.2)
    rw [strike_cons, darkenings, List.length_cons]
    omega

/-- The flag of a draw tells whether a strike darkened. -/
theorem flag_strikes (r : Raster) (flag : Bool) (hits : List (Nat × Nat)) :
    (hits.foldl strike (r, flag)).2 = true ↔ flag = true ∨ 0 < r.darkenings hits := by
  induction hits generalizing r flag with
  | nil => simp [darkenings]
  | cons hit rest ih =>
    rw [strike_cons, ih, darkenings]
    cases r.lit hit.1 hit.2 with
    | false => simp
    | true => simp [Nat.one_add]

/-- **A strike darkens** if and only if a pixel that was lit is struck, or a pixel is struck
twice. -/
theorem darkenings_pos_iff (inside : ∀ hit ∈ hits, r.Contains hit) :
    0 < r.darkenings hits ↔
      ∃ pixel, pixel ∈ hits ∧ r.lit pixel.1 pixel.2 = true ∨ 2 ≤ hits.count pixel := by
  induction hits generalizing r with
  | nil => simp [darkenings]
  | cons hit rest ih =>
    have here := inside hit List.mem_cons_self
    have inside' : ∀ other ∈ rest, r.Contains other := fun other among =>
      inside other (List.mem_cons_of_mem _ among)
    cases was : r.lit hit.1 hit.2 with
    | true =>
      refine iff_of_true ?_ ⟨hit, .inl ⟨List.mem_cons_self, was⟩⟩
      rw [darkenings, was]
      exact Nat.lt_add_right _ Nat.one_pos
    | false =>
      rw [darkenings, was, Bool.toNat_false, Nat.zero_add,
        ih (r := r.flip hit.1 hit.2) inside']
      refine exists_congr fun pixel => ?_
      by_cases same : hit = pixel
      · -- The first strike lights the pixel, so that a second one darkens it.
        subst same
        have again : 2 ≤ (hit :: rest).count hit ↔ hit ∈ rest := by
          rw [List.count_cons_self, Nat.succ_le_succ_iff, List.one_le_count_iff]
        have often (twice : 2 ≤ rest.count hit) : hit ∈ rest :=
          List.count_pos_iff.mp (Nat.lt_of_lt_of_le Nat.two_pos twice)
        rw [lit_flip here here, was, again, beq_self_eq_true]
        simpa using often
      · have among : pixel ∈ hit :: rest ↔ pixel ∈ rest := by
          rw [List.mem_cons, or_iff_right (Ne.symm same)]
        by_cases struck : pixel ∈ rest
        · rw [among, lit_flip here (inside' pixel struck), beq_false_of_ne same, Bool.xor_false,
            List.count_cons_of_ne same]
        · simp [struck, among, List.count_cons_of_ne same]

/-- **On a raster that is no smaller than the sprite no pixel is struck twice.** -/
theorem nodup_hits {width height : Nat} (s : Sprite) (wide : spriteWidth ≤ width)
    (high : s.rows.length ≤ height) :
    (Raster.hits width height s.x s.y s.bytes).Nodup := by
  -- Different offsets below the size of an axis lead to different places on it.
  have apart (start : Int) {size a b : Nat} (low : a < size) (low' : b < size)
      (same : wrap (start + a) size = wrap (start + b) size) : a = b := by
    have positive : 1 ≤ size := Nat.one_le_of_lt low
    have congruent : (start + a) % size = (start + b) % size :=
      ((wrap_eq_iff positive).mp same).trans ((wrap_eq_iff positive).mp rfl).symm
    have offsets : (a : Int) % size = b % size := Int.emod_add_cancel_left.mp congruent
    rw [Int.emod_eq_of_lt (by omega) (by omega), Int.emod_eq_of_lt (by omega) (by omega)] at offsets
    exact Int.ofNat_inj.mp offsets
  rw [Sprite.bytes, hits_eq_map_dots]
  refine List.Nodup.map_on ?_ ((List.nodup_range.product List.nodup_range).filter _)
  intro dot among dot' among' same
  obtain ⟨row, column⟩ := List.mem_product.mp (List.mem_filter.mp among).1
  obtain ⟨row', column'⟩ := List.mem_product.mp (List.mem_filter.mp among').1
  rw [List.mem_range] at row column row' column'
  obtain ⟨columns, rows⟩ := Prod.ext_iff.mp same
  exact Prod.ext (apart s.y (row.trans_le high) (row'.trans_le high) rows)
    (apart s.x (column.trans_le wide) (column'.trans_le wide) columns)

theorem dotsOn_le_one {width height : Nat} (s : Sprite) (wide : spriteWidth ≤ width)
    (high : 1 ≤ height) (high' : s.rows.length ≤ height) (pixel : Nat × Nat) :
    s.dotsOn width height pixel ≤ 1 := by
  have positive : 1 ≤ width := Nat.le_trans (by decide) wide
  rw [← count_hits positive high]
  exact List.nodup_iff_count_le_one.mp (nodup_hits s wide high') pixel

/-- A pixel is struck by the dots that fall on it. -/
theorem mem_hits_iff (wide : 1 ≤ r.width) (high : 1 ≤ r.height) (s : Sprite) :
    pixel ∈ Raster.hits r.width r.height s.x s.y s.bytes ↔ 1 ≤ s.dotsOn r.width r.height pixel := by
  rw [← count_hits wide high, List.one_le_count_iff]

theorem draw_flag (r : Raster) (x y : Int) (rows : List UInt8) :
    (r.draw x y rows).2 = true ↔
      0 < r.darkenings (Raster.hits r.width r.height x y rows) := by
  rw [draw, flag_strikes, or_iff_right Bool.false_ne_true]

/-- **A draw collides** if and only if a dot of the sprite meets a lit pixel, or several dots fall
on one pixel. -/
theorem draw_collides_iff (wide : 1 ≤ r.width) (high : 1 ≤ r.height) (s : Sprite) :
    (r.draw s.x s.y s.bytes).2 = true ↔ s.Meets r true ∨ s.Overlaps r.width r.height := by
  have inside := contains_of_mem_hits wide high s
  rw [draw_flag, darkenings_pos_iff inside]
  constructor
  · rintro ⟨pixel, ⟨struck, lit⟩ | twice⟩
    · obtain ⟨within, early⟩ := inside pixel struck
      exact .inl ⟨pixel.1, within, pixel.2, early, (mem_hits_iff wide high s).mp struck, lit⟩
    · have struck : pixel ∈ Raster.hits r.width r.height s.x s.y s.bytes :=
        List.count_pos_iff.mp (Nat.lt_of_lt_of_le Nat.two_pos twice)
      obtain ⟨within, early⟩ := inside pixel struck
      exact .inr ⟨pixel.1, within, pixel.2, early, count_hits wide high s pixel ▸ twice⟩
  · rintro (⟨column, -, row, -, struck, lit⟩ | ⟨column, -, row, -, twice⟩)
    · exact ⟨(column, row), .inl ⟨(mem_hits_iff wide high s).mpr struck, lit⟩⟩
    · exact ⟨(column, row), .inr (twice.trans_eq (count_hits wide high s _).symm)⟩

/-- What is left of the lit pixels: each dot adds one, but for those that darken one. -/
theorem litCount_draw (wide : 1 ≤ r.width) (high : 1 ≤ r.height) (s : Sprite) :
    (r.draw s.x s.y s.bytes).1.litCount +
        2 * r.darkenings (Raster.hits r.width r.height s.x s.y s.bytes) =
      r.litCount + s.dots.length := by
  rw [draw, litCount_strikes (contains_of_mem_hits wide high s), Sprite.bytes, hits_eq_map_dots,
    List.length_map]

/-- Where no pixel is struck twice, a draw turns over just the pixels that the sprite meets. -/
theorem meets_draw_iff (wide : spriteWidth ≤ r.width) (high : 1 ≤ r.height) (s : Sprite)
    (high' : s.rows.length ≤ r.height) :
    s.Meets (r.draw s.x s.y s.bytes).1 true ↔ s.Meets r false := by
  obtain ⟨width, height⟩ := r.sides_draw s.x s.y s.bytes
  rw [Sprite.Meets, width, height]
  refine exists_congr fun column => and_congr_right fun within =>
    exists_congr fun row => and_congr_right fun early => and_congr_right fun struck => ?_
  have once : s.dotsOn r.width r.height (column, row) = 1 :=
    Nat.le_antisymm (dotsOn_le_one s wide high high' _) struck
  have inside : r.Contains (column, row) := ⟨within, early⟩
  have turned := lit_draw (Nat.le_trans (by decide) wide) high s inside
  rw [turned, once]
  cases r.lit column row <;> decide

end Raster

/-- **The collision of a draw.** On a raster with pixels a draw succeeds. It collides if and only if
a dot of the sprite meets a lit pixel or several dots fall on one pixel, that is, if and only if
there are fewer lit pixels than those before and the dots together: two fewer for each dot that
turns a lit pixel off. On a raster that is no smaller than the sprite, no two dots fall on one
pixel, and a second draw collides if and only if the first one met a dark pixel. -/
theorem collision_of_draw (screen : Screen) (wide : 1 ≤ screen.raster.width)
    (high : 1 ≤ screen.raster.height) (s : Sprite) :
    ∃ after collision, screen.draw s.x s.y s.bytes = .ok (after, collision) ∧
      (collision = true ↔
        s.Meets screen.raster true ∨ s.Overlaps screen.raster.width screen.raster.height) ∧
      after.raster.litCount + 2 * screen.raster.darkenings
          (Raster.hits screen.raster.width screen.raster.height s.x s.y s.bytes) =
        screen.raster.litCount + s.dots.length ∧
      (collision = true ↔ after.raster.litCount ≠ screen.raster.litCount + s.dots.length) ∧
      (8 ≤ screen.raster.width → s.rows.length ≤ screen.raster.height →
        (∀ pixel, s.dotsOn screen.raster.width screen.raster.height pixel ≤ 1) ∧
        (collision = true ↔ s.Meets screen.raster true) ∧
        ∃ after' again, after.draw s.x s.y s.bytes = .ok (after', again) ∧
          (again = true ↔ s.Meets screen.raster false)) := by
  obtain ⟨width, height⟩ := screen.raster.sides_draw s.x s.y s.bytes
  have counted := screen.raster.litCount_draw wide high s
  have collides := Raster.draw_collides_iff wide high s
  have apart (wide' : 8 ≤ screen.raster.width) (high' : s.rows.length ≤ screen.raster.height) :
      ¬s.Overlaps screen.raster.width screen.raster.height := by
    rintro ⟨column, -, row, -, twice⟩
    exact absurd (Raster.dotsOn_le_one s wide' high high' (column, row)) (Nat.not_le.mpr twice)
  refine ⟨_, _, Screen.draw_eq_ok wide high s, collides, counted, ?_, fun wide' high' =>
    ⟨Raster.dotsOn_le_one s wide' high high', ?_, ?_⟩⟩
  · rw [Raster.draw_flag]
    dsimp only [Screen.drawn]
    omega
  · rw [collides, or_iff_left (apart wide' high')]
  · have wideAfter : 1 ≤ (screen.drawn s.x s.y s.bytes).raster.width := wide.trans_eq width.symm
    have highAfter : 1 ≤ (screen.drawn s.x s.y s.bytes).raster.height := high.trans_eq height.symm
    refine ⟨_, _, Screen.draw_eq_ok wideAfter highAfter s, ?_⟩
    rw [Raster.draw_collides_iff wideAfter highAfter]
    dsimp only [Screen.drawn]
    rw [width, height, or_iff_left (apart wide' high'), Raster.meets_draw_iff wide' high s high']

/-- A row of eight dots collides with itself on a blank raster of three columns; on one of eight
columns it collides when it is drawn once more. -/
theorem collision_of_draw_twice :
    let narrow := Screen.blank 3 1
    let fitting := Screen.blank 8 1
    let s : Sprite := ⟨-1, 4, [511]⟩
    (1 ≤ narrow.raster.width ∧ 1 ≤ narrow.raster.height ∧
      ∃ after, narrow.draw s.x s.y s.bytes = .ok (after, true)) ∧
    (1 ≤ fitting.raster.width ∧ 1 ≤ fitting.raster.height ∧
      ∃ after, fitting.draw s.x s.y s.bytes = .ok (after, false) ∧
        ∃ after', after.draw s.x s.y s.bytes = .ok (after', true)) := by
  intro narrow fitting s
  obtain ⟨after, collision, drawn, collides, -⟩ :=
    collision_of_draw narrow (by decide) (by decide) s
  have overlaps : s.Overlaps narrow.raster.width narrow.raster.height :=
    ⟨0, by decide, 0, by decide, by decide +kernel⟩
  obtain rfl : collision = true := collides.mpr (.inr overlaps)
  obtain ⟨after₁, collision, drawn₁, -, -, -, regular⟩ :=
    collision_of_draw fitting (by decide) (by decide) s
  obtain ⟨-, collides, after₂, again, drawn₂, collides'⟩ := regular (by decide) (by decide)
  have dark : ¬s.Meets fitting.raster true := by
    rintro ⟨column, within, row, early, -, lit⟩
    revert column row
    decide +kernel
  obtain rfl : collision = false := Bool.eq_false_iff.mpr (mt collides.mp dark)
  obtain rfl : again = true := collides'.mpr ⟨0, by decide, 0, by decide, by decide +kernel⟩
  exact ⟨⟨by decide, by decide, after, drawn⟩, by decide, by decide, after₁, drawn₁, after₂, drawn₂⟩

end ChipEight
