import ChipEight.Proofs.Machine.Cells
import ChipEight.Proofs.Machine.Collision
import ChipEight.Proofs.Machine.Control
import ChipEight.Proofs.Machine.Faults
import ChipEight.Proofs.Machine.GeneralRegisters
import ChipEight.Proofs.Machine.History

/-!
# The imprint of a sprite

A draw instruction reads a block of cells at the index register and flips a pixel for every set bit,
from the place that two registers name, around the edges of the screen. `Strikes` says in plain
numbers on which pixels the bits fall. No two bits fall on one pixel, since the sprite is smaller
than the screen, so `Imprint` can list the pixels, each once, and says what the draw makes of the
raster and the registers.

The pixels are determined by the machine before the draw, also where a coordinate is in VF.
`imprint_of_step` says that a draw leaves its imprint, and that the same draw, carried out again
with the same coordinates and the same cells, takes it back.
-/

namespace ChipEight

namespace Sprite

/-- The sprite with some bytes for its rows. -/
def ofBytes (x y : Int) (bytes : List UInt8) : Sprite := ⟨x, y, bytes.map fun b => (b.toNat : Int)⟩

theorem bytes_ofBytes (x y : Int) (rows : List UInt8) : (ofBytes x y rows).bytes = rows := by
  simp only [bytes, ofBytes, List.map_map, Function.comp_def, lowByte_toNat, List.map_id']

end Sprite

namespace Raster

theorem lit_blank (width height column row : Nat) :
    (blank width height).lit column row = false := by
  simp only [lit, blank, Array.getD_eq_getD_getElem?, Array.getElem?_replicate]
  split <;> rfl

/-- The raster with pixels turned over, one after the other. -/
def flips (r : Raster) (pixels : List (Nat × Nat)) : Raster :=
  pixels.foldl (fun r pixel => r.flip pixel.1 pixel.2) r

theorem sides_flips (r : Raster) (pixels : List (Nat × Nat)) :
    (r.flips pixels).width = r.width ∧ (r.flips pixels).height = r.height := by
  induction pixels generalizing r with
  | nil => exact ⟨rfl, rfl⟩
  | cons pixel rest ih => exact ih (r.flip pixel.1 pixel.2)

theorem raster_strikes (hits : List (Nat × Nat)) (state : Raster × Bool) :
    (hits.foldl strike state).1 = state.1.flips hits := by
  induction hits generalizing state with
  | nil => rfl
  | cons hit rest ih => exact ih (strike state hit)

theorem draw_eq_flips (r : Raster) (x y : Int) (rows : List UInt8) :
    (r.draw x y rows).1 = r.flips (Raster.hits r.width r.height x y rows) :=
  raster_strikes _ (r, false)

/-- A draw that hits no pixel twice flips those that it hits, and collides if one of them is lit. -/
theorem draw_of_nodup (r : Raster) (x y : Int) (rows : List UInt8) (wide : 1 ≤ r.width)
    (high : 1 ≤ r.height) (nodup : (Raster.hits r.width r.height x y rows).Nodup) :
    (∀ pixel, r.Contains pixel → (r.draw x y rows).1.lit pixel.1 pixel.2 =
        (r.lit pixel.1 pixel.2 ^^ decide (pixel ∈ Raster.hits r.width r.height x y rows))) ∧
      ((r.draw x y rows).2 = true ↔
        ∃ pixel ∈ Raster.hits r.width r.height x y rows, r.lit pixel.1 pixel.2 = true) := by
  have inside : ∀ hit ∈ Raster.hits r.width r.height x y rows, r.Contains hit := by
    have contained := contains_of_mem_hits wide high (Sprite.ofBytes x y rows)
    rwa [Sprite.bytes_ofBytes] at contained
  constructor
  · intro pixel contained
    rw [draw, lit_strikes inside contained, nodup.count]
    by_cases struck : pixel ∈ Raster.hits r.width r.height x y rows
    · rw [if_pos struck, decide_eq_true struck]
      rfl
    · rw [if_neg struck, decide_eq_false struck]
      rfl
  · rw [draw_flag, darkenings_pos_iff inside]
    refine exists_congr fun pixel => or_iff_left ?_
    have once := List.nodup_iff_count_le_one.mp nodup pixel
    omega

end Raster

namespace Machine

variable {m m' m₂ m₃ : Machine} {x y rows : Fin 16} {struck struck₂ : List (Nat × Nat)}
  {pixel : Nat × Nat}

/-- A bit of the sprite at the index register falls on a pixel: bit `b` from the left in row `r`,
drawn from the place that Vx and Vy name. -/
def Strikes (m : Machine) (x y rows : Fin 16) (pixel : Nat × Nat) : Prop :=
  ∃ r < rows.val, ∃ b < 8,
    (m.memory.cell (m.registers.i.toNat + r)).toNat.testBit (7 - b) = true ∧
      pixel = (((m.v x).toNat + b) % 64, ((m.v y).toNat + r) % 32)

/-- What a draw makes of a machine if the bits of its sprite fall on some pixels. -/
structure Imprint (struck : List (Nat × Nat)) (m m' : Machine) : Prop where
  raster : m'.screen.raster = m.screen.raster.flips struck
  lit : ∀ pixel, m.screen.raster.Contains pixel →
    m'.screen.raster.lit pixel.1 pixel.2 =
      (m.screen.raster.lit pixel.1 pixel.2 ^^ decide (pixel ∈ struck))
  flag : m'.v flagRegister =
    if ∃ pixel ∈ struck, m.screen.raster.lit pixel.1 pixel.2 = true then 1 else 0
  registers : ∀ r, r ≠ flagRegister → m'.v r = m.v r
  index : m'.registers.i = m.registers.i
  memory : m'.memory = m.memory

/-! ## The pixels of a draw -/

theorem Strikes.contains (wf : m.WellFormed) (strikes : m.Strikes x y rows pixel) :
    m.screen.raster.Contains pixel := by
  obtain ⟨r, -, b, -, -, rfl⟩ := strikes
  rw [Raster.Contains, wf.width, wf.height]
  exact ⟨Nat.mod_lt _ (by decide), Nat.mod_lt _ (by decide)⟩

/-- **The hits of a draw** are the pixels on which the bits of the sprite fall. -/
theorem mem_hits_sprite (covers : m.memory.Covers m.registers.i rows.val) :
    pixel ∈ Raster.hits 64 32 (m.v x).toNat (m.v y).toNat (m.sprite rows) ↔
      m.Strikes x y rows pixel := by
  have place (start offset size : Nat) :
      Raster.wrap ((start : Int) + offset) size = (start + offset) % size :=
    Int.toNat_emod (Int.natCast_nonneg (start + offset)) (Int.natCast_nonneg size)
  have row {r : Nat} (low : r < rows.val) (k : Nat) :
      (((m.sprite rows).map fun b => (b.toNat : Int)).getD r 0).testBit k =
        (m.memory.cell (m.registers.i.toNat + r)).toNat.testBit k := by
    rw [sprite, List.getD_eq_getElem?_getD, List.getElem?_map, Memory.getElem?_block covers,
      if_pos low]
    rfl
  have length : (m.sprite rows).length = rows.val := Memory.length_block covers
  have hits := Raster.hits_eq_map_dots 64 32 (m.v x).toNat (m.v y).toNat
    ((m.sprite rows).map fun b => (b.toNat : Int))
  rw [← Sprite.bytes_ofBytes (m.v x).toNat (m.v y).toNat (m.sprite rows), Sprite.bytes,
    Sprite.ofBytes, hits]
  simp only [Sprite.dots, List.mem_map, List.mem_filter, List.mem_product, List.mem_range,
    List.length_map, length, Prod.exists, place, spriteWidth]
  constructor
  · rintro ⟨r, b, ⟨⟨low, early⟩, set⟩, rfl⟩
    exact ⟨r, low, b, early, (row low _).symm.trans set, rfl⟩
  · rintro ⟨r, low, b, early, set, rfl⟩
    exact ⟨r, b, ⟨⟨low, early⟩, (row low _).trans set⟩, rfl⟩

/-- **No pixel is hit twice**: sixteen rows of eight bits fit the screen. -/
theorem nodup_hits_sprite (covers : m.memory.Covers m.registers.i rows.val) (x y : Int) :
    (Raster.hits 64 32 x y (m.sprite rows)).Nodup := by
  have length : (m.sprite rows).length = rows.val := Memory.length_block covers
  have fits : (Sprite.ofBytes x y (m.sprite rows)).rows.length ≤ 32 := by
    rw [Sprite.ofBytes, List.length_map, length]
    omega
  rw [← Sprite.bytes_ofBytes x y (m.sprite rows)]
  exact Raster.nodup_hits (.ofBytes x y (m.sprite rows)) (by decide) fits

/-! ## A draw and the same draw again -/

/-- A draw of a block that lies in the memory leaves the imprint of its sprite. -/
theorem exists_imprint (wf : m.WellFormed) (about : m.AboutTo (.draw x y rows))
    (stop : m.registers.i + rows.val ≤ memorySize) :
    ∃ struck : List (Nat × Nat), struck.Nodup ∧
      (∀ pixel, pixel ∈ struck ↔ m.Strikes x y rows pixel) ∧
      ∃ m', step.run m = .ok () m' ∧ Imprint struck m m' := by
  have covers : m.memory.Covers m.registers.i rows.val :=
    ⟨wf.index, Int.natCast_nonneg _, wf.size ▸ stop⟩
  have met : m.objection (.draw x y rows) = none :=
    Option.or_eq_none_iff.mpr ⟨Memory.outside?_eq_none_iff.mpr covers, wf.drawFault? _⟩
  have width : m.screen.raster.width = 64 := wf.width
  have height : m.screen.raster.height = 32 := wf.height
  have nodup := nodup_hits_sprite covers (m.v x).toNat (m.v y).toNat
  have drawn := m.screen.raster.draw_eq_flips (m.v x).toNat (m.v y).toNat (m.sprite rows)
  have pixels := m.screen.raster.draw_of_nodup (m.v x).toNat (m.v y).toNat (m.sprite rows)
  rw [width, height] at drawn pixels
  obtain ⟨lit, collides⟩ := pixels (by decide) (by decide) nodup
  have registers (r : Fin 16) : (m.change (.draw x y rows)).v r =
      if flagRegister = r then
        flagValue (m.screen.raster.draw (m.v x).toNat (m.v y).toNat (m.sprite rows)).2
      else m.v r :=
    v_withFlag _ r _
  refine ⟨_, nodup, fun pixel => mem_hits_sprite covers, _, about.step met, ?_⟩
  exact {
    raster := drawn
    lit := lit
    flag := (registers flagRegister).trans ((if_pos rfl).trans (if_congr collides rfl rfl))
    registers := fun r other => (registers r).trans (if_neg (Ne.symm other))
    index := rfl
    memory := rfl }

/-- A machine is about to carry out the draw of another one again: with the same raster, the same
coordinates and the same cells. -/
structure Redraws (x y rows : Fin 16) (m m' : Machine) : Prop where
  wellFormed : m'.WellFormed
  about : m'.AboutTo (.draw x y rows)
  raster : m'.screen.raster = m.screen.raster
  column : m'.v x = m.v x
  row : m'.v y = m.v y
  index : m'.registers.i = m.registers.i
  cells : ∀ r < rows.val, m'.memory.cell (m.registers.i.toNat + r) =
    m.memory.cell (m.registers.i.toNat + r)

/-- A machine that has drawn draws again if its program counter is moved back to the draw. -/
theorem Imprint.redraws (imprint : Imprint struck m m') (wf : m.WellFormed)
    (about : m.AboutTo (.draw x y rows)) :
    m'.Redraws x y rows (m'.withPc m.registers.pc) := by
  obtain ⟨width, height⟩ := m.screen.raster.sides_flips struck
  rw [← imprint.raster] at width height
  obtain ⟨w, fetched, spells⟩ := about
  have fetched' : fetch.run (m'.withPc m.registers.pc) = .ok w (m'.withPc m.registers.pc) := by
    rw [fetch_eq_ok_iff] at fetched ⊢
    simpa only [fetchFault?, word, withPc, imprint.memory] using fetched
  exact {
    wellFormed :=
      { size := imprint.memory ▸ wf.size
        width := width.trans wf.width
        height := height.trans wf.height
        index := imprint.index ▸ wf.index
        pc := wf.pc }
    about := ⟨w, fetched', spells⟩
    raster := rfl
    column := rfl
    row := rfl
    index := rfl
    cells := fun _ _ => rfl }

/-- The bits of the sprite fall on the same pixels again. -/
theorem Redraws.strikes_iff (redraws : m'.Redraws x y rows m₂)
    (imprint : Imprint struck m m') (column : x ≠ flagRegister) (row : y ≠ flagRegister) :
    m₂.Strikes x y rows pixel ↔ m.Strikes x y rows pixel := by
  have cells {r : Nat} (low : r < rows.val) :
      m₂.memory.cell (m.registers.i.toNat + r) = m.memory.cell (m.registers.i.toNat + r) := by
    have kept := redraws.cells r low
    rwa [imprint.index, imprint.memory] at kept
  unfold Strikes
  rw [redraws.index, redraws.column, redraws.row, imprint.index, imprint.registers x column,
    imprint.registers y row]
  refine exists_congr fun r => and_congr_right fun low => ?_
  rw [cells low]

/-- The same imprint on the raster that it left restores the raster. -/
theorem Imprint.restores (imprint : Imprint struck m m')
    (raster : m₂.screen.raster = m'.screen.raster) (imprint₂ : Imprint struck₂ m₂ m₃)
    (again : ∀ pixel, pixel ∈ struck₂ ↔ pixel ∈ struck) :
    m₃.screen.raster = m.screen.raster := by
  obtain ⟨width, height⟩ := m.screen.raster.sides_flips struck
  obtain ⟨width₂, height₂⟩ := m'.screen.raster.sides_flips struck₂
  have drawn := imprint.raster
  have drawn₂ := imprint₂.raster
  have lit₂ := imprint₂.lit
  rw [raster] at drawn₂ lit₂
  rw [← drawn] at width height
  rw [← drawn₂] at width₂ height₂
  refine Raster.ext_lit (width₂.trans width) (height₂.trans height) fun pixel inside₃ => ?_
  have inside₂ : m'.screen.raster.Contains pixel :=
    ⟨inside₃.1.trans_eq width₂, inside₃.2.trans_eq height₂⟩
  have inside : m.screen.raster.Contains pixel :=
    ⟨inside₂.1.trans_eq width, inside₂.2.trans_eq height⟩
  rw [lit₂ pixel inside₂, imprint.lit pixel inside, Bool.xor_assoc,
    decide_eq_decide.mpr (again pixel), Bool.xor_self, Bool.xor_false]

/-- The same imprint on the raster that it left collides where a pixel was dark before. -/
theorem Imprint.collides_again (imprint : Imprint struck m m')
    (raster : m₂.screen.raster = m'.screen.raster) (imprint₂ : Imprint struck₂ m₂ m₃)
    (again : ∀ pixel, pixel ∈ struck₂ ↔ pixel ∈ struck)
    (inside : ∀ pixel ∈ struck, m.screen.raster.Contains pixel) :
    m₃.v flagRegister =
      if ∃ pixel ∈ struck, m.screen.raster.lit pixel.1 pixel.2 = false then 1 else 0 := by
  rw [imprint₂.flag, raster]
  refine if_congr (exists_congr fun pixel => ?_) rfl rfl
  rw [again pixel]
  refine and_congr_right fun among => ?_
  rw [imprint.lit pixel (inside pixel among), decide_eq_true among, Bool.xor_true,
    Bool.not_eq_true']

/-- **A draw leaves its imprint.** A well-formed machine is about to draw a sprite that lies in the
memory. It does so, and flips exactly the pixels on which the bits of the sprite fall, each of them
once. VF is 1 if one of these pixels was lit, and 0 otherwise. Where neither coordinate is in VF,
the same draw again restores the raster, and VF is 1 if one of the pixels was dark before the first
draw, and 0 otherwise. -/
theorem imprint_of_step (wf : m.WellFormed) (about : m.AboutTo (.draw x y rows))
    (stop : m.registers.i + rows.val ≤ memorySize) :
    ∃ struck : List (Nat × Nat), struck.Nodup ∧
      (∀ pixel, pixel ∈ struck ↔ m.Strikes x y rows pixel) ∧
      ∃ m', step.run m = .ok () m' ∧ Imprint struck m m' ∧
        m'.Redraws x y rows (m'.withPc m.registers.pc) ∧
        (x ≠ flagRegister → y ≠ flagRegister → ∀ m₂, m'.Redraws x y rows m₂ →
          ∃ m₃, step.run m₂ = .ok () m₃ ∧ m₃.screen.raster = m.screen.raster ∧
            m₃.v flagRegister =
              if ∃ pixel ∈ struck, m.screen.raster.lit pixel.1 pixel.2 = false then 1 else 0) := by
  obtain ⟨struck, nodup, hits, m', stepped, imprint⟩ := exists_imprint wf about stop
  refine ⟨struck, nodup, hits, m', stepped, imprint, imprint.redraws wf about,
    fun column row m₂ redraws => ?_⟩
  have stop₂ : m₂.registers.i + rows.val ≤ memorySize := by
    rw [redraws.index, imprint.index]
    exact stop
  obtain ⟨struck₂, -, hits₂, m₃, stepped₂, imprint₂⟩ :=
    exists_imprint redraws.wellFormed redraws.about stop₂
  have again (pixel : Nat × Nat) : pixel ∈ struck₂ ↔ pixel ∈ struck := by
    rw [hits₂, hits, redraws.strikes_iff imprint column row]
  exact ⟨m₃, stepped₂, imprint.restores redraws.raster imprint₂ again,
    imprint.collides_again redraws.raster imprint₂ again fun pixel among =>
      ((hits pixel).mp among).contains wf⟩

/-- The first two rows of the glyph for zero, drawn around the last corner of a blank screen. -/
theorem imprint_of_step_corner :
    let m := ((loaded [0xD0, 0x12]).withV 0 62).withV 1 31
    m.WellFormed ∧ m.AboutTo (.draw 0 1 2) ∧ m.registers.i + 2 ≤ memorySize ∧
      ∃ m', step.run m = .ok () m' ∧ m'.screen.raster.lit 1 31 = true ∧
        m'.screen.raster.lit 1 0 = true ∧ m'.v flagRegister = 0 ∧
        ∃ m₂, step.run (m'.withPc 0x200) = .ok () m₂ ∧ m₂.screen.raster = .blank 64 32 ∧
          m₂.v flagRegister = 1 := by
  intro m
  have wf : m.WellFormed := { loaded_wellFormed [0xD0, 0x12] with }
  have about : m.AboutTo (.draw 0 1 2) :=
    ⟨0xD012, fetch_eq_ok_iff.mpr (by decide +kernel), rfl, rfl, rfl, rfl⟩
  have stop : m.registers.i + (2 : Fin 16).val ≤ memorySize := by decide
  have dark (column row : Nat) : m.screen.raster.lit column row = false :=
    Raster.lit_blank 64 32 column row
  obtain ⟨struck, -, hits, m', stepped, imprint, redraws, again⟩ := imprint_of_step wf about stop
  obtain ⟨m₂, stepped₂, raster₂, flag₂⟩ := again (by decide) (by decide) _ redraws
  have first : (1, 31) ∈ struck :=
    (hits _).mpr ⟨0, by decide, 3, by decide, by decide +kernel, by decide +kernel⟩
  have second : (1, 0) ∈ struck :=
    (hits _).mpr ⟨1, by decide, 3, by decide, by decide +kernel, by decide +kernel⟩
  refine ⟨wf, about, stop, m', stepped, ?_, ?_, ?_, m₂, stepped₂, raster₂, ?_⟩
  · rw [imprint.lit (1, 31) ⟨by decide, by decide⟩, dark, decide_eq_true first, Bool.false_xor]
  · rw [imprint.lit (1, 0) ⟨by decide, by decide⟩, dark, decide_eq_true second, Bool.false_xor]
  · rw [imprint.flag, if_neg]
    rintro ⟨pixel, -, lit⟩
    exact absurd lit (by rw [dark]; decide)
  · rw [flag₂, if_pos ⟨_, first, dark 1 31⟩]

end Machine

end ChipEight
