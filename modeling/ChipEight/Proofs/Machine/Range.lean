import ChipEight.Proofs.Machine.Control
import ChipEight.Proofs.Machine.Drawing
import ChipEight.Proofs.Machine.Operation
import ChipEight.Proofs.Machine.WellFormed

/-!
# The range of every part

What the parts of a machine hold stays within fixed bounds, whatever a host does with the machine:
`InRange` names the bounds, `InRange.apply` says that every operation keeps them, and
`runs_stay_in_range` that they hold after every list of operations on a machine at power-on.

The bounds of the program counter and of the return addresses depend on each other. A jump by the
offset in V0 takes no mask and may leave the address space of the instructions, but no instruction
is read there, so that a return address is never more than two past the last word of the memory.

Sixteen-bit masks are therefore idle. A successful step steers the machine in plain integers, where
only the addition of a register to the index register wraps; `climb` reaches a machine where it
does.
-/

namespace ChipEight

namespace Machine

/-! ## The bounds -/

/-- The bounds of the control. -/
structure Control.InRange (c : Control) : Prop where
  pc : 0 ≤ c.pc ∧ c.pc ≤ 0x10FE
  index : 0 ≤ c.index ∧ c.index ≤ 0xFFFF
  frames : ∀ address ∈ c.frames, 0 ≤ address ∧ address ≤ 0x1000

/-- The bounds that the parts of a machine carry themselves: general registers and cells hold bytes,
pixels hold bits, and there are sixteen registers and sixteen keys. -/
structure Represented (m : Machine) : Prop where
  registers : m.registers.v.toList.length = 16 ∧ ∀ value ∈ m.registers.v.toList, value.toNat ≤ 255
  cells : ∀ cell ∈ m.memory.cells.toList, cell.toNat ≤ 255
  pixels : ∀ pixel ∈ m.screen.raster.cells.toList, pixel.toNat ≤ 1
  keys : m.keypad.keys.toList.length = 16

/-- The bounds of a machine with a limit on its call stack. -/
structure InRange (limit : Option Nat) (m : Machine) : Prop extends Represented m where
  control : m.control.InRange
  limited : m.stack.limit = limit
  depth : ∀ l ∈ limit, m.stack.depth ≤ l
  delay : 0 ≤ m.timers.delay ∧ m.timers.delay ≤ 255
  sound : 0 ≤ m.timers.sound ∧ m.timers.sound ≤ 255
  size : m.memory.size = 4096
  width : m.screen.raster.width = 64
  height : m.screen.raster.height = 32

theorem byte_le (b : UInt8) : b.toNat ≤ 255 := Nat.le_of_lt_succ b.toNat_lt

/-- Every machine carries the bounds of its types. -/
theorem represented (m : Machine) : m.Represented where
  registers := ⟨Vector.length_toList, fun value _ => byte_le value⟩
  cells := fun cell _ => byte_le cell
  pixels := fun pixel _ => Bool.toNat_le pixel
  keys := Vector.length_toList

variable {m : Machine} {limit : Option Nat}

theorem powerOn_inRange (limit : Option Nat) (random : RandomSource) :
    (powerOn limit random).InRange limit where
  toRepresented := represented _
  control := ⟨(by decide : (0 : Int) ≤ 0x200 ∧ (0x200 : Int) ≤ 0x10FE),
    (by decide : (0 : Int) ≤ 0 ∧ (0 : Int) ≤ 0xFFFF), fun _ none => absurd none List.not_mem_nil⟩
  limited := rfl
  depth := fun l _ => Nat.zero_le l
  delay := (by decide : (0 : Int) ≤ 0 ∧ (0 : Int) ≤ 255)
  sound := (by decide : (0 : Int) ≤ 0 ∧ (0 : Int) ≤ 255)
  size := Memory.size_ofSize memorySize
  width := rfl
  height := rfl

/-! ## A step -/

theorem glyphAddress_bounds (digit : Int) : 0 ≤ glyphAddress digit ∧ glyphAddress digit ≤ 75 := by
  unfold glyphAddress glyphHeight
  omega

/-- The newest return address is in range, as all are. -/
theorem Control.InRange.top (h : m.control.InRange) : (m.stack.top.toNat : Int) ≤ 0x1000 := by
  unfold CallStack.top
  cases held : m.stack.frames with
  | nil => decide
  | cons address rest =>
    have newest : (address.toNat : Int) ∈ m.control.frames := by
      simp only [Machine.control, held, List.map_cons, List.mem_cons, true_or]
    exact (h.frames _ newest).2

/-- An instruction that was read in the memory and meets no fault steers within the bounds. -/
theorem Control.InRange.steer {i : Instruction} (h : m.control.InRange)
    (size : m.memory.size = memorySize) (inside : m.registers.pc ≤ 4094)
    (clear : m.objection i = none) : (m.steer i).InRange := by
  have pc : 0 ≤ m.registers.pc ∧ m.registers.pc ≤ 0x10FE := h.pc
  have onward : 0 ≤ m.registers.pc + 2 ∧ m.registers.pc + 2 ≤ 0x10FE := by omega
  have past (x : Fin 16) (covers : m.memory.Covers m.registers.i (x.val + 1 : Nat)) :
      0 ≤ m.registers.i + (x.val + 1) ∧ m.registers.i + (x.val + 1) ≤ 0xFFFF := by
    have stop := covers.2.2
    have start := covers.1
    rw [size, memorySize] at stop
    omega
  cases i with
  | returnFromCall =>
    have top := h.top
    exact ⟨⟨Int.natCast_nonneg _, by simp only [Machine.steer]; omega⟩, h.index,
      fun address kept => h.frames address (List.mem_of_mem_tail kept)⟩
  | jump target => exact ⟨by simp only [Machine.steer]; omega, h.index, h.frames⟩
  | call target =>
    -- The word lies in the memory, so the return address does or is the first one past it.
    refine ⟨by simp only [Machine.steer]; omega, h.index, fun address pushed => ?_⟩
    rcases List.mem_cons.mp pushed with rfl | older
    · omega
    · exact h.frames address older
  | jumpPlus base =>
    have offset := byte_le (m.v 0)
    exact ⟨by simp only [Machine.steer]; omega, h.index, h.frames⟩
  | setIndex address => exact ⟨onward, by simp only [Machine.steer]; omega, h.frames⟩
  | addToIndex x => exact ⟨onward, by simp only [Machine.steer]; omega, h.frames⟩
  | indexGlyph x =>
    have glyph := glyphAddress_bounds (m.v x).toNat
    exact ⟨onward, by simp only [Machine.steer]; omega, h.frames⟩
  | storeRegisters x => exact ⟨onward, past x (Memory.covers_of_writeFault? clear), h.frames⟩
  | loadRegisters x => exact ⟨onward, past x (Memory.outside?_eq_none_iff.mp clear), h.frames⟩
  | waitForKey x =>
    simp only [Machine.steer]
    cases m.keypad.firstPressed with
    | none => exact h
    | some key => exact ⟨onward, h.index, h.frames⟩
  | _ =>
    refine ⟨?_, h.index, h.frames⟩
    simp only [Machine.steer]
    split <;> omega

theorem size_memoryAfter (m : Machine) (i : Instruction) :
    (m.memoryAfter i).size = m.memory.size := by
  unfold memoryAfter
  split
  · exact Memory.size_withBlock _ _ _
  · exact Memory.size_withBlock _ _ _
  · rfl

theorem sides_screenAfter (m : Machine) (i : Instruction) :
    (m.screenAfter i).raster.width = m.screen.raster.width ∧
      (m.screenAfter i).raster.height = m.screen.raster.height := by
  unfold screenAfter
  split
  · exact ⟨rfl, rfl⟩
  · exact Raster.sides_draw _ _ _ _
  · exact ⟨rfl, rfl⟩

theorem limit_stackAfter (m : Machine) (i : Instruction) :
    (m.stackAfter i).limit = m.stack.limit := by
  unfold stackAfter
  split <;> rfl

/-- An instruction that meets no fault keeps the call stack within its limit. -/
theorem depth_stackAfter {i : Instruction} {l : Nat} (clear : m.objection i = none)
    (limited : m.stack.limit = some l) (depth : m.stack.depth ≤ l) :
    (m.stackAfter i).depth ≤ l := by
  cases i with
  | returnFromCall =>
    have fewer : m.stack.popped.depth ≤ m.stack.depth := by
      simp only [CallStack.depth, CallStack.popped, List.length_tail]
      omega
    exact Nat.le_trans fewer depth
  | call target =>
    simp only [objection, CallStack.pushFault?, limited, ite_eq_right_iff, reduceCtorEq] at clear
    exact Nat.lt_of_not_le clear
  | _ => exact depth

/-- An instruction sets a timer to a byte or leaves it as it was. -/
theorem timersAfter_bounds {i : Instruction}
    (delay : 0 ≤ m.timers.delay ∧ m.timers.delay ≤ 255)
    (sound : 0 ≤ m.timers.sound ∧ m.timers.sound ≤ 255) :
    (0 ≤ (m.timersAfter i).delay ∧ (m.timersAfter i).delay ≤ 255) ∧
      (0 ≤ (m.timersAfter i).sound ∧ (m.timersAfter i).sound ≤ 255) := by
  have byte (x : Fin 16) : (0 : Int) ≤ (m.v x).toNat ∧ ((m.v x).toNat : Int) ≤ 255 :=
    ⟨Int.natCast_nonneg _, Int.ofNat_le.mpr (byte_le (m.v x))⟩
  unfold timersAfter
  split
  · exact ⟨byte _, sound⟩
  · exact ⟨delay, byte _⟩
  · exact ⟨delay, sound⟩

/-- **A step that meets no fault keeps a machine in range.** -/
theorem InRange.next (h : m.InRange limit) (clear : m.fault? = none) : m.next.InRange limit := by
  obtain ⟨low, high⟩ := pc_of_fault? h.size clear
  obtain ⟨i, -, met, changed⟩ := instruction_of_fault? clear
  have control := control_change h.size low high met
  have steered := h.control.steer h.size high met
  have sides := m.sides_screenAfter i
  have timers := timersAfter_bounds (i := i) h.delay h.sound
  rw [← control] at steered
  rw [changed]
  -- Past the footprint, the parts of the next machine stand apart, each with its own bound.
  rw [change_eq] at steered ⊢
  exact {
    toRepresented := represented _
    control := steered
    limited := (m.limit_stackAfter i).trans h.limited
    depth := fun l bound => depth_stackAfter met (h.limited.trans bound) (h.depth l bound)
    delay := timers.1
    sound := timers.2
    size := (m.size_memoryAfter i).trans h.size
    width := sides.1.trans h.width
    height := sides.2.trans h.height }

/-! ## Every operation -/

theorem countDown_bounds {n : Int} (h : 0 ≤ n ∧ n ≤ 255) :
    0 ≤ Timers.countDown n ∧ Timers.countDown n ≤ 255 := by
  unfold Timers.countDown
  split <;> omega

theorem ticks_bounds {t : Timers} (delay : 0 ≤ t.delay ∧ t.delay ≤ 255)
    (sound : 0 ≤ t.sound ∧ t.sound ≤ 255) (count : Nat) :
    (0 ≤ (t.ticks count).delay ∧ (t.ticks count).delay ≤ 255) ∧
      0 ≤ (t.ticks count).sound ∧ (t.ticks count).sound ≤ 255 := by
  induction count generalizing t with
  | zero => exact ⟨delay, sound⟩
  | succ count ih => exact ih (countDown_bounds delay) (countDown_bounds sound)

/-- Any number of ticks keeps a machine in range. -/
theorem InRange.ticks (h : m.InRange limit) (count : Nat) : (m.tick count).InRange limit := by
  obtain ⟨delay, sound⟩ := ticks_bounds h.delay h.sound count
  exact { h with toRepresented := represented _, delay := delay, sound := sound }

/-- A machine in range is well-formed. -/
theorem InRange.wellFormed (h : m.InRange limit) : m.WellFormed where
  size := h.size
  width := h.width
  height := h.height
  index := h.control.index.1
  pc := h.control.pc.1

/-- Reset keeps a machine in range, whatever was on its stack and in its registers. -/
theorem InRange.reset (h : m.InRange limit) : m.reset.InRange limit :=
  let fresh := powerOn_inRange limit m.random
  { h with
    toRepresented := represented _
    control := fresh.control
    depth := fresh.depth
    delay := fresh.delay
    sound := fresh.sound }

/-- **Every operation keeps a machine in range**, whether it succeeds or fails. -/
theorem InRange.apply (h : m.InRange limit) (operation : Operation) :
    (operation.apply m).2.InRange limit := by
  -- The bounds do not speak of the keypad, so one machine serves for every operation on keys.
  have keyed (keypad : Keypad) : InRange limit { m with keypad := keypad } :=
    { h with toRepresented := represented _ }
  cases operation with
  | step =>
    rw [Operation.apply_step]
    cases met : m.fault? with
    | some e => exact h
    | none => exact h.next met
  | tick =>
    exact { h with
      toRepresented := represented _
      delay := countDown_bounds h.delay
      sound := countDown_bounds h.sound }
  | load image =>
    rw [Operation.apply_load]
    cases m.memory.writeFault? programStart image.length with
    | some e => exact h
    | none =>
      exact { h with
        toRepresented := represented _
        size := (Memory.size_withBlock _ _ _).trans h.size }
  | draw x y rows =>
    rw [Operation.apply_draw]
    cases m.screen.drawFault? rows with
    | some e => exact h
    | none =>
      have sides := m.screen.raster.sides_draw x y rows
      exact { h with
        toRepresented := represented _
        width := sides.1.trans h.width
        height := sides.2.trans h.height }
  | clear => exact { h with toRepresented := represented _ }
  | reset => exact h.reset
  | _ =>
    rw [Operation.apply_of_setsKeys m rfl]
    exact keyed _

theorem InRange.after (h : m.InRange limit) (operations : List Operation) :
    (m.after operations).InRange limit :=
  after_induction h (fun _ operation kept => kept.apply operation) operations

/-! ## A mask that is not idle -/

/-- Adds 255 to the index register for ever. -/
def climbing : List UInt8 := [0x60, 0xFF, 0xF0, 0x1E, 0x12, 0x02]

/-- A machine about to add 255 to an index register of `n`, for ever. -/
structure Climbing (n : Int) (m : Machine) : Prop where
  memory : m.memory = (Memory.ofSize memorySize).withBlock programStart climbing
  pc : m.registers.pc = 0x202
  step : m.v 0 = 255
  index : m.registers.i = n

/-- The operations that load the program and carry it out up to the addition after `rounds`. -/
def climb : Nat → List Operation
  | 0 => [.load climbing, .step]
  | rounds + 1 => climb rounds ++ [.step, .step]

/-- The next instruction of a machine with the program in its memory. -/
theorem step_of_memory {i : Instruction} (pc : Int)
    (memory : m.memory = (Memory.ofSize memorySize).withBlock programStart climbing)
    (place : m.registers.pc = pc) (low : 0 ≤ pc) (high : pc ≤ 4094)
    (read : Instruction.decode (.ofBytes
      (((Memory.ofSize memorySize).withBlock programStart climbing).cell pc.toNat)
      (((Memory.ofSize memorySize).withBlock programStart climbing).cell (pc + 1).toNat)) = some i)
    (met : m.objection i = none) :
    m.instruction? = some i ∧ m.fault? = none ∧
      (Operation.step.apply m).2 = { m.change i with executed := m.executed + 1 } := by
  have size : m.memory.size = memorySize := by
    rw [memory, Memory.size_withBlock]
    exact Memory.size_ofSize memorySize
  have reads : m.instruction? = some i := by
    unfold instruction? word
    rw [memory, place]
    exact read
  obtain ⟨clear, next⟩ := fault?_eq_none size (place ▸ low) (place ▸ high) reads met
  refine ⟨reads, clear, ?_⟩
  rw [Operation.apply_step, clear]
  exact next

/-- The next step of a climbing machine adds 255 to the index register, in sixteen bits. -/
theorem Climbing.adds {n : Int} (h : Climbing n m) :
    m.instruction? = some (.addToIndex 0) ∧ m.fault? = none ∧
      (Operation.step.apply m).2 =
        { m.change (.addToIndex 0) with executed := m.executed + 1 } :=
  step_of_memory 0x202 h.memory h.pc (by decide) (by decide) (by decide +kernel) rfl

/-- Two steps take a climbing machine up by 255. -/
theorem Climbing.round {n : Int} (h : Climbing n m) (low : 0 ≤ n) (high : n + 255 < 65536) :
    Climbing (n + 255) (m.after [.step, .step]) := by
  obtain ⟨-, -, added⟩ := h.adds
  simp only [after_cons, after_nil, added]
  have place : (m.change (.addToIndex 0)).registers.pc = 0x204 := by
    have advanced : wrap16 (m.registers.pc + 2) = 0x204 := by
      rw [h.pc]
      decide
    exact advanced
  obtain ⟨-, -, jumped⟩ := step_of_memory (i := .jump 0x202)
    (m := { m.change (.addToIndex 0) with executed := m.executed + 1 })
    0x204 h.memory place (by decide) (by decide) (by decide +kernel) rfl
  rw [jumped]
  refine ⟨h.memory, rfl, h.step, ?_⟩
  have sum : wrap16 (m.registers.i + (m.v 0).toNat) = n + 255 := by
    rw [h.index, h.step]
    exact wrap16_eq (by omega) high
  exact sum

/-- A machine at power-on climbs to any height below the end of the address space. -/
theorem climbing_climb (limit : Option Nat) (random : RandomSource) {rounds : Nat}
    (few : rounds ≤ 257) :
    Climbing (255 * rounds) ((powerOn limit random).after (climb rounds)) := by
  induction rounds with
  | zero =>
    have written : (Memory.ofSize memorySize).writeFault? programStart climbing.length = none := by
      decide +kernel
    have loads : (Operation.apply (powerOn limit random) (.load climbing)).2 =
        { powerOn limit random with
          memory := (Memory.ofSize memorySize).withBlock programStart climbing } := by
      rw [Operation.apply_load]
      simp only [powerOn, assemble, written]
    simp only [climb, after_cons, after_nil, loads]
    obtain ⟨-, -, set⟩ := step_of_memory (i := .setByte 0 0xFF)
      (m := { powerOn limit random with
        memory := (Memory.ofSize memorySize).withBlock programStart climbing })
      0x200 rfl rfl (by decide) (by decide) (by decide +kernel) rfl
    rw [set]
    exact ⟨rfl, rfl, rfl, rfl⟩
  | succ rounds ih =>
    have climbed := (ih (by omega)).round (by omega) (by omega)
    simp only [climb, after_append]
    have height : (255 * (rounds + 1 : Nat) : Int) = 255 * rounds + 255 := by omega
    rw [height]
    exact climbed

/-- Some operations on a machine at power-on lead to an addition that wraps. -/
theorem exists_addition_wraps (limit : Option Nat) (random : RandomSource) :
    ∃ operations x,
      ((powerOn limit random).after operations).instruction? = some (.addToIndex x) ∧
      ((powerOn limit random).after operations).fault? = none ∧
      ((powerOn limit random).after operations).next.registers.i <
        ((powerOn limit random).after operations).registers.i +
          (((powerOn limit random).after operations).v x).toNat := by
  -- 257 rounds of 255 end at the last address, so the next addition is the one that wraps.
  obtain ⟨operations, top⟩ :
      ∃ operations, Climbing 65535 ((powerOn limit random).after operations) :=
    ⟨climb 257, climbing_climb limit random (Nat.le_refl 257)⟩
  have inRange := (powerOn_inRange limit random).after operations
  obtain ⟨read, clear, -⟩ := top.adds
  obtain ⟨i, same, steered⟩ := control_next inRange.size clear
  rw [read] at same
  cases same
  refine ⟨operations, 0, read, clear, ?_⟩
  have wrapped := congrArg Control.index steered
  simp only [control, steer, top.index, top.step] at wrapped
  rw [wrapped, top.index, top.step]
  decide

/-! ## Every run -/

/-- **Every run stays in range.** A machine is built with any positive limit on its call stack, or
with none. After any operations on it, all its parts are in range, and a step that succeeds steers
it in plain integers: no mask but that of the addition to the index register changes a value. That
one does, in some run. -/
theorem runs_stay_in_range {limit : Option Int} (positive : ∀ l ∈ limit, 1 ≤ l)
    (random : RandomSource) :
    ∃ start, standard limit random = .ok start ∧
      (∀ operations,
        (start.after operations).InRange (limit.map Int.toNat) ∧
        ∀ m', step.run (start.after operations) = .ok () m' →
          ∃ i, (start.after operations).instruction? = some i ∧
            m'.control = (start.after operations).steer i) ∧
      ∃ operations x m',
        (start.after operations).instruction? = some (.addToIndex x) ∧
        step.run (start.after operations) = .ok () m' ∧
        m'.registers.i <
          (start.after operations).registers.i + ((start.after operations).v x).toNat := by
  refine ⟨_, standard_eq positive random, fun operations => ?_, ?_⟩
  · have inRange := (powerOn_inRange (limit.map Int.toNat) random).after operations
    refine ⟨inRange, fun m' succeeded => ?_⟩
    obtain ⟨clear, rfl⟩ := step_eq_ok_iff.mp succeeded
    exact control_next inRange.size clear
  · obtain ⟨operations, x, read, clear, wraps⟩ :=
      exists_addition_wraps (limit.map Int.toNat) random
    exact ⟨operations, x, _, read, step_eq_ok_iff.mpr ⟨clear, rfl⟩, wraps⟩

/-- A program calls itself on a stack of one entry. A program that does not fit, the second call and
an invalid key fail on the way, and the machine is in range after them. -/
theorem runs_stay_in_range_shallow :
    (∀ l ∈ some (1 : Int), 1 ≤ l) ∧
      ∃ start, standard (some 1) (.cycling #[]) = .ok start ∧
        (start.after [.load (List.replicate 4000 0), .load [0x22, 0x00], .step, .step,
          .update [3, 16], .tick]).InRange (some 1) := by
  have positive : ∀ l ∈ some (1 : Int), 1 ≤ l := by decide
  obtain ⟨start, built, kept, -⟩ := runs_stay_in_range positive (.cycling #[])
  exact ⟨positive, start, built, (kept _).1⟩

end Machine

end ChipEight
