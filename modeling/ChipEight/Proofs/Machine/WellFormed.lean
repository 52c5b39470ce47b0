import ChipEight.Proofs.Machine.Access

/-!
# Well-formed machines

A machine is well-formed when its memory and its screen have the standard size and its address
registers hold no negative number. Nothing is asked of the memory's contents, the general registers,
the stack, the timers, the keypad or the random source.

The machine at power-on is well-formed, and `standard_eq` says that it is what the construction of a
machine answers for every limit that is accepted.
-/

namespace ChipEight

namespace Memory

/-- A new memory has the size that was asked for, or that of the font if it is more. -/
theorem size_ofSize (size : Nat) : (ofSize size).size = max size font.length := by
  simp only [Memory.size, ofSize, List.size_toArray, List.length_append, List.length_replicate]
  omega

end Memory

namespace Machine

/-- A machine of the standard size whose address registers hold no negative number. -/
structure WellFormed (m : Machine) : Prop where
  size : m.memory.size = memorySize
  width : m.screen.raster.width = Screen.standardWidth
  height : m.screen.raster.height = Screen.standardHeight
  index : 0 ≤ m.registers.i
  pc : 0 ≤ m.registers.pc

/-- The standard machine at power-on. -/
def powerOn (limit : Option Nat) (random : RandomSource) : Machine :=
  assemble (.ofSize memorySize) (.blank Screen.standardWidth Screen.standardHeight) ⟨limit, []⟩
    random

/-- A machine with a positive limit, or with none, is built, and it is the one at power-on. -/
theorem standard_eq {limit : Option Int} (positive : ∀ l ∈ limit, 1 ≤ l) (random : RandomSource) :
    standard limit random = .ok (powerOn (limit.map Int.toNat) random) := by
  cases limit with
  | none => rfl
  | some l =>
    have accepted : ¬l < 1 := by
      have := positive l rfl
      omega
    simp only [standard, CallStack.make, if_neg accepted]
    rfl

theorem powerOn_wellFormed (limit : Option Nat) (random : RandomSource) :
    (powerOn limit random).WellFormed where
  size := Memory.size_ofSize memorySize
  width := rfl
  height := rfl
  index := Int.le_refl 0
  pc := Int.natCast_nonneg 512

/-- The machine at power-on with the usual limit and a program in its memory. -/
def loaded (program : List UInt8) : Machine :=
  { powerOn (some CallStack.standardLimit) (.cycling #[]) with
    memory := (Memory.ofSize memorySize).withBlock programStart program }

theorem loaded_wellFormed (program : List UInt8) : (loaded program).WellFormed where
  size := (Memory.size_withBlock _ _ _).trans (Memory.size_ofSize memorySize)
  width := rfl
  height := rfl
  index := Int.le_refl 0
  pc := Int.natCast_nonneg 512

end Machine

end ChipEight
