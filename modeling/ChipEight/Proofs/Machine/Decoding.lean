import ChipEight.Machine.Instruction

/-!
# The words of the instructions

`Spells` gives for each instruction the words that it is written as, by their digits, and
`decode_eq_some_iff` says that the decoder reads exactly these. `IsInstruction` lists the shapes of
all words that are instructions, and `decode_eq_none_iff` says that the decoder refuses the others.
-/

namespace ChipEight

/-- The last digit of a word that is a register-to-register instruction. -/
def Arithmetic.digit : Arithmetic → Fin 16
  | .copy => 0x0
  | .bitOr => 0x1
  | .bitAnd => 0x2
  | .bitXor => 0x3
  | .sum => 0x4
  | .difference => 0x5
  | .reverseDifference => 0x7

namespace Instruction

/-- A word spells an instruction. -/
def Spells (w : Opcode) : Instruction → Prop
  | .clearScreen => w = 0x00E0
  | .returnFromCall => w = 0x00EE
  | .jump target => w.family = 0x1 ∧ w.nnn = target
  | .call target => w.family = 0x2 ∧ w.nnn = target
  | .skipIfByte x value => w.family = 0x3 ∧ w.x = x ∧ w.nn = value
  | .skipUnlessByte x value => w.family = 0x4 ∧ w.x = x ∧ w.nn = value
  | .skipIfSame x y => w.family = 0x5 ∧ w.n = 0 ∧ w.x = x ∧ w.y = y
  | .setByte x value => w.family = 0x6 ∧ w.x = x ∧ w.nn = value
  | .addByte x value => w.family = 0x7 ∧ w.x = x ∧ w.nn = value
  | .arithmetic operation x y => w.family = 0x8 ∧ w.n = operation.digit ∧ w.x = x ∧ w.y = y
  | .shiftRight x => w.family = 0x8 ∧ w.n = 0x6 ∧ w.x = x
  | .shiftLeft x => w.family = 0x8 ∧ w.n = 0xE ∧ w.x = x
  | .skipUnlessSame x y => w.family = 0x9 ∧ w.n = 0 ∧ w.x = x ∧ w.y = y
  | .setIndex address => w.family = 0xA ∧ w.nnn = address
  | .jumpPlus base => w.family = 0xB ∧ w.nnn = base
  | .random x mask => w.family = 0xC ∧ w.x = x ∧ w.nn = mask
  | .draw x y rows => w.family = 0xD ∧ w.x = x ∧ w.y = y ∧ w.n = rows
  | .skipIfPressed x => w.family = 0xE ∧ w.nn = 0x9E ∧ w.x = x
  | .skipUnlessPressed x => w.family = 0xE ∧ w.nn = 0xA1 ∧ w.x = x
  | .readDelay x => w.family = 0xF ∧ w.nn = 0x07 ∧ w.x = x
  | .waitForKey x => w.family = 0xF ∧ w.nn = 0x0A ∧ w.x = x
  | .setDelay x => w.family = 0xF ∧ w.nn = 0x15 ∧ w.x = x
  | .setSound x => w.family = 0xF ∧ w.nn = 0x18 ∧ w.x = x
  | .addToIndex x => w.family = 0xF ∧ w.nn = 0x1E ∧ w.x = x
  | .indexGlyph x => w.family = 0xF ∧ w.nn = 0x29 ∧ w.x = x
  | .storeDecimal x => w.family = 0xF ∧ w.nn = 0x33 ∧ w.x = x
  | .storeRegisters x => w.family = 0xF ∧ w.nn = 0x55 ∧ w.x = x
  | .loadRegisters x => w.family = 0xF ∧ w.nn = 0x65 ∧ w.x = x

theorem family_lt (w : Opcode) : w.family < 16 := by
  have := w.toNat_lt
  unfold Opcode.family
  omega

/-! ## What the decoder reads is spelled so -/

theorem spells_of_decodeSystem {w : Opcode} {i : Instruction} (h : decodeSystem w = some i) :
    i.Spells w := by
  unfold decodeSystem at h
  split at h
  · cases h
    assumption
  · split at h <;> cases h
    assumption

theorem spells_of_decodeArithmetic {w : Opcode} {i : Instruction} (family : w.family = 0x8)
    (h : decodeArithmetic w = some i) : i.Spells w := by
  unfold decodeArithmetic at h
  split at h <;> cases h
  all_goals
    rename_i digit
    exact ⟨family, Fin.ext digit, by simp only [and_self]⟩

theorem spells_of_decodeKey {w : Opcode} {i : Instruction} (family : w.family = 0xE)
    (h : decodeKey w = some i) : i.Spells w := by
  unfold decodeKey at h
  split at h
  · rename_i byte
    cases h
    exact ⟨family, byte, rfl⟩
  · split at h <;> cases h
    rename_i byte
    exact ⟨family, byte, rfl⟩

theorem spells_of_decodeTransfer {w : Opcode} {i : Instruction} (family : w.family = 0xF)
    (h : decodeTransfer w = some i) : i.Spells w := by
  unfold decodeTransfer at h
  split at h <;> cases h
  all_goals
    rename_i byte
    exact ⟨family, UInt8.toNat_inj.mp byte, rfl⟩

/-- The decoder reads every word as it is spelled. -/
theorem spells_of_decode {w : Opcode} {i : Instruction} (h : decode w = some i) : i.Spells w := by
  have digit := family_lt w
  unfold decode at h
  split at h
  case h_1 => exact spells_of_decodeSystem h
  case h_9 family => exact spells_of_decodeArithmetic family h
  case h_15 family => exact spells_of_decodeKey family h
  case h_16 =>
    have family : w.family = 0xF := by grind
    exact spells_of_decodeTransfer family h
  case h_6 family =>
    split at h <;> cases h
    exact ⟨family, ‹_›, rfl, rfl⟩
  case h_10 family =>
    split at h <;> cases h
    exact ⟨family, ‹_›, rfl, rfl⟩
  all_goals
    rename_i family
    cases h
    exact ⟨family, by simp only [and_self]⟩

/-! ## What is spelled so is read -/

/-- A word that is spelled as an instruction is read as that instruction. -/
theorem decode_of_spells {w : Opcode} {i : Instruction} (h : i.Spells w) : decode w = some i := by
  cases i with
  | clearScreen | returnFromCall =>
    cases h
    rfl
  | arithmetic operation x y =>
    obtain ⟨family, digit, rfl, rfl⟩ := h
    simp only [decode, family, decodeArithmetic, digit]
    cases operation <;> rfl
  | shiftRight x | shiftLeft x =>
    obtain ⟨family, digit, rfl⟩ := h
    simp only [decode, family, decodeArithmetic, digit]
    rfl
  | skipIfSame x y | skipUnlessSame x y =>
    obtain ⟨family, digit, rfl, rfl⟩ := h
    simp only [decode, family, digit, ↓reduceIte]
  | skipIfPressed x | skipUnlessPressed x =>
    obtain ⟨family, byte, rfl⟩ := h
    simp only [decode, family, decodeKey, byte]
    rfl
  | readDelay x | waitForKey x | setDelay x | setSound x | addToIndex x | indexGlyph x
  | storeDecimal x | storeRegisters x | loadRegisters x =>
    obtain ⟨family, byte, rfl⟩ := h
    simp only [decode, family, decodeTransfer, byte]
    rfl
  | jump target | call target | setIndex target | jumpPlus target =>
    obtain ⟨family, rfl⟩ := h
    simp only [decode, family]
  | skipIfByte x value | skipUnlessByte x value | setByte x value | addByte x value
  | random x value =>
    obtain ⟨family, rfl, rfl⟩ := h
    simp only [decode, family]
  | draw x y rows =>
    obtain ⟨family, rfl, rfl, rfl⟩ := h
    simp only [decode, family]

/-- **The decoder reads an instruction from exactly the words that are spelled so.** -/
theorem decode_eq_some_iff {w : Opcode} {i : Instruction} : decode w = some i ↔ i.Spells w :=
  ⟨spells_of_decode, decode_of_spells⟩

end Instruction

/-! ## The words that are instructions -/

/-- The shapes of the words that are instructions, by their digits. -/
def Opcode.IsInstruction (w : Opcode) : Prop :=
  w = 0x00E0 ∨ w = 0x00EE ∨
  w.family ∈ [0x1, 0x2, 0x3, 0x4, 0x6, 0x7, 0xA, 0xB, 0xC, 0xD] ∨
  (w.family = 0x5 ∨ w.family = 0x9) ∧ w.n = 0 ∨
  w.family = 0x8 ∧ w.n ∈ [0x0, 0x1, 0x2, 0x3, 0x4, 0x5, 0x6, 0x7, 0xE] ∨
  w.family = 0xE ∧ w.nn ∈ [0x9E, 0xA1] ∨
  w.family = 0xF ∧ w.nn ∈ [0x07, 0x0A, 0x15, 0x18, 0x1E, 0x29, 0x33, 0x55, 0x65]

namespace Instruction

/-- What spells an instruction is a word of one of the shapes. -/
theorem Spells.isInstruction {w : Opcode} {i : Instruction} (h : i.Spells w) :
    w.IsInstruction := by
  cases i with
  | arithmetic operation x y =>
    obtain ⟨family, digit, _⟩ := h
    cases operation <;> simp [Opcode.IsInstruction, family, digit, Arithmetic.digit]
  | _ => simp_all [Spells, Opcode.IsInstruction]

/-- The decoder reads an instruction from every word of one of the shapes. -/
theorem isSome_decode {w : Opcode} (h : w.IsInstruction) : (decode w).isSome := by
  rcases h with rfl | rfl | family | ⟨family | family, digit⟩ | ⟨family, digit⟩ | ⟨family, byte⟩ |
    ⟨family, byte⟩
  · rfl
  · rfl
  · simp only [List.mem_cons, List.not_mem_nil, or_false] at family
    rcases family with family | family | family | family | family | family | family | family |
      family | family <;> simp only [decode, family, Option.isSome_some]
  · simp only [decode, family, digit, ↓reduceIte, Option.isSome_some]
  · simp only [decode, family, digit, ↓reduceIte, Option.isSome_some]
  · simp only [List.mem_cons, List.not_mem_nil, or_false] at digit
    rcases digit with digit | digit | digit | digit | digit | digit | digit | digit | digit <;>
      (simp only [decode, family, decodeArithmetic, digit]; rfl)
  · simp only [List.mem_cons, List.not_mem_nil, or_false] at byte
    rcases byte with byte | byte <;> (simp only [decode, family, decodeKey, byte]; rfl)
  · simp only [List.mem_cons, List.not_mem_nil, or_false] at byte
    rcases byte with byte | byte | byte | byte | byte | byte | byte | byte | byte <;>
      (simp only [decode, family, decodeTransfer, byte]; rfl)

/-- **The decoder refuses exactly the words of no shape.** -/
theorem decode_eq_none_iff {w : Opcode} : decode w = none ↔ ¬w.IsInstruction := by
  constructor
  · intro refused shaped
    have read := isSome_decode shaped
    rw [refused] at read
    cases read
  · intro shapeless
    cases h : decode w with
    | none => rfl
    | some i => exact absurd (spells_of_decode h).isInstruction shapeless

end Instruction

end ChipEight
