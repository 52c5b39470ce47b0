import ChipEight.Machine.Mnemonic
import ChipEight.Proofs.Machine.Assembly
import ChipEight.Proofs.Machine.Cells
import ChipEight.Proofs.Machine.Control
import ChipEight.Proofs.Machine.Faults

/-!
# What a text says of a step

Mnemonics are told from the digits of words and not from the instructions that the decoder reads.
The two agree on every word: a word has a mnemonic exactly if it is decoded, and it is the text of
the instruction that it spells (`mnemonic_eq_map_text`).

So a word has a text exactly if a step on it does not fail as unrecognized. Words of one text are
carried out alike: `AgreeBesides` relates two machines that differ in the word at an address at most,
and a step on two such machines whose words at the program counter have one text meets the same
fault, or leaves two such machines behind (`mnemonics_tell_steps`).

No two instructions have one text, so that two words of one text are the same word but for the
operand that a shift does not use (`eq_of_spells`).
-/

namespace ChipEight

/-! ## Words by their digits -/

namespace Opcode

variable {a b : Opcode}

theorem ext_nnn (family : a.family = b.family) (nnn : a.nnn = b.nnn) : a = b := by
  have low : a.toNat % 4096 = b.toNat % 4096 := congrArg Fin.val nnn
  unfold Opcode.family at family
  exact UInt16.toNat_inj.mp (by omega)

theorem ext_nn (family : a.family = b.family) (x : a.x = b.x) (nn : a.nn = b.nn) : a = b := by
  have middle : a.toNat / 256 % 16 = b.toNat / 256 % 16 := congrArg Fin.val x
  have low : a.toNat % 256 % 256 = b.toNat % 256 % 256 := congrArg UInt8.toNat nn
  unfold Opcode.family at family
  exact UInt16.toNat_inj.mp (by omega)

theorem ext_n (family : a.family = b.family) (x : a.x = b.x) (y : a.y = b.y) (n : a.n = b.n) :
    a = b := by
  have second : a.toNat / 256 % 16 = b.toNat / 256 % 16 := congrArg Fin.val x
  have third : a.toNat / 16 % 16 = b.toNat / 16 % 16 := congrArg Fin.val y
  have last : a.toNat % 16 = b.toNat % 16 := congrArg Fin.val n
  unfold Opcode.family at family
  exact UInt16.toNat_inj.mp (by omega)

/-- The bytes of a word. -/
theorem ofBytes_inj {high low high' low' : UInt8} (h : ofBytes high low = ofBytes high' low') :
    high = high' ∧ low = low' := by
  have same := congrArg UInt16.toNat h
  have bounds := high.toNat_lt
  have bounds' := high'.toNat_lt
  have below := low.toNat_lt
  have below' := low'.toNat_lt
  simp only [ofBytes, UInt16.toNat_ofNat'] at same
  exact ⟨UInt8.toNat_inj.mp (by omega), UInt8.toNat_inj.mp (by omega)⟩

end Opcode

namespace Instruction

/-- Is the instruction a shift? -/
def isShift : Instruction → Bool
  | .shiftRight _ | .shiftLeft _ => true
  | _ => false

/-- **An instruction is spelled by one word**, unless it is a shift, which has an operand that is
not used. -/
theorem eq_of_spells {i : Instruction} {a b : Opcode} (spells : i.Spells a) (spells' : i.Spells b)
    (unshifted : i.isShift = false) : a = b := by
  cases i with
  | clearScreen | returnFromCall => exact spells.trans spells'.symm
  | jump _ | call _ | setIndex _ | jumpPlus _ =>
    exact Opcode.ext_nnn (spells.1.trans spells'.1.symm) (spells.2.trans spells'.2.symm)
  | skipIfByte _ _ | skipUnlessByte _ _ | setByte _ _ | addByte _ _ | random _ _ =>
    obtain ⟨family, x, nn⟩ := spells
    obtain ⟨family', x', nn'⟩ := spells'
    exact Opcode.ext_nn (family.trans family'.symm) (x.trans x'.symm) (nn.trans nn'.symm)
  | skipIfSame _ _ | skipUnlessSame _ _ | arithmetic _ _ _ =>
    obtain ⟨family, n, x, y⟩ := spells
    obtain ⟨family', n', x', y'⟩ := spells'
    exact Opcode.ext_n (family.trans family'.symm) (x.trans x'.symm) (y.trans y'.symm)
      (n.trans n'.symm)
  | draw _ _ _ =>
    obtain ⟨family, x, y, n⟩ := spells
    obtain ⟨family', x', y', n'⟩ := spells'
    exact Opcode.ext_n (family.trans family'.symm) (x.trans x'.symm) (y.trans y'.symm)
      (n.trans n'.symm)
  | shiftRight _ | shiftLeft _ => cases unshifted
  | _ =>
    obtain ⟨family, nn, x⟩ := spells
    obtain ⟨family', nn', x'⟩ := spells'
    exact Opcode.ext_nn (family.trans family'.symm) (x.trans x'.symm) (nn.trans nn'.symm)

end Instruction

/-! ## Mnemonics and the decoder -/

namespace Mnemonic

@[simp] theorem toList_digit (x : Fin 16) : (digit x).toList = [Text.hexDigit x.val] :=
  String.toList_ofList

@[simp] theorem toList_register (x : Fin 16) :
    (register x).toList = ['V', Text.hexDigit x.val] := by
  simp [register]

@[simp] theorem toList_byte (value : UInt8) :
    (byte value).toList = '0' :: 'x' :: Text.fixedHex 2 value.toNat := by
  simp [byte]

@[simp] theorem toList_address (a : Fin 4096) :
    (address a).toList = '0' :: 'x' :: Text.fixedHex 3 a.val := by
  simp [address]

@[simp] theorem toList_fill (word : Opcode) (template : Template) :
    (fill word template).toList = template.flatMap fun part => (part.text word).toList := by
  simp [fill, List.flatMap_map]

/-- The template of an instruction that computes with two registers. -/
theorem lookup_digit (operation : Arithmetic) :
    arithmeticTemplates.lookup operation.digit.val =
      some [.letters (Instruction.arithmeticName operation ++ " V"), .x, .letters ", V", .y] := by
  cases operation <;> rfl

end Mnemonic

open Mnemonic Instruction in
/-- **A word that spells an instruction has the text of that instruction as its mnemonic.** -/
theorem mnemonic_of_spells {w : Opcode} {i : Instruction} (spells : i.Spells w) :
    mnemonic w = some i.text := by
  have signs {s : String} (same : s.toList = i.verb.toList ++ written i.operands) :
      some s = some i.text :=
    congrArg some (String.toList_inj.mp (same.trans i.text_toList.symm))
  have filled {template : Template} (family : w.family = 0x8)
      (found : arithmeticTemplates.lookup w.n.val = some template) :
      mnemonic w = some (fill w template) := by
    simp [mnemonic, family, found]
  have transferred {template : Template} (family : w.family = 0xF)
      (found : transferTemplates.lookup w.nn.toNat = some template) :
      mnemonic w = some (fill w template) := by
    simp [mnemonic, family, found]
  cases i with
  | clearScreen | returnFromCall =>
    cases spells
    rfl
  | jump _ | call _ | setIndex _ =>
    obtain ⟨family, rfl⟩ := spells
    simp only [mnemonic, family, Nat.reduceEqDiff, ↓reduceIte]
    exact signs (by simp [verb, operands, written, Operand.spelling])
  | jumpPlus _ =>
    obtain ⟨family, rfl⟩ := spells
    have zero : Text.hexDigit 0 = '0' := rfl
    simp only [mnemonic, family, Nat.reduceEqDiff, ↓reduceIte]
    exact signs (by simp [verb, operands, written, Operand.spelling, zero])
  | skipIfByte _ _ | skipUnlessByte _ _ | setByte _ _ | addByte _ _ | random _ _ =>
    obtain ⟨family, rfl, rfl⟩ := spells
    simp only [mnemonic, family, Nat.reduceEqDiff, ↓reduceIte]
    exact signs (by simp [verb, operands, written, Operand.spelling])
  | skipIfSame _ _ | skipUnlessSame _ _ =>
    obtain ⟨family, digit, rfl, rfl⟩ := spells
    simp only [mnemonic, family, digit, Nat.reduceEqDiff, ↓reduceIte]
    exact signs (by simp [verb, operands, written, Operand.spelling])
  | draw _ _ _ =>
    obtain ⟨family, rfl, rfl, rfl⟩ := spells
    simp only [mnemonic, family, Nat.reduceEqDiff, ↓reduceIte]
    exact signs (by simp [verb, operands, written, Operand.spelling])
  | arithmetic operation _ _ =>
    obtain ⟨family, digit, rfl, rfl⟩ := spells
    rw [filled family (digit ▸ lookup_digit operation)]
    exact signs (by simp [verb, operands, written, Operand.spelling, Part.text])
  | shiftRight _ | shiftLeft _ =>
    obtain ⟨family, digit, rfl⟩ := spells
    rw [filled family (by rw [digit]; rfl)]
    exact signs (by simp [verb, operands, written, Operand.spelling, Part.text])
  | skipIfPressed _ | skipUnlessPressed _ =>
    obtain ⟨family, byte, rfl⟩ := spells
    simp only [mnemonic, family, byte, Nat.reduceEqDiff, ↓reduceIte]
    exact signs (by simp [verb, operands, written, Operand.spelling])
  | _ =>
    obtain ⟨family, byte, rfl⟩ := spells
    rw [transferred family (by rw [byte]; rfl)]
    exact signs (by simp [verb, operands, written, Operand.spelling, Part.text])


/-- A last digit has a template only in the instructions of family 8. -/
theorem Mnemonic.lookup_arithmeticTemplates_eq_none : ∀ {n : Fin 16},
    n ∉ [0x0, 0x1, 0x2, 0x3, 0x4, 0x5, 0x6, 0x7, 0xE] → arithmeticTemplates.lookup n.val = none := by
  decide

/-- A last byte has a template only in the instructions of family F. -/
theorem Mnemonic.lookup_transferTemplates_eq_none {nn : UInt8}
    (other : nn ∉ [0x07, 0x0A, 0x15, 0x18, 0x1E, 0x29, 0x33, 0x55, 0x65]) :
    transferTemplates.lookup nn.toNat = none := by
  refine List.lookup_eq_none_iff.mpr fun entry among => bne_iff_ne.mpr fun same => other ?_
  have key : UInt8.ofNat entry.1 = nn := by rw [← same, UInt8.ofNat_toNat]
  have keys : ∀ entry ∈ transferTemplates,
      UInt8.ofNat entry.1 ∈ [0x07, 0x0A, 0x15, 0x18, 0x1E, 0x29, 0x33, 0x55, 0x65] := by decide
  exact key ▸ keys entry among

open Mnemonic in
/-- A word that is no instruction has no mnemonic. -/
theorem mnemonic_of_not_isInstruction {w : Opcode} (shapeless : ¬w.IsInstruction) :
    mnemonic w = none := by
  simp only [Opcode.IsInstruction, not_or, not_and] at shapeless
  obtain ⟨clear, back, plain, same, arithmetic, keys, transfer⟩ := shapeless
  have family : w.family = 0x0 ∨ (w.family = 0x5 ∨ w.family = 0x9) ∨ w.family = 0x8 ∨
      w.family = 0xE ∨ w.family = 0xF := by
    have below := Instruction.family_lt w
    simp only [List.mem_cons, List.not_mem_nil, or_false, not_or] at plain
    omega
  rcases family with family | compares | family | family | family
  · simp [mnemonic, family, clear, back]
  · have digit := same compares
    rcases compares with family | family <;> simp [mnemonic, family, digit]
  · simp [mnemonic, family, lookup_arithmeticTemplates_eq_none (arithmetic family)]
  · have bytes := keys family
    simp only [List.mem_cons, List.not_mem_nil, or_false, not_or] at bytes
    simp [mnemonic, family, bytes]
  · simp [mnemonic, family, lookup_transferTemplates_eq_none (transfer family)]

/-- **Mnemonics and the decoder agree on every word**: what the decoder reads has the text of the
instruction as its mnemonic, and what it refuses has none. -/
theorem mnemonic_eq_map_text (w : Opcode) :
    mnemonic w = (Instruction.decode w).map Instruction.text := by
  cases read : Instruction.decode w with
  | none => exact mnemonic_of_not_isInstruction (Instruction.decode_eq_none_iff.mp read)
  | some i => exact mnemonic_of_spells (Instruction.decode_eq_some_iff.mp read)

theorem mnemonic_eq_none_iff {w : Opcode} :
    mnemonic w = none ↔ Instruction.decode w = none := by
  rw [mnemonic_eq_map_text, Option.map_eq_none_iff]

/-- Words of one text are read as one instruction. -/
theorem decode_of_mnemonic {a b : Opcode} (same : mnemonic a = mnemonic b)
    (named : mnemonic a ≠ none) :
    ∃ i, Instruction.decode a = some i ∧ Instruction.decode b = some i := by
  rw [mnemonic_eq_map_text, mnemonic_eq_map_text] at same
  rw [mnemonic_eq_map_text] at named
  obtain ⟨text, named⟩ := Option.ne_none_iff_exists'.mp named
  obtain ⟨i, read, text_i⟩ := Option.map_eq_some_iff.mp named
  obtain ⟨j, read', text_j⟩ := Option.map_eq_some_iff.mp (same.symm.trans named)
  have one : i = j := Instruction.text_injective (text_i.trans text_j.symm)
  exact ⟨i, read, one ▸ read'⟩

/-- Two words have one text exactly if they are two spellings of one shift. -/
theorem mnemonic_eq_of_ne {a b : Opcode} :
    a ≠ b ∧ mnemonic a = mnemonic b ∧ mnemonic a ≠ none ↔
      a.family = 0x8 ∧ b.family = 0x8 ∧ a.x = b.x ∧ a.y ≠ b.y ∧
        (a.n = 0x6 ∧ b.n = 0x6 ∨ a.n = 0xE ∧ b.n = 0xE) := by
  constructor
  · rintro ⟨other, same, named⟩
    obtain ⟨i, read, read'⟩ := decode_of_mnemonic same named
    have spells := Instruction.spells_of_decode read
    have spells' := Instruction.spells_of_decode read'
    cases shift : i.isShift with
    | false => exact absurd (Instruction.eq_of_spells spells spells' shift) other
    | true =>
      have third (family : a.family = b.family) (x : a.x = b.x) (n : a.n = b.n) : a.y ≠ b.y :=
        fun y => other (Opcode.ext_n family x y n)
      cases i with
      | shiftRight x =>
        obtain ⟨family, n, rfl⟩ := spells
        obtain ⟨family', n', x⟩ := spells'
        exact ⟨family, family', x.symm, third (family.trans family'.symm) x.symm
          (n.trans n'.symm), .inl ⟨n, n'⟩⟩
      | shiftLeft x =>
        obtain ⟨family, n, rfl⟩ := spells
        obtain ⟨family', n', x⟩ := spells'
        exact ⟨family, family', x.symm, third (family.trans family'.symm) x.symm
          (n.trans n'.symm), .inr ⟨n, n'⟩⟩
      | _ => cases shift
  · rintro ⟨family, family', x, y, digits⟩
    refine ⟨fun same => y (congrArg Opcode.y same), ?_⟩
    obtain ⟨i, read, read'⟩ : ∃ i, Instruction.decode a = some i ∧
        Instruction.decode b = some i := by
      rcases digits with ⟨n, n'⟩ | ⟨n, n'⟩
      · exact ⟨.shiftRight a.x, Instruction.decode_of_spells ⟨family, n, rfl⟩,
          Instruction.decode_of_spells ⟨family', n', x.symm⟩⟩
      · exact ⟨.shiftLeft a.x, Instruction.decode_of_spells ⟨family, n, rfl⟩,
          Instruction.decode_of_spells ⟨family', n', x.symm⟩⟩
    rw [mnemonic_eq_map_text, mnemonic_eq_map_text, read, read']
    exact ⟨rfl, Option.some_ne_none _⟩

/-! ## Machines that differ in one word -/

namespace Machine

/-- Two machines differ at most in the two cells of the word at an address. -/
structure AgreeBesides (address : Int) (m m' : Machine) : Prop where
  rest : { m with memory := m'.memory } = m'
  size : m.memory.size = m'.memory.size
  cells : ∀ k : Nat, (k : Int) ≠ address → (k : Int) ≠ address + 1 →
    m.memory.cell k = m'.memory.cell k

variable {m m' : Machine}

theorem AgreeBesides.refl (address : Int) (m : Machine) : AgreeBesides address m m where
  rest := rfl
  size := rfl
  cells _ _ _ := rfl

theorem AgreeBesides.registers {address : Int} (agree : AgreeBesides address m m') :
    m'.registers = m.registers := by
  rw [← agree.rest]

/-- Machines that agree besides the word at the program counter and in that word are the same. -/
theorem AgreeBesides.eq (agree : AgreeBesides m.registers.pc m m') (word : m.word = m'.word) :
    m = m' := by
  obtain ⟨high, last⟩ := Opcode.ofBytes_inj word
  rw [agree.registers] at high last
  have memory : m.memory = m'.memory := by
    refine Memory.ext_cell agree.size fun k => ?_
    by_cases first : (k : Int) = m.registers.pc
    · rw [← first, Int.toNat_natCast] at high
      exact high
    · by_cases second : (k : Int) = m.registers.pc + 1
      · rw [← second, Int.toNat_natCast] at last
        exact last
      · exact agree.cells k first second
  rw [← agree.rest, ← memory]

/-- A shift succeeds wherever it can be read, and the memory is nothing to it. -/
theorem next_of_isShift {i : Instruction} (size : m.memory.size = memorySize)
    (low : 0 ≤ m.registers.pc) (high : m.registers.pc ≤ 4094) (read : m.instruction? = some i)
    (shift : i.isShift) :
    m.fault? = none ∧ ∀ memory : Memory,
      { m with memory := memory }.change i = { m.change i with memory := memory } := by
  cases i with
  | shiftRight x => exact ⟨(fault?_eq_none size low high read rfl).1, fun _ => rfl⟩
  | shiftLeft x => exact ⟨(fault?_eq_none size low high read rfl).1, fun _ => rfl⟩
  | _ => cases shift

/-- **Words of one text are carried out alike** by machines that differ in these words only. -/
theorem AgreeBesides.next {i : Instruction} (agree : AgreeBesides m.registers.pc m m')
    (size : m.memory.size = memorySize) (low : 0 ≤ m.registers.pc)
    (high : m.registers.pc ≤ 4094) (read : m.instruction? = some i)
    (read' : m'.instruction? = some i) :
    m.fault? = m'.fault? ∧ AgreeBesides m.registers.pc m.next m'.next := by
  cases shift : i.isShift with
  | false =>
    have word : m.word = m'.word := Instruction.eq_of_spells (Instruction.spells_of_decode read)
      (Instruction.spells_of_decode read') shift
    obtain rfl := agree.eq word
    exact ⟨rfl, .refl _ m.next⟩
  | true =>
    have place : m'.registers.pc = m.registers.pc := congrArg Registers.pc agree.registers
    obtain ⟨clear, changed⟩ := next_of_isShift size low high read shift
    obtain ⟨clear', -⟩ := next_of_isShift (agree.size.symm.trans size) (place ▸ low)
      (place ▸ high) read' shift
    have executed : m'.executed = m.executed := by rw [← agree.rest]
    have kept (m : Machine) : (m.change i).memory = m.memory := by
      rw [change_eq]
      cases i with
      | shiftRight x | shiftLeft x => rfl
      | _ => cases shift
    have shifted := changed m'.memory
    rw [agree.rest] at shifted
    have moved : m'.next =
        { m.change i with memory := m'.memory, executed := m.executed + 1 } := by
      simp only [Machine.next, read', executed, shifted]
    have stayed : m.next = { m.change i with executed := m.executed + 1 } := by
      simp only [Machine.next, read]
    refine ⟨clear.trans clear'.symm, ?_⟩
    rw [moved, stayed]
    exact {
      rest := rfl
      size := (congrArg Memory.size (kept m)).trans agree.size
      cells := fun k first second => by
        rw [← agree.cells k first second]
        exact congrArg (fun memory => memory.cell k) (kept m) }

/-- A step on a well-formed machine fails as unrecognized exactly if its word has no text. -/
theorem WellFormed.mnemonic_eq_none_iff (wf : m.WellFormed)
    (inside : m.registers.pc + 1 < memorySize) :
    mnemonic m.word = none ↔
      ∃ opcode pc m', step.run m = .error (.unrecognizedOpcode opcode pc) m' := by
  rw [ChipEight.mnemonic_eq_none_iff, Instruction.decode_eq_none_iff]
  constructor
  · intro shapeless
    have listed : m.Faults (.unrecognizedOpcode m.word.toNat (some m.registers.pc)) :=
      .ofWord (by omega) (.unrecognized shapeless)
    exact ⟨_, _, m, step_eq_error_iff.mpr ⟨wf.fault?_eq_some_iff.mpr listed, rfl⟩⟩
  · rintro ⟨opcode, pc, m', failed⟩
    obtain ⟨met, rfl⟩ := step_eq_error_iff.mp failed
    cases wf.fault?_eq_some_iff.mp met with
    | ofWord _ fault =>
      cases fault with
      | unrecognized shapeless => exact shapeless

/-- **A text tells what a step does.** A word that lies in the memory has no text exactly if the
step on it fails as unrecognized. Two words have one text exactly if they are one word or two
spellings of a shift. If two machines differ in the word at the program counter only and the two
words have one text, a step on them meets the same fault, or it leaves machines behind that differ in
that word only. -/
theorem mnemonics_tell_steps :
    (∀ (w : Opcode) (m : Machine), m.WellFormed → m.registers.pc + 1 < memorySize → m.word = w →
      (mnemonic w = none ↔
        ∃ opcode pc m', step.run m = .error (.unrecognizedOpcode opcode pc) m')) ∧
    (∀ (a b : Opcode) (m m' : Machine), m.WellFormed → m.registers.pc + 1 < memorySize →
      AgreeBesides m.registers.pc m m' → m.word = a → m'.word = b →
      mnemonic a = mnemonic b → mnemonic a ≠ none →
      (∃ e, step.run m = .error e m ∧ step.run m' = .error e m') ∨
        ∃ n n', step.run m = .ok () n ∧ step.run m' = .ok () n' ∧
          AgreeBesides m.registers.pc n n') ∧
    (∀ a b : Opcode, a ≠ b ∧ mnemonic a = mnemonic b ∧ mnemonic a ≠ none ↔
      a.family = 0x8 ∧ b.family = 0x8 ∧ a.x = b.x ∧ a.y ≠ b.y ∧
        (a.n = 0x6 ∧ b.n = 0x6 ∨ a.n = 0xE ∧ b.n = 0xE)) := by
  refine ⟨?_, ?_, fun a b => mnemonic_eq_of_ne⟩
  · rintro w m wf inside rfl
    exact wf.mnemonic_eq_none_iff inside
  · rintro a b m m' wf inside agree rfl rfl same named
    obtain ⟨i, read, read'⟩ := decode_of_mnemonic same named
    have high : m.registers.pc ≤ 4094 := by
      rw [memorySize] at inside
      omega
    obtain ⟨faults, next⟩ := agree.next wf.size wf.pc high read read'
    cases met : m.fault? with
    | some e =>
      exact .inl ⟨e, step_eq_error_iff.mpr ⟨met, rfl⟩,
        step_eq_error_iff.mpr ⟨faults.symm.trans met, rfl⟩⟩
    | none =>
      exact .inr ⟨_, _, step_eq_ok_iff.mpr ⟨met, rfl⟩,
        step_eq_ok_iff.mpr ⟨faults.symm.trans met, rfl⟩, next⟩

/-- Machines with programs of one word differ in that word only. -/
theorem agreeBesides_loaded {p p' : List UInt8} (length : p.length = 2) (length' : p'.length = 2) :
    AgreeBesides 0x200 (loaded p) (loaded p') where
  rest := rfl
  size := (Memory.size_withBlock _ _ _).trans (Memory.size_withBlock _ _ _).symm
  cells k first second := by
    have outside : k < programStart.toNat ∨ programStart.toNat + 2 ≤ k := by
      simp only [programStart]
      omega
    exact (Memory.cell_withBlock_outside (length ▸ outside)).trans
      (Memory.cell_withBlock_outside (length' ▸ outside)).symm

/-- VF is shifted, with a second operand of one or of two: the steps end in machines that differ in
that word only. A comparison of registers whose last digit is not zero has no text, and the step on
it fails. -/
theorem mnemonics_tell_steps_shift :
    let m := loaded [0x8F, 0x16]
    let m' := loaded [0x8F, 0x26]
    let unread := loaded [0x50, 0x01]
    AgreeBesides 0x200 m m' ∧ mnemonic 0x8F16 = some "SHR VF" ∧
      mnemonic 0x8F26 = some "SHR VF" ∧
      ((∃ e, step.run m = .error e m ∧ step.run m' = .error e m') ∨
        ∃ n n', step.run m = .ok () n ∧ step.run m' = .ok () n' ∧ AgreeBesides 0x200 n n') ∧
      mnemonic 0x5001 = none ∧
        ∃ opcode pc m'', step.run unread = .error (.unrecognizedOpcode opcode pc) m'' := by
  intro m m' unread
  have inside (p : List UInt8) : (loaded p).registers.pc + 1 < memorySize :=
    (by decide : (0x201 : Int) < memorySize)
  have agree : AgreeBesides 0x200 m m' := agreeBesides_loaded rfl rfl
  have text : mnemonic 0x8F16 = some "SHR VF" := by decide
  have text' : mnemonic 0x8F26 = some "SHR VF" := by decide
  have named : mnemonic 0x8F16 ≠ none := by
    rw [text]
    decide
  have nameless : mnemonic 0x5001 = none := by decide
  have failed := (mnemonics_tell_steps.1 0x5001 unread (loaded_wellFormed _) (inside _)
    (by decide +kernel)).mp nameless
  have alike := mnemonics_tell_steps.2.1 0x8F16 0x8F26 m m' (loaded_wellFormed _) (inside _) agree
    (by decide +kernel) (by decide +kernel) (text.trans text'.symm) named
  exact ⟨agree, text, text', alike, nameless, failed⟩

end Machine

end ChipEight
