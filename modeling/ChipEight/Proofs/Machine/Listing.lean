import ChipEight.Proofs.Machine.Disassembly
import ChipEight.Proofs.Machine.History

/-!
# Listings

A listing shows a byte string word by word: one line for every two bytes, at addresses two apart,
and the words in order are the bytes again, but for a last one without a partner.

The listing of a program tells what a machine does with it. As long as no program is loaded over it
and no store is carried out, a machine whose program counter is at the address of a line reads the
word of that line, and fails to carry it out as unrecognized exactly if the line lists it as data
(`listing_stays_true`). The stores that fail change nothing, so they do not count.
-/

namespace ChipEight

/-! ## The lines of a listing -/

/-- The two bytes of a word, the high one first. -/
def Opcode.bytes (w : Opcode) : List UInt8 := [UInt8.ofNat (w.toNat / 256), UInt8.ofNat w.toNat]

theorem Opcode.bytes_ofBytes (high low : UInt8) : (ofBytes high low).bytes = [high, low] := by
  have above := high.toNat_lt
  have below := low.toNat_lt
  have value : (ofBytes high low).toNat = high.toNat * 256 + low.toNat := by
    simp only [ofBytes, UInt16.toNat_ofNat']
    omega
  have first : UInt8.ofNat (high.toNat * 256 + low.toNat) = low :=
    UInt8.toNat_inj.mp (by simp only [UInt8.toNat_ofNat']; omega)
  have second : UInt8.ofNat ((high.toNat * 256 + low.toNat) / 256) = high :=
    UInt8.toNat_inj.mp (by simp only [UInt8.toNat_ofNat']; omega)
  rw [bytes, value, first, second]

/-- Half of fewer than two bytes is none. -/
theorem half_of_few {bytes : List UInt8}
    (few : ∀ (high low : UInt8) (rest : List UInt8), bytes = high :: low :: rest → False) :
    bytes.length / 2 = 0 := by
  match bytes, few with
  | [], _ => rfl
  | [_], _ => simp only [List.length_singleton, Nat.reduceDiv]
  | high :: low :: rest, few => exact (few high low rest rfl).elim

/-- A line shows the word of two neighbouring bytes. -/
theorem mem_listing {address : Int} {bytes : List UInt8} {line : ListingLine}
    (among : line ∈ listing address bytes) :
    ∃ k, ∃ within : 2 * k + 1 < bytes.length, line.address = address + 2 * k ∧
      line.word = .ofBytes bytes[2 * k] bytes[2 * k + 1] ∧
      line.text = (mnemonic line.word).getD (dataText line.word) := by
  fun_induction listing address bytes with
  | case1 address high low rest word ih =>
    rcases List.mem_cons.mp among with rfl | later
    · exact ⟨0, by simp only [List.length_cons]; omega, (Int.add_zero _).symm, rfl, rfl⟩
    · obtain ⟨k, within, place, shown, text⟩ := ih later
      refine ⟨k + 1, by simp only [List.length_cons]; omega, by omega, ?_, text⟩
      rw [shown]
      rfl
  | case2 address bytes few => cases among

/-- The lines of a listing lie two apart, one for every two bytes. -/
theorem addresses_listing (address : Int) (bytes : List UInt8) :
    (listing address bytes).map ListingLine.address =
      (List.range (bytes.length / 2)).map fun (k : Nat) => address + 2 * k := by
  fun_induction listing address bytes with
  | case1 address high low rest word ih =>
    have half : (high :: low :: rest).length / 2 = rest.length / 2 + 1 := by
      simp only [List.length_cons]
      omega
    rw [half, List.range_succ_eq_map, List.map_cons, List.map_cons, ih, List.map_map]
    refine List.cons_eq_cons.mpr ⟨(Int.add_zero _).symm, List.map_congr_left fun k _ => ?_⟩
    simp only [Function.comp_apply]
    omega
  | case2 address bytes few => rw [half_of_few few, List.range_zero, List.map_nil, List.map_nil]

/-- The words of a listing are the bytes that it shows, but for a last one without a partner. -/
theorem bytes_listing (address : Int) (bytes : List UInt8) :
    (listing address bytes).flatMap (fun line => line.word.bytes) =
      bytes.take (2 * (bytes.length / 2)) := by
  fun_induction listing address bytes with
  | case1 address high low rest word ih =>
    have half : 2 * ((high :: low :: rest).length / 2) = 2 * (rest.length / 2) + 2 := by
      simp only [List.length_cons]
      omega
    rw [half, List.flatMap_cons, ih, Opcode.bytes_ofBytes]
    rfl
  | case2 address bytes few => rw [half_of_few few, List.flatMap_nil, Nat.mul_zero, List.take_zero]

/-- A word has no text exactly if it is listed as data, which is told by the line's text alone. -/
theorem mnemonic_eq_none_iff_data {w : Opcode} :
    mnemonic w = none ↔
      ∃ digits : String, digits.length = 4 ∧
        (mnemonic w).getD (dataText w) = "DW 0x" ++ digits := by
  constructor
  · intro nameless
    rw [nameless]
    refine ⟨String.ofList (Text.fixedHex 4 w.toNat), ?_, rfl⟩
    rw [String.length_ofList, Text.length_fixedHex]
  · rintro ⟨digits, -, listed⟩
    cases read : Instruction.decode w with
    | none => exact mnemonic_eq_none_iff.mpr read
    | some i =>
      rw [mnemonic_eq_map_text, read] at listed
      exact absurd listed (i.text_ne_data digits)

/-! ## Listings of programs -/

namespace Machine

/-- A program that fits between the program's start and the end of the memory is loaded. -/
theorem load_eq_ok {m : Machine} (size : m.memory.size = memorySize) {rom : List UInt8}
    (fits : rom.length ≤ 3584) :
    ∃ m', m.load rom = .ok (m', rom.length) ∧
      m'.memory = m.memory.withBlock programStart rom := by
  have clear : m.memory.writeFault? programStart rom.length = none := by
    have within : ¬addressLimit < programStart + rom.length := by
      simp only [addressLimit, programStart]
      omega
    have covered : m.memory.Covers programStart rom.length := by
      simp only [Memory.Covers, programStart, size, memorySize]
      omega
    rw [Memory.writeFault?, if_neg within, Memory.outside?, if_pos covered]
  refine ⟨{ m with memory := m.memory.withBlock programStart rom }, ?_, rfl⟩
  simp only [Machine.load, Memory.load, Memory.writeBytes_eq_raiseOr, clear]
  rfl

theorem after_load {m m' : Machine} {image : List UInt8} {size : Nat}
    (opened : m.load image = .ok (m', size)) : m.after [.load image] = m' := by
  simp only [after_cons, after_nil, Operation.apply, opened]

/-- A word that lies in the memory can be read. -/
theorem WellFormed.fetch_eq_ok {m : Machine} (wf : m.WellFormed)
    (inside : m.registers.pc + 1 < memorySize) : fetch.run m = .ok m.word m := by
  have clear : m.fetchFault? = none := by
    rw [wf.fetchFault?_eq, if_neg (by omega), if_neg (by omega)]
  rw [fetch_run, clear]

/-- A machine reads the word of two neighbouring bytes of a program where they were loaded. -/
theorem word_of_loaded {m m' : Machine} {rom : List UInt8} {k : Nat}
    (size : m.memory.size = memorySize) (fits : rom.length ≤ 3584)
    (within : 2 * k + 1 < rom.length)
    (memory : m'.memory = m.memory.withBlock programStart rom)
    (here : m'.registers.pc = programStart + 2 * k) :
    m'.word = .ofBytes rom[2 * k] rom[2 * k + 1] := by
  have first : m'.registers.pc.toNat = programStart.toNat + 2 * k := by
    rw [here, programStart]
    omega
  have second : (m'.registers.pc + 1).toNat = programStart.toNat + (2 * k + 1) := by
    rw [here, programStart]
    omega
  have inside : programStart.toNat + (2 * k + 1) < m.memory.size := by
    simp only [size, memorySize, programStart]
    omega
  rw [word, memory, first, second,
    Memory.cell_withBlock_inside (Nat.lt_of_succ_lt inside) (Nat.lt_of_succ_lt within),
    Memory.cell_withBlock_inside inside within]

/-- **A listing stays true.** A program that fits is loaded into a new machine. After any operations
that load no other program and carry out no store, a machine whose program counter is at the address
of a line of the program's listing reads the word of that line, and a step on it fails as
unrecognized exactly if the line lists the word as data. The lines lie two apart from the program's
start on, one for every two bytes, and their words are the program without a last byte that has no
partner. -/
theorem listing_stays_true {limit : Option Int} {random : RandomSource} {fresh : Machine}
    (built : standard limit random = .ok fresh) {rom : List UInt8} (fits : rom.length ≤ 3584) :
    ∃ m, fresh.load rom = .ok (m, rom.length) ∧
      (∀ operations : List Operation, (∀ image, .load image ∉ operations) →
        (∀ x, .storeDecimal x ∉ m.obeyed operations ∧
          .storeRegisters x ∉ m.obeyed operations) →
        ∀ line ∈ listing programStart rom, (m.after operations).registers.pc = line.address →
          fetch.run (m.after operations) = .ok line.word (m.after operations) ∧
          ((∃ opcode pc m', step.run (m.after operations) =
              .error (.unrecognizedOpcode opcode pc) m') ↔
            ∃ digits : String, digits.length = 4 ∧ line.text = "DW 0x" ++ digits)) ∧
      (listing programStart rom).map ListingLine.address =
        (List.range (rom.length / 2)).map (fun (k : Nat) => 0x200 + 2 * (k : Int)) ∧
      (listing programStart rom).length = rom.length / 2 ∧
      (listing programStart rom).flatMap (fun line => line.word.bytes) =
        rom.take (2 * (rom.length / 2)) := by
  have size : fresh.memory.size = memorySize := by
    rw [eq_powerOn_of_standard built]
    exact (powerOn_wellFormed _ random).size
  obtain ⟨m, opened, loaded⟩ := load_eq_ok size fits
  refine ⟨m, opened, ?_, addresses_listing _ rom, ?_, bytes_listing _ rom⟩
  · intro operations unloaded unstored line among here
    obtain ⟨k, within, address, shown, text⟩ := mem_listing among
    have reached : m.Reachable := ⟨limit, random, fresh, [.load rom], built, after_load opened⟩
    have wf : (m.after operations).WellFormed := (reached.after operations).wellFormed
    have memory : (m.after operations).memory = fresh.memory.withBlock programStart rom :=
      (m.memory_after unloaded unstored).trans loaded
    have word : (m.after operations).word = line.word :=
      (word_of_loaded size fits within memory (here.trans address)).trans shown.symm
    have inside : (m.after operations).registers.pc + 1 < memorySize := by
      rw [here, address, programStart, memorySize]
      omega
    constructor
    · rw [wf.fetch_eq_ok inside, word]
    · rw [← wf.mnemonic_eq_none_iff inside, word, text]
      exact mnemonic_eq_none_iff_data
  · have lines := congrArg List.length (addresses_listing programStart rom)
    rwa [List.length_map, List.length_map, List.length_range] at lines

/-- A jump over a word that is no instruction, and a jump back to it. -/
def misread : List UInt8 := [0x12, 0x04, 0x50, 0x01, 0x12, 0x02, 0xFF]

/-- Two jumps lead to the second line, which lists data, with a tick between them. -/
theorem listing_stays_true_misread :
    ∃ m, (powerOn none (.cycling #[])).load misread = .ok (m, 7) ∧
      (m.after [.step, .tick, .step]).registers.pc = 0x202 ∧
      (listing programStart misread).map ListingLine.text =
        ["JP 0x204", "DW 0x5001", "JP 0x202"] ∧
      fetch.run (m.after [.step, .tick, .step]) = .ok 0x5001 (m.after [.step, .tick, .step]) ∧
      ∃ opcode pc m', step.run (m.after [.step, .tick, .step]) =
        .error (.unrecognizedOpcode opcode pc) m' := by
  have built : standard none (.cycling #[]) = .ok (powerOn none (.cycling #[])) := rfl
  have fits : misread.length ≤ 3584 := by decide
  obtain ⟨m, opened, truthful, -⟩ := listing_stays_true built fits
  obtain rfl : (powerOn none (.cycling #[])).after [.load misread] = m := after_load opened
  obtain ⟨here, jumps⟩ :
      (((powerOn none (.cycling #[])).after [.load misread]).after
        [.step, .tick, .step]).registers.pc = 0x202 ∧
      ((powerOn none (.cycling #[])).after [.load misread]).obeyed [.step, .tick, .step] =
        [.jump 0x204, .jump 0x202] := by
    decide +kernel
  have unloaded : ∀ image, Operation.load image ∉ [Operation.step, .tick, .step] := by simp
  have unstored (x : Fin 16) : Instruction.storeDecimal x ∉ [.jump 0x204, .jump 0x202] ∧
      Instruction.storeRegisters x ∉ [.jump 0x204, .jump 0x202] := by simp
  have lines : listing programStart misread = [⟨0x200, 0x1204, "JP 0x204"⟩,
      ⟨0x202, 0x5001, "DW 0x5001"⟩, ⟨0x204, 0x1202, "JP 0x202"⟩] := by decide +kernel
  have second : (⟨0x202, 0x5001, "DW 0x5001"⟩ : ListingLine) ∈ listing programStart misread := by
    rw [lines]
    exact List.mem_cons_of_mem _ List.mem_cons_self
  obtain ⟨fetched, failed⟩ := truthful _ unloaded (jumps ▸ unstored) _ second here
  have texts : (listing programStart misread).map ListingLine.text =
      ["JP 0x204", "DW 0x5001", "JP 0x202"] := congrArg (List.map ListingLine.text) lines
  exact ⟨_, opened, here, texts, fetched, failed.mpr ⟨"5001", rfl, rfl⟩⟩

end Machine

end ChipEight
