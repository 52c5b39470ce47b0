import ChipEight.Proofs.Machine.Control
import ChipEight.Proofs.Machine.Footprint
import ChipEight.Proofs.Machine.History

/-!
# Blocks that are stored and loaded again

An instruction stores V0 to Vx, or the three decimal digits of a register, in the block at the index
register, and another one loads a block into the registers. What was stored is loaded again for as
long as nothing was written over it.

`written?` is the block that an operation writes, and `Spares` says of some operations that none of
them writes a cell of a given block; whatever else they do, the cells are as they were
(`Spares.cell_after`). With one lemma for each store and one for the load, `stores_are_loaded` says
what a load finds in a block that was stored and spared.
-/

namespace ChipEight

namespace Machine

/-! ## Operations that spare a block -/

/-- The address and the length of the block that an operation writes: a program that is loaded, or
what an instruction stores. -/
def written? (m : Machine) : Operation → Option (Int × Nat)
  | .step => ((m.obeyed? .step).bind Instruction.stored?).map fun length => (m.registers.i, length)
  | .load image =>
    match m.load image with
    | .ok _ => some (programStart, image.length)
    | .error _ => none
  | _ => none

/-- No operation writes one of the `count` cells from an address on. -/
def Spares (address : Int) (count : Nat) : Machine → List Operation → Prop
  | _, [] => True
  | m, operation :: rest =>
    (∀ block ∈ m.written? operation, ∀ k < count,
        address + (k : Int) < block.1 ∨ block.1 + block.2 ≤ address + (k : Int)) ∧
      Spares address count (operation.apply m).2 rest

instance decidableSpares (address : Int) (count : Nat) (m : Machine) :
    (operations : List Operation) → Decidable (Spares address count m operations)
  | [] => inferInstanceAs (Decidable True)
  | operation :: rest =>
    have := decidableSpares address count (operation.apply m).2 rest
    inferInstanceAs (Decidable (_ ∧ _))

/-- Operations lead from a machine to a load of V0 to Vy from an address, and spare the `count`
cells from there on. -/
structure ReachesLoad (m : Machine) (address : Int) (count : Nat) (y : Fin 16)
    (operations : List Operation) : Prop where
  spares : m.Spares address count operations
  about : (m.after operations).AboutTo (.loadRegisters y)
  index : (m.after operations).registers.i = address

variable {m : Machine} {x y : Fin 16} {address : Int} {count : Nat} {operations : List Operation}

/-- An operation leaves a cell as it is that it does not write. -/
theorem cell_apply (m : Machine) (operation : Operation) {k : Nat}
    (spared : ∀ block ∈ m.written? operation, (k : Int) < block.1 ∨ block.1 + block.2 ≤ k) :
    (operation.apply m).2.memory.cell k = m.memory.cell k := by
  cases operation with
  | step =>
    rw [Operation.apply_step]
    cases clear : m.fault? with
    | some e => rfl
    | none =>
      obtain ⟨i, read, met, changed⟩ := instruction_of_fault? clear
      have kept : m.next.memory = m.memoryAfter i := by rw [changed, change_eq]
      refine Decidable.byContradiction fun different => ?_
      dsimp only at different
      rw [kept] at different
      obtain ⟨length, stores, start, stop⟩ := cell_memoryAfter met different
      have writes : m.written? .step = some (m.registers.i, length) := by
        rw [written?, obeyed?_step clear read, Option.bind_some, stores, Option.map_some]
      have outside := spared _ writes
      dsimp only at outside
      omega
  | load image =>
    rw [Operation.apply_load]
    cases clear : m.memory.writeFault? programStart image.length with
    | some e => rfl
    | none =>
      have writes : m.written? (.load image) = some (programStart, image.length) := by
        simp only [written?, Machine.load, Memory.load, Memory.writeBytes_eq_raiseOr, clear]
        rfl
      have outside := spared _ writes
      exact Memory.cell_withBlock_outside (by dsimp only [programStart] at outside ⊢; omega)
  | _ => rw [m.memory_apply (by simp) (by simp [obeyed?])]

/-- **A block stays as it is** for as long as the operations spare it. -/
theorem Spares.cell_after (start : 0 ≤ address) (spares : m.Spares address count operations)
    {k : Nat} (among : k < count) :
    (m.after operations).memory.cell (address.toNat + k) =
      m.memory.cell (address.toNat + k) := by
  induction operations generalizing m with
  | nil => rfl
  | cons operation rest ih =>
    obtain ⟨first, others⟩ := spares
    have here : (operation.apply m).2.memory.cell (address.toNat + k) =
        m.memory.cell (address.toNat + k) := by
      refine m.cell_apply operation fun block writes => ?_
      have outside := first block writes k among
      omega
    exact (ih others).trans here

/-! ## Stores and loads -/

/-- The index register after an instruction that meets no fault. -/
theorem AboutTo.index_change {i : Instruction} (wf : m.WellFormed) (about : m.AboutTo i)
    (met : m.objection i = none) : (m.change i).registers.i = (m.steer i).index := by
  obtain ⟨clear, -⟩ := step_eq_ok_iff.mp (about.step met)
  obtain ⟨low, high⟩ := pc_of_fault? wf.size clear
  exact congrArg Control.index (control_change wf.size low high met)

/-- Cells of a block at the index register that was written. -/
theorem WellFormed.cell_withBlock (wf : m.WellFormed) (bytes : List UInt8)
    (stop : m.registers.i + bytes.length ≤ memorySize) {k : Nat} (among : k < bytes.length) :
    (m.memory.withBlock m.registers.i bytes).cell (m.registers.i.toNat + k) = bytes[k] := by
  have start := wf.index
  have size := wf.size
  exact Memory.cell_withBlock_inside (by omega) among

/-- **Storing registers** puts them into the cells from the index register on, and moves the index
register past them. -/
theorem step_storeRegisters (wf : m.WellFormed) (about : m.AboutTo (.storeRegisters x))
    (stop : m.registers.i + (x.val + 1 : Nat) ≤ memorySize) :
    ∃ m', step.run m = .ok () m' ∧ m'.registers.i = m.registers.i + (x.val + 1) ∧
      ∀ r ≤ x, m'.memory.cell (m.registers.i.toNat + r.val) = m.v r := by
  have met : m.objection (.storeRegisters x) = none := wf.writeFault?_eq_none stop
  refine ⟨_, about.step met, about.index_change wf met, fun r early => ?_⟩
  have among : r.val < (m.lowRegisters x).length := by
    rw [length_lowRegisters]
    omega
  have read : (m.lowRegisters x)[r.val] = m.v r := by
    simp only [lowRegisters, List.getElem_take, Vector.getElem_toList]
    rfl
  exact (wf.cell_withBlock _ ((m.length_lowRegisters x).symm ▸ stop) among).trans read

/-- **Storing decimal digits** puts the three digits of a register into the cells from the index
register on. -/
theorem step_storeDecimal (wf : m.WellFormed) (about : m.AboutTo (.storeDecimal x))
    (stop : m.registers.i + (3 : Nat) ≤ memorySize) :
    ∃ m', step.run m = .ok () m' ∧ ∀ k (among : k < 3),
      m'.memory.cell (m.registers.i.toNat + k) = (decimalDigits (m.v x))[k] := by
  have met : m.objection (.storeDecimal x) = none := wf.writeFault?_eq_none stop
  exact ⟨_, about.step met, fun k among => wf.cell_withBlock (decimalDigits (m.v x)) stop among⟩

/-- A byte in three decimal digits. -/
theorem decimalDigits_eq (value : UInt8) :
    ∃ a b c, decimalDigits value = [a, b, c] ∧ a ≤ 9 ∧ b ≤ 9 ∧ c ≤ 9 ∧
      100 * a.toNat + 10 * b.toNat + c.toNat = value.toNat := by
  have small := value.toNat_lt
  refine ⟨_, _, _, rfl, ?_⟩
  simp only [UInt8.le_iff_toNat_le, UInt8.toNat_div, UInt8.toNat_mod, UInt8.reduceToNat]
  omega

/-- **Loading registers** takes them from the cells from the index register on, moves the index
register past these and leaves the other registers alone. -/
theorem step_loadRegisters (wf : m.WellFormed) (about : m.AboutTo (.loadRegisters y))
    (stop : m.registers.i + (y.val + 1 : Nat) ≤ memorySize) :
    ∃ m', step.run m = .ok () m' ∧ m'.registers.i = m.registers.i + (y.val + 1) ∧
      (∀ r ≤ y, m'.v r = m.memory.cell (m.registers.i.toNat + r.val)) ∧
      ∀ r, y < r → m'.v r = m.v r := by
  have covers : m.memory.Covers m.registers.i (y.val + 1 : Nat) :=
    ⟨wf.index, Int.natCast_nonneg _, wf.size ▸ stop⟩
  have met : m.objection (.loadRegisters y) = none := Memory.outside?_eq_none_iff.mpr covers
  refine ⟨_, about.step met, about.index_change wf met, fun r early => ?_, fun r late => ?_⟩
  · exact (v_loadRegisters m y r covers).trans (if_pos early)
  · exact (v_loadRegisters m y r covers).trans (if_neg (Fin.not_le.mpr late))

/-- A load from a block that was spared finds what was in the block before. -/
theorem ReachesLoad.loads (reaches : m.ReachesLoad address count y operations)
    (wf : (m.after operations).WellFormed) (fits : y.val + 1 ≤ count)
    (stop : address + count ≤ memorySize) :
    ∃ m', step.run (m.after operations) = .ok () m' ∧ m'.registers.i = address + (y.val + 1) ∧
      (∀ r ≤ y, m'.v r = m.memory.cell (address.toNat + r.val)) ∧
      ∀ r, y < r → m'.v r = (m.after operations).v r := by
  obtain ⟨spares, about, rfl⟩ := reaches
  obtain ⟨m', stepped, index, loaded, kept⟩ := step_loadRegisters wf about (by omega)
  refine ⟨m', stepped, index, fun r early => ?_, kept⟩
  have among : r.val < count := by omega
  rw [loaded r early, spares.cell_after wf.index among]

/-- **What was stored is loaded again.** A reachable machine is about to store V0 to Vx in a block
that lies in the memory. It does so and moves the index register past the block. If any operations
that spare the block lead to a load of V0 to Vy from the same address, where y is at most x, then
these registers are what they were at the store, the others stay as they are, and the index register
moves past the cells that were loaded. In the same way, a load of V0 to V2 after a store of the
decimal digits of Vx yields three digits of that value. -/
theorem stores_are_loaded (reached : m.Reachable) (x : Fin 16) :
    (m.AboutTo (.storeRegisters x) → m.registers.i + (x.val + 1) ≤ memorySize →
      ∃ m₁, step.run m = .ok () m₁ ∧ m₁.registers.i = m.registers.i + (x.val + 1) ∧
        ∀ operations, ∀ y ≤ x, m₁.ReachesLoad m.registers.i (x.val + 1) y operations →
          ∃ m₂, step.run (m₁.after operations) = .ok () m₂ ∧
            m₂.registers.i = m.registers.i + (y.val + 1) ∧ (∀ r ≤ y, m₂.v r = m.v r) ∧
            ∀ r, y < r → m₂.v r = (m₁.after operations).v r) ∧
    (m.AboutTo (.storeDecimal x) → m.registers.i + 3 ≤ memorySize →
      ∃ m₁, step.run m = .ok () m₁ ∧
        ∀ operations, m₁.ReachesLoad m.registers.i 3 2 operations →
          ∃ m₂, step.run (m₁.after operations) = .ok () m₂ ∧
            m₂.v 0 ≤ 9 ∧ m₂.v 1 ≤ 9 ∧ m₂.v 2 ≤ 9 ∧
            100 * (m₂.v 0).toNat + 10 * (m₂.v 1).toNat + (m₂.v 2).toNat = (m.v x).toNat) := by
  have later {m₁ : Machine} (stepped : step.run m = .ok () m₁) (operations : List Operation) :
      (m₁.after operations).WellFormed :=
    ((reached.step stepped).after operations).wellFormed
  constructor
  · intro about stop
    obtain ⟨m₁, stepped, index, stored⟩ := step_storeRegisters reached.wellFormed about stop
    refine ⟨m₁, stepped, index, fun operations y below reaches => ?_⟩
    obtain ⟨m₂, stepped', index', loaded, kept⟩ :=
      reaches.loads (later stepped operations) (by omega) stop
    refine ⟨m₂, stepped', index', fun r early => ?_, kept⟩
    rw [loaded r early, stored r (Fin.le_trans early below)]
  · intro about stop
    obtain ⟨m₁, stepped, stored⟩ := step_storeDecimal reached.wellFormed about stop
    obtain ⟨a, b, c, digits, bounds⟩ := decimalDigits_eq (m.v x)
    simp only [digits] at stored
    refine ⟨m₁, stepped, fun operations reaches => ?_⟩
    obtain ⟨m₂, stepped', -, loaded, -⟩ :=
      reaches.loads (later stepped operations) (by decide) stop
    have hundreds : m₂.v 0 = a := (loaded 0 (by decide)).trans (stored 0 (by decide))
    have tens : m₂.v 1 = b := (loaded 1 (by decide)).trans (stored 1 (by decide))
    have ones : m₂.v 2 = c := (loaded 2 (by decide)).trans (stored 2 (by decide))
    refine ⟨m₂, stepped', ?_⟩
    rw [hundreds, tens, ones]
    exact bounds

/-- Digits at 0x303 and registers right before them, both loaded again. -/
def exchange : List UInt8 :=
  [0x61, 0xFE, 0xA3, 0x03, 0xF1, 0x33, 0xA3, 0x00, 0xF2, 0x55, 0xF2, 0x65, 0xA3, 0x00, 0xF1, 0x65]

/-- The digits of 254 are loaded after a store to the cells before them, and V1 after its value was
replaced by a digit. -/
theorem stores_are_loaded_exchange :
    let m := (powerOn (some 16) (.cycling #[])).after [.load exchange, .step, .step]
    let m' := m.after [.step, .step]
    (m.Reachable ∧ m.AboutTo (.storeDecimal 1) ∧ ∃ m₁, step.run m = .ok () m₁ ∧
      m₁.ReachesLoad 0x303 3 2 [.step, .tick, .step] ∧
      ∃ m₂, step.run (m₁.after [.step, .tick, .step]) = .ok () m₂ ∧
        100 * (m₂.v 0).toNat + 10 * (m₂.v 1).toNat + (m₂.v 2).toNat = 254) ∧
    (m'.Reachable ∧ m'.AboutTo (.storeRegisters 2) ∧ ∃ m₁, step.run m' = .ok () m₁ ∧
      m₁.ReachesLoad 0x300 3 1 [.step, .press 3, .step] ∧
      ∃ m₂, step.run (m₁.after [.step, .press 3, .step]) = .ok () m₂ ∧ m₂.v 1 = 0xFE) := by
  intro m m'
  have reached : m.Reachable := ⟨some 16, .cycling #[], _, _, rfl, rfl⟩
  have reached' : m'.Reachable := reached.after [.step, .step]
  constructor
  · obtain ⟨fetched, index, value, spares, fetched', index'⟩ :
        (m.fetchFault? = none ∧ m.word = 0xF133) ∧ m.registers.i = 0x303 ∧ (m.v 1).toNat = 254 ∧
          m.next.Spares 0x303 3 [.step, .tick, .step] ∧
          ((m.next.after [.step, .tick, .step]).fetchFault? = none ∧
            (m.next.after [.step, .tick, .step]).word = 0xF265) ∧
          (m.next.after [.step, .tick, .step]).registers.i = 0x303 := by decide +kernel
    have about : m.AboutTo (.storeDecimal 1) := ⟨_, fetch_eq_ok_iff.mpr fetched, rfl, rfl, rfl⟩
    have reaches : m.next.ReachesLoad 0x303 3 2 [.step, .tick, .step] :=
      ⟨spares, ⟨_, fetch_eq_ok_iff.mpr fetched', rfl, rfl, rfl⟩, index'⟩
    have stop : m.registers.i + 3 ≤ memorySize := index ▸ by decide
    obtain ⟨m₁, stepped, loads⟩ := (stores_are_loaded reached 1).2 about stop
    obtain ⟨-, rfl⟩ := step_eq_ok_iff.mp stepped
    obtain ⟨m₂, stepped', -, -, -, digits⟩ := loads _ (index ▸ reaches)
    exact ⟨reached, about, _, stepped, reaches, m₂, stepped', digits.trans value⟩
  · obtain ⟨fetched, index, value, spares, fetched', index'⟩ :
        (m'.fetchFault? = none ∧ m'.word = 0xF255) ∧ m'.registers.i = 0x300 ∧ m'.v 1 = 0xFE ∧
          m'.next.Spares 0x300 3 [.step, .press 3, .step] ∧
          ((m'.next.after [.step, .press 3, .step]).fetchFault? = none ∧
            (m'.next.after [.step, .press 3, .step]).word = 0xF165) ∧
          (m'.next.after [.step, .press 3, .step]).registers.i = 0x300 := by decide +kernel
    have about : m'.AboutTo (.storeRegisters 2) := ⟨_, fetch_eq_ok_iff.mpr fetched, rfl, rfl, rfl⟩
    have reaches : m'.next.ReachesLoad 0x300 3 1 [.step, .press 3, .step] :=
      ⟨spares, ⟨_, fetch_eq_ok_iff.mpr fetched', rfl, rfl, rfl⟩, index'⟩
    have stop : m'.registers.i + ((2 : Fin 16).val + 1) ≤ memorySize := index ▸ by decide
    obtain ⟨m₁, stepped, -, loads⟩ := (stores_are_loaded reached' 2).1 about stop
    obtain ⟨-, rfl⟩ := step_eq_ok_iff.mp stepped
    obtain ⟨m₂, stepped', -, loaded, -⟩ := loads _ 1 (by decide) (index ▸ reaches)
    exact ⟨reached', about, _, stepped, reaches, m₂, stepped',
      (loaded 1 (by decide)).trans value⟩

end Machine

end ChipEight
