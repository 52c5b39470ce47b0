import ChipEight.Proofs.Machine.Cells
import ChipEight.Proofs.Machine.Step

/-!
# The general registers after a change

A write to a general register is found in that register and leaves the others alone. From this
follow the registers after an arithmetic instruction, where the flag is written over the result, and
after a block of cells was loaded.

The registers may also be reached by an index from outside (`Registers.read`, `Registers.write`).
Every register has two of these, one counted from the end (`Registers.register?_eq_some_iff`), and
what is written by an index is read by either of them (`Registers.read_of_write`).
-/

namespace ChipEight

namespace Registers

variable {r r' : Registers} {index value : Int} {x : Fin 16}

/-- A register has its number for an index, and the one that is counted from the end. -/
theorem register?_eq_some_iff : register? index = some x ↔ index = x.val ∨ index = x.val - 16 := by
  unfold register?
  split
  case isTrue within =>
    rw [Option.some.injEq, Fin.ext_iff]
    dsimp only
    omega
  case isFalse outside =>
    split
    case isTrue within =>
      rw [Option.some.injEq, Fin.ext_iff]
      dsimp only
      omega
    case isFalse => exact iff_of_false nofun (by omega)

theorem register?_eq_none_iff : register? index = none ↔ index < -16 ∨ 16 ≤ index := by
  unfold register?
  split
  case isTrue => exact iff_of_false nofun (by omega)
  case isFalse =>
    split
    case isTrue => exact iff_of_false nofun (by omega)
    case isFalse => exact iff_of_true rfl (by omega)

/-- **A read by an index** answers a register, and fails if no register has the index. -/
theorem read_cases (r : Registers) (index : Int) :
    (∃ x : Fin 16, (index = x.val ∨ index = x.val - 16) ∧ r.read index = .ok (r.v.get x)) ∨
      (index < -16 ∨ 16 ≤ index) ∧ r.read index = .error (.noSuchRegister index) := by
  unfold read
  cases found : register? index with
  | some x => exact .inl ⟨x, register?_eq_some_iff.mp found, rfl⟩
  | none => exact .inr ⟨register?_eq_none_iff.mp found, rfl⟩

/-- **A write by an index** changes a register to the lowest eight bits of the value, and fails if no
register has the index. -/
theorem write_cases (r : Registers) (index value : Int) :
    (∃ x : Fin 16, (index = x.val ∨ index = x.val - 16) ∧
      r.write index value = .ok (r.withV x (lowByte value))) ∨
      (index < -16 ∨ 16 ≤ index) ∧ r.write index value = .error (.noSuchRegister index) := by
  unfold write
  cases found : register? index with
  | some x => exact .inl ⟨x, register?_eq_some_iff.mp found, rfl⟩
  | none => exact .inr ⟨register?_eq_none_iff.mp found, rfl⟩

theorem get_withV (r : Registers) (x y : Fin 16) (byte : UInt8) :
    (r.withV x byte).v.get y = if x = y then byte else r.v.get y := by
  have set : (r.v.set x.val byte (digit_lt x)).get y = if x.val = y.val then byte else r.v.get y :=
    Vector.getElem_set (digit_lt x) (digit_lt y)
  simp only [Fin.val_inj] at set
  exact set

/-- **What is written by an index is read by every index of that register**, and the other registers
keep what they hold. -/
theorem read_of_write (written : r.write index value = .ok r') (other : Int) :
    r'.read other =
      if register? other = register? index then .ok (lowByte value) else r.read other := by
  unfold write at written
  unfold read
  cases found : register? index with
  | none =>
    rw [found] at written
    cases written
  | some x =>
    rw [found] at written
    cases written
    cases sought : register? other with
    | none => rw [if_neg nofun]
    | some y =>
      dsimp only
      rw [get_withV]
      by_cases same : x = y
      · rw [if_pos same, if_pos (congrArg some same.symm)]
      · rw [if_neg same, if_neg fun equal => same (Option.some.inj equal).symm]

end Registers

namespace Machine

variable (m : Machine) (x y r : Fin 16)

@[simp] theorem v_withV (value : UInt8) :
    (m.withV x value).v r = if x = r then value else m.v r :=
  m.registers.get_withV x r value

/-- The registers of the instructions are those of the numbers 0 to 15. -/
theorem read_registers : m.registers.read x.val = .ok (m.v x) := by
  rw [Registers.read, Registers.register?_eq_some_iff.mpr (.inl rfl)]
  rfl

/-- What an instruction writes is what is written by the number of the register. -/
theorem write_registers (value : Int) :
    m.registers.write x.val value = .ok (m.withV x (lowByte value)).registers := by
  rw [Registers.write, Registers.register?_eq_some_iff.mpr (.inl rfl)]
  rfl

@[simp] theorem v_advance (words : Int) : (m.advance words).v r = m.v r := rfl

@[simp] theorem v_withFlag (flag : Bool) :
    (m.withFlag flag).v r = if flagRegister = r then flagValue flag else m.v r :=
  m.v_withV flagRegister r (flagValue flag)

/-- **The registers after an arithmetic instruction**: the flag comes last, so it is what VF holds
where both are written to it. -/
theorem v_compute (operation : Arithmetic) :
    (m.compute operation x y).v r =
      match operation.flag? (m.v x) (m.v y) with
      | some flag =>
        if flagRegister = r then flagValue flag
        else if x = r then operation.result (m.v x) (m.v y)
        else m.v r
      | none => if x = r then operation.result (m.v x) (m.v y) else m.v r := by
  unfold compute
  dsimp only
  cases operation.flag? (m.v x) (m.v y) with
  | none => exact m.v_withV x r _
  | some flag => rw [v_withFlag, v_withV]

/-- The registers from number `start` on hold the values that were written to them, as far as these
go. -/
theorem v_withLowRegisters {start : Nat} {values : List UInt8}
    (fits : start + values.length ≤ 16) :
    (m.withLowRegisters start values).v r =
      if start ≤ r.val then values.getD (r.val - start) (m.v r) else m.v r := by
  induction values generalizing m start with
  | nil => simp [withLowRegisters]
  | cons value rest ih =>
    rw [List.length_cons] at fits
    have first : (Fin.ofNat 16 start).val = start := Nat.mod_eq_of_lt (by omega)
    have other (different : r.val ≠ start) : (m.withV (Fin.ofNat 16 start) value).v r = m.v r := by
      have unlike : Fin.ofNat 16 start ≠ r := fun same => different (same ▸ first)
      rw [v_withV, if_neg unlike]
    rw [withLowRegisters, ih _ (by omega)]
    rcases Nat.lt_trichotomy r.val start with before | here | after
    · rw [if_neg (by omega), if_neg (by omega), other (by omega)]
    · have same : Fin.ofNat 16 start = r := Fin.ext (first.trans here.symm)
      rw [if_neg (by omega), if_pos (by omega), v_withV, if_pos same, here, Nat.sub_self,
        List.getD_cons_zero]
    · have offset : r.val - start = r.val - (start + 1) + 1 := by omega
      rw [if_pos (by omega), if_pos (by omega), other (by omega), offset, List.getD_cons_succ]

/-- **The registers after a block was loaded**: those up to Vx hold the cells from the index
register on. -/
theorem v_loadRegisters (covers : m.memory.Covers m.registers.i (x.val + 1 : Nat)) :
    (m.change (.loadRegisters x)).v r =
      if r ≤ x then m.memory.cell (m.registers.i.toNat + r.val) else m.v r := by
  have moved : (m.change (.loadRegisters x)).v r =
      (m.withLowRegisters 0 (m.memory.block m.registers.i (x.val + 1 : Nat))).v r := rfl
  have fits : 0 + (m.memory.block m.registers.i (x.val + 1 : Nat)).length ≤ 16 := by
    rw [Memory.length_block covers]
    omega
  rw [moved, v_withLowRegisters _ _ fits, if_pos (Nat.zero_le _), Nat.sub_zero,
    List.getD_eq_getElem?_getD, Memory.getElem?_block covers]
  by_cases early : r ≤ x
  · rw [if_pos early, if_pos (Nat.lt_succ_of_le early), Option.getD_some]
  · rw [if_neg early, if_neg (mt Nat.le_of_lt_succ early), Option.getD_none]

end Machine

end ChipEight
