import ChipEight.Proofs.Machine.Control
import ChipEight.Proofs.Machine.Faults
import ChipEight.Proofs.Machine.GeneralRegisters

/-!
# The arithmetic of a step

An arithmetic word combines the values of two registers into a result for the first of them, and
some words set the flag in VF as well. `Opcode.outcome?` is the table of these words in plain
numbers, by their digits.

Two writes to VF meet where it is the destination, and the last one stays. A word that adds or
subtracts writes its flag last, a shift its result. `arithmetic_of_step` says what a step on a word
of the table leaves in every register, whichever registers the word names: the values that count are
those from before the step, and the destination, the second operand and the flag may be one.
-/

namespace ChipEight

namespace Opcode

/-- What an arithmetic word makes of two values, and which write comes last if there are two. -/
inductive Outcome where
  | plain (result : Nat)
  | flagLast (result flag : Nat)
  | resultLast (result flag : Nat)
deriving DecidableEq, Repr

namespace Outcome

def result : Outcome → Nat
  | plain result | flagLast result _ | resultLast result _ => result

def flag? : Outcome → Option Nat
  | plain _ => none
  | flagLast _ flag | resultLast _ flag => some flag

/-- What VF holds in the end where it is the destination. -/
def shared : Outcome → Nat
  | plain result | resultLast result _ => result
  | flagLast _ flag => flag

/-- The registers `v'` are the registers `v` with an outcome written to them, where Vx is the
destination. -/
structure Holds (outcome : Outcome) (x : Fin 16) (v v' : Fin 16 → UInt8) : Prop where
  destination : x ≠ flagRegister → (v' x).toNat = outcome.result
  flag : x ≠ flagRegister → (v' flagRegister).toNat = outcome.flag?.getD (v flagRegister).toNat
  shared : x = flagRegister → (v' flagRegister).toNat = outcome.shared
  others : ∀ r, r ≠ x → r ≠ flagRegister → v' r = v r

variable {x : Fin 16} {v v' : Fin 16 → UInt8} {value flag : UInt8}

theorem Holds.plain (written : ∀ r, v' r = if x = r then value else v r) :
    (plain value.toNat).Holds x v v' where
  destination _ := by rw [written, if_pos rfl, Outcome.result]
  flag other := by
    rw [written, if_neg other]
    rfl
  shared same := by rw [written, if_pos same, Outcome.shared]
  others r other _ := by rw [written, if_neg (Ne.symm other)]

theorem Holds.flagLast
    (written : ∀ r, v' r = if flagRegister = r then flag else if x = r then value else v r) :
    (flagLast value.toNat flag.toNat).Holds x v v' where
  destination other := by rw [written, if_neg (Ne.symm other), if_pos rfl, Outcome.result]
  flag _ := by
    rw [written, if_pos rfl]
    rfl
  shared _ := by rw [written, if_pos rfl, Outcome.shared]
  others r other unflagged := by
    rw [written, if_neg (Ne.symm unflagged), if_neg (Ne.symm other)]

theorem Holds.resultLast
    (written : ∀ r, v' r = if x = r then value else if flagRegister = r then flag else v r) :
    (resultLast value.toNat flag.toNat).Holds x v v' where
  destination _ := by rw [written, if_pos rfl, Outcome.result]
  flag other := by
    rw [written, if_neg other, if_pos rfl]
    rfl
  shared same := by rw [written, if_pos same, Outcome.shared]
  others r other unflagged := by
    rw [written, if_neg (Ne.symm other), if_neg (Ne.symm unflagged)]

end Outcome

/-- The outcome of an arithmetic word where `a` is the value of Vx and `b` that of Vy. -/
def outcome? (w : Opcode) (a b : Nat) : Option Outcome :=
  match w.family, w.n.val with
  | 0x7, _ => some (.plain ((a + w.nn.toNat) % 256))
  | 0x8, 0x0 => some (.plain b)
  | 0x8, 0x1 => some (.plain (a ||| b))
  | 0x8, 0x2 => some (.plain (a &&& b))
  | 0x8, 0x3 => some (.plain (a ^^^ b))
  | 0x8, 0x4 => some (.flagLast ((a + b) % 256) (if a + b > 255 then 1 else 0))
  | 0x8, 0x5 => some (.flagLast (((a : Int) - b) % 256).toNat (if a > b then 1 else 0))
  | 0x8, 0x6 => some (.resultLast (a / 2) (a % 2))
  | 0x8, 0x7 => some (.flagLast (((b : Int) - a) % 256).toNat (if b > a then 1 else 0))
  | 0x8, 0xE => some (.resultLast (2 * a % 256) (a / 128))
  | _, _ => none

end Opcode

/-! ## The table -/

/-- The outcome of a register-to-register instruction, from its result and its flag as bytes. -/
def Arithmetic.outcome (operation : Arithmetic) (a b : UInt8) : Opcode.Outcome :=
  match operation.flag? a b with
  | none => .plain (operation.result a b).toNat
  | some flag => .flagLast (operation.result a b).toNat (Machine.flagValue flag).toNat

namespace Instruction

variable {w : Opcode} {x y : Fin 16}

/-- A difference of bytes in plain integers. -/
theorem toNat_sub_byte (a b : UInt8) :
    (a - b).toNat = (((a.toNat : Int) - b.toNat) % 256).toNat := by
  have left := a.toNat_lt
  have right := b.toNat_lt
  rw [UInt8.toNat_sub]
  omega

theorem toNat_flagValue (flag : Prop) [Decidable flag] :
    (Machine.flagValue (decide flag)).toNat = if flag then 1 else 0 := by
  by_cases flag <;> simp [Machine.flagValue, *]

theorem outcome?_addByte {value : UInt8} (spells : (addByte x value).Spells w) (a : UInt8)
    (b : Nat) : w.outcome? a.toNat b = some (.plain (a + value).toNat) := by
  obtain ⟨family, -, rfl⟩ := spells
  simp only [Opcode.outcome?, family, UInt8.toNat_add, Nat.reducePow]

theorem outcome?_arithmetic {operation : Arithmetic} (spells : (arithmetic operation x y).Spells w)
    (a b : UInt8) : w.outcome? a.toNat b.toNat = some (operation.outcome a b) := by
  obtain ⟨family, digit, -, -⟩ := spells
  simp only [Opcode.outcome?, family, digit]
  cases operation with
  | copy | bitOr | bitAnd | bitXor => rfl
  | sum =>
    simp only [Arithmetic.outcome, Arithmetic.flag?, Arithmetic.result, toNat_flagValue,
      UInt8.toNat_add]
    rfl
  | difference | reverseDifference =>
    simp only [Arithmetic.outcome, Arithmetic.flag?, Arithmetic.result, toNat_flagValue,
      toNat_sub_byte, UInt8.lt_iff_toNat_lt]
    rfl

theorem outcome?_shiftRight (spells : (shiftRight x).Spells w) (a : UInt8) (b : Nat) :
    w.outcome? a.toNat b = some (.resultLast (a / 2).toNat (a % 2).toNat) := by
  obtain ⟨family, digit, -⟩ := spells
  simp only [Opcode.outcome?, family, digit]
  rfl

theorem outcome?_shiftLeft (spells : (shiftLeft x).Spells w) (a : UInt8) (b : Nat) :
    w.outcome? a.toNat b = some (.resultLast (a + a).toNat (a / 128).toNat) := by
  obtain ⟨family, digit, -⟩ := spells
  have doubled : (a + a).toNat = 2 * a.toNat % 256 := by
    rw [UInt8.toNat_add, ← Nat.two_mul]
  simp only [Opcode.outcome?, family, digit, doubled]
  rfl

/-- The words of the table spell the instructions that compute. -/
theorem spelled_of_outcome? {a b : Nat} {outcome : Opcode.Outcome}
    (listed : w.outcome? a b = some outcome) :
    (addByte w.x w.nn).Spells w ∨ (∃ operation, (arithmetic operation w.x w.y).Spells w) ∨
      (shiftRight w.x).Spells w ∨ (shiftLeft w.x).Spells w := by
  have arithmetic (operation : Arithmetic) (family : w.family = 0x8)
      (digit : w.n.val = operation.digit.val) : (arithmetic operation w.x w.y).Spells w :=
    ⟨family, Fin.ext digit, rfl, rfl⟩
  unfold Opcode.outcome? at listed
  split at listed
  case h_1 family => exact .inl ⟨family, rfl, rfl⟩
  case h_2 family digit => exact .inr (.inl ⟨.copy, arithmetic _ family digit⟩)
  case h_3 family digit => exact .inr (.inl ⟨.bitOr, arithmetic _ family digit⟩)
  case h_4 family digit => exact .inr (.inl ⟨.bitAnd, arithmetic _ family digit⟩)
  case h_5 family digit => exact .inr (.inl ⟨.bitXor, arithmetic _ family digit⟩)
  case h_6 family digit => exact .inr (.inl ⟨.sum, arithmetic _ family digit⟩)
  case h_7 family digit => exact .inr (.inl ⟨.difference, arithmetic _ family digit⟩)
  case h_8 family digit => exact .inr (.inr (.inl ⟨family, Fin.ext digit, rfl⟩))
  case h_9 family digit => exact .inr (.inl ⟨.reverseDifference, arithmetic _ family digit⟩)
  case h_10 family digit => exact .inr (.inr (.inr ⟨family, Fin.ext digit, rfl⟩))
  case h_11 => cases listed

end Instruction

/-! ## A step -/

namespace Machine

variable {m : Machine} {x y : Fin 16} {w : Opcode}

theorem holds_addByte (value : UInt8) :
    (Opcode.Outcome.plain (m.v x + value).toNat).Holds x m.v (m.change (.addByte x value)).v :=
  .plain fun r => m.v_withV x r _

/-- The flag of a register-to-register instruction is written after its result. -/
theorem holds_arithmetic (operation : Arithmetic) :
    (operation.outcome (m.v x) (m.v y)).Holds x m.v (m.change (.arithmetic operation x y)).v := by
  have computed (r : Fin 16) := m.v_compute x y r operation
  unfold Arithmetic.outcome
  cases flag : operation.flag? (m.v x) (m.v y) with
  | none =>
    simp only [flag] at computed
    exact .plain computed
  | some flag' =>
    simp only [flag] at computed
    exact .flagLast computed

/-- The result of a shift is written after its flag. -/
theorem holds_shift (value flag : UInt8) :
    (Opcode.Outcome.resultLast value.toNat flag.toNat).Holds x m.v
      (((m.withV flagRegister flag).withV x value).advance 1).v :=
  .resultLast fun r => by rw [v_advance, v_withV, v_withV]

/-- A machine after a step that changed nothing but general registers: it is past the word, and the
step is counted. -/
def computed (m : Machine) (v : Vector UInt8 16) : Machine :=
  { m with
    registers := { v := v, i := m.registers.i, pc := m.registers.pc + 2 }
    executed := m.executed + 1 }

/-- An instruction that computes is carried out. -/
theorem step_of_computing {i : Instruction} {v : Vector UInt8 16} (wf : m.WellFormed)
    (about : m.AboutTo i) (met : m.objection i = none)
    (computing : m.change i = { m with registers := { m.registers with v := v } }.advance 1) :
    step.run m = .ok () (m.computed v) := by
  have stepped := about.step met
  obtain ⟨low, high⟩ := pc_of_fault? wf.size (step_eq_ok_iff.mp stepped).1
  have onward := advance_eq (m := { m with registers := { m.registers with v := v } }) low high
    (by decide : 0 ≤ (1 : Int)) (by decide)
  rw [stepped, computing, onward]
  rfl

/-- **The arithmetic of a step.** A well-formed machine that is about to carry out an arithmetic
word does so. Where the destination is not VF, it holds the result and VF the flag, or what VF held
before if the word sets no flag; where it is VF, it holds what is written last. All other registers
and the rest of the machine stay as they are, but for the program counter, which is two further on,
and the count. -/
theorem arithmetic_of_step (wf : m.WellFormed) (here : fetch.run m = .ok w m)
    {outcome : Opcode.Outcome}
    (listed : w.outcome? (m.v w.x).toNat (m.v w.y).toNat = some outcome) :
    ∃ v, step.run m = .ok () (m.computed v) ∧ outcome.Holds w.x m.v v.get := by
  rcases Instruction.spelled_of_outcome? listed with add | ⟨operation, combine⟩ | right | left
  · rw [Instruction.outcome?_addByte add, Option.some.injEq] at listed
    subst listed
    exact ⟨_, step_of_computing wf ⟨w, here, add⟩ rfl rfl, holds_addByte w.nn⟩
  · rw [Instruction.outcome?_arithmetic combine, Option.some.injEq] at listed
    subst listed
    have computing := congrArg (fun m' => m'.advance 1) (m.compute_eq operation w.x w.y)
    exact ⟨_, step_of_computing wf ⟨w, here, combine⟩ rfl computing, holds_arithmetic operation⟩
  · rw [Instruction.outcome?_shiftRight right, Option.some.injEq] at listed
    subst listed
    exact ⟨_, step_of_computing wf ⟨w, here, right⟩ rfl rfl, holds_shift _ _⟩
  · rw [Instruction.outcome?_shiftLeft left, Option.some.injEq] at listed
    subst listed
    exact ⟨_, step_of_computing wf ⟨w, here, left⟩ rfl rfl, holds_shift _ _⟩

/-- A sum of VF with itself that carries leaves the flag in VF, and not the sum. -/
theorem arithmetic_of_step_flag :
    let m := (loaded [0x8F, 0xF4]).withV flagRegister 0x80
    m.WellFormed ∧ fetch.run m = .ok 0x8FF4 m ∧
      Opcode.outcome? 0x8FF4 0x80 0x80 = some (.flagLast 0 1) ∧
      ∃ v, step.run m = .ok () (m.computed v) ∧ (v.get flagRegister).toNat = 1 := by
  intro m
  have wf : m.WellFormed := { loaded_wellFormed [0x8F, 0xF4] with }
  have here : fetch.run m = .ok 0x8FF4 m := fetch_eq_ok_iff.mpr (by decide +kernel)
  have listed : Opcode.outcome? 0x8FF4 0x80 0x80 = some (.flagLast 0 1) := by decide
  obtain ⟨v, stepped, holds⟩ := arithmetic_of_step wf here listed
  exact ⟨wf, here, listed, v, stepped, holds.shared rfl⟩

end Machine

end ChipEight
