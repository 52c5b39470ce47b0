import ChipEight.Proofs.Machine.Cells
import ChipEight.Proofs.Machine.WellFormed
import Mathlib.Data.List.Induction

/-!
# What a memory remembers

A memory is written byte by byte, in blocks and with programs, at any addresses and with any
values. `Write` lists what is asked for, and `refusal?` says why a memory refuses it. That depends
on the size of the memory only, which no write changes, so a refusal is known without the contents.
A write that is refused leaves the memory as it is. One that is accepted gives its values to the
addresses that it covers, and to no other (`value_apply`).

`remembered` is the value that the last accepted write gave to an address, or the one from before
the writes. `remembers_last_writes` says that this is what a memory answers after any list of
writes.
-/

namespace ChipEight

namespace Memory

/-- What a memory is asked to write. -/
inductive Write where
  /-- One byte, the lowest eight bits of a value. -/
  | byte (address value : Int)
  | block (address : Int) (values : List Int)
  | program (values : List Int) (start : Int)
deriving DecidableEq, Repr

namespace Write

/-- The address of the first cell. -/
def address : Write → Int
  | .byte address _ | .block address _ | .program _ address => address

/-- The values for the cells, in order. -/
def values : Write → List Int
  | .byte _ value => [value % 256]
  | .block _ values | .program values _ => values

/-- Loading a program answers its size; the other writes answer nothing. -/
def answer : Write → Option Nat
  | .program values _ => some values.length
  | _ => none

/-- The memory after a write, and what the write answers. -/
def run (m : Memory) : Write → Except Fault (Memory × Option Nat)
  | .byte address value => (m.writeByte address value).map (·, none)
  | .block address values => (m.writeValues address values).map (·, none)
  | .program values start => (m.loadValues values start).map fun (m, size) => (m, some size)

/-- The memory that a write leaves behind, accepted or not. -/
def apply (m : Memory) (w : Write) : Memory :=
  match w.run m with
  | .ok (m, _) => m
  | .error _ => m

/-- Why a memory of some size refuses a write. Of several reasons the first one counts. -/
def refusal? (size : Nat) : Write → Option Fault
  | .byte address _ =>
    if 0 ≤ address ∧ address < size then none else some (.outOfBounds "write_byte" address 1)
  | .block address values | .program values address =>
    if ∃ value ∈ values, value < 0 ∨ 255 < value then some .notAByte
    else if 65536 < address + values.length then
      some (.addressOverflow "write_bytes" address values.length)
    else if address < 0 ∨ size < address + values.length then
      some (.outOfBounds "write_bytes" address values.length)
    else none

/-- The value that a write gives to an address, if it covers the address and a memory of some size
accepts it. -/
def gives? (size : Nat) (w : Write) (k : Nat) : Option Int :=
  if w.refusal? size = none ∧ w.address ≤ k then w.values[(k - w.address).toNat]? else none

/-- The writes of single bytes that make up a block. -/
def bytewise (address : Int) : List Int → List Write
  | [] => []
  | value :: rest => .byte address value :: bytewise (address + 1) rest

end Write

/-- The memory after a list of writes. -/
def after (m : Memory) (writes : List Write) : Memory := writes.foldl Write.apply m

/-- A byte as an integer. -/
def byteValue (b : UInt8) : Int := b.toNat

/-- The value at an address, zero outside the memory. -/
def value (m : Memory) (k : Nat) : Int := byteValue (m.cell k)

/-- The value that the last of the writes that covers an address, and is accepted, gives to it. If
there is none, it is the value from before the writes. -/
def remembered (m : Memory) (writes : List Write) (k : Nat) : Int :=
  (writes.reverse.findSome? fun w => w.gives? m.size k).getD (m.value k)

theorem after_cons (m : Memory) (w : Write) (writes : List Write) :
    m.after (w :: writes) = (w.apply m).after writes := rfl

theorem after_append (m : Memory) (first second : List Write) :
    m.after (first ++ second) = (m.after first).after second :=
  List.foldl_append

theorem after_concat (m : Memory) (writes : List Write) (w : Write) :
    m.after (writes ++ [w]) = w.apply (m.after writes) :=
  m.after_append writes [w]

theorem remembered_concat (m : Memory) (writes : List Write) (w : Write) (k : Nat) :
    m.remembered (writes ++ [w]) k = (w.gives? m.size k).getD (m.remembered writes k) := by
  rw [remembered, List.reverse_append, List.reverse_singleton, List.singleton_append,
    List.findSome?_cons]
  cases w.gives? m.size k <;> rfl

/-! ## One write -/

/-- Only the remainder of a value counts for its lowest byte. -/
theorem lowByte_emod (n : Int) : lowByte (n % 256) = lowByte n := by
  rw [lowByte, Int.emod_emod_of_dvd n (Int.dvd_refl 256), lowByte]

/-- A block of values is refused, or it is written. -/
theorem writeValues_eq_raiseOr (m : Memory) (address : Int) (values : List Int) :
    m.writeValues address values =
      Fault.raiseOr (Write.refusal? m.size (.block address values))
        (m.withBlock address (values.map lowByte)) := by
  rw [writeValues, Write.refusal?]
  by_cases outside : ∃ value ∈ values, value < 0 ∨ 255 < value
  · have refused : ¬values.all isByte = true := by
      obtain ⟨value, among, outside⟩ := outside
      intro bytes
      have byte := List.all_eq_true.mp bytes value among
      simp only [isByte, Bool.and_eq_true, decide_eq_true_eq] at byte
      omega
    rw [if_neg refused, if_pos outside]
    rfl
  · have bytes : values.all isByte = true := by
      refine List.all_eq_true.mpr fun value among => ?_
      have inside : ¬(value < 0 ∨ 255 < value) := fun past => outside ⟨value, among, past⟩
      simp only [isByte, Bool.and_eq_true, decide_eq_true_eq]
      omega
    have covers : m.Covers address values.length ↔
        ¬(address < 0 ∨ m.size < address + values.length) := by
      unfold Covers
      omega
    rw [if_pos bytes, if_neg outside, writeBytes_eq_raiseOr, writeFault?, outside?, List.length_map,
      if_congr covers rfl rfl, ite_not, addressLimit]

namespace Write

/-- **A write is refused, or its values are written** as one block. -/
theorem run_eq_raiseOr (m : Memory) (w : Write) :
    w.run m = Fault.raiseOr (w.refusal? m.size)
      (m.withBlock w.address (w.values.map lowByte), w.answer) := by
  cases w with
  | byte address value =>
    have covers : m.Covers address 1 ↔ 0 ≤ address ∧ address < m.size := by
      unfold Covers
      omega
    have written : m.withBlock address ([value % 256].map lowByte) =
        ⟨m.cells.setIfInBounds address.toNat (lowByte value)⟩ := by
      rw [List.map_singleton, lowByte_emod]
      rfl
    rw [run, writeByte, refusal?, Write.address, values, written, if_congr covers rfl rfl]
    split <;> rfl
  | block address values =>
    rw [run, writeValues_eq_raiseOr]
    cases refusal? m.size (.block address values) <;> rfl
  | program values start =>
    have same : refusal? m.size (.program values start) = refusal? m.size (.block start values) :=
      rfl
    rw [run, loadValues, writeValues_eq_raiseOr, same]
    cases refusal? m.size (.block start values) <;> rfl

/-- A block is accepted exactly if its values are bytes and its cells lie in the memory and in the
address space. -/
theorem refusal?_block_eq_none_iff {size : Nat} {address : Int} {values : List Int} :
    refusal? size (.block address values) = none ↔
      (∀ value ∈ values, 0 ≤ value ∧ value ≤ 255) ∧ 0 ≤ address ∧
        address + values.length ≤ min size 65536 := by
  have bytes : (∀ value ∈ values, 0 ≤ value ∧ value ≤ 255) ↔
      ¬∃ value ∈ values, value < 0 ∨ 255 < value := by
    simp only [not_exists, not_and, not_or, Int.not_lt]
  rw [refusal?, bytes]
  simp only [ite_eq_iff, reduceCtorEq, and_false, false_or, and_true]
  refine and_congr_right fun _ => ?_
  omega

/-- What an accepted write asks for fits: its values are bytes, and its cells lie in the memory. -/
theorem fits_of_refusal? {size : Nat} {w : Write} (accepted : w.refusal? size = none) :
    (∀ value ∈ w.values, 0 ≤ value ∧ value ≤ 255) ∧ 0 ≤ w.address ∧
      w.address + w.values.length ≤ size := by
  cases w with
  | byte address value =>
    simp only [refusal?, ite_eq_left_iff, reduceCtorEq, imp_false, not_not] at accepted
    simp only [values, Write.address, List.mem_singleton, forall_eq, List.length_singleton]
    omega
  | block address values | program values address =>
    obtain ⟨bytes, start, stop⟩ := refusal?_block_eq_none_iff.mp accepted
    exact ⟨bytes, start, Int.le_trans stop (by omega)⟩

/-- A write leaves the memory as it is, or it is accepted and its block is written. -/
theorem apply_eq (m : Memory) (w : Write) :
    w.apply m = match w.refusal? m.size with
      | some _ => m
      | none => m.withBlock w.address (w.values.map lowByte) := by
  rw [apply, run_eq_raiseOr]
  cases w.refusal? m.size <;> rfl

theorem size_apply (m : Memory) (w : Write) : (w.apply m).size = m.size := by
  rw [apply_eq]
  cases w.refusal? m.size with
  | some e => rfl
  | none => exact size_withBlock _ _ _

/-- **What one write does to the value at an address** that lies in the memory. -/
theorem value_apply (m : Memory) (w : Write) {k : Nat} (inside : k < m.size) :
    (w.apply m).value k = (w.gives? m.size k).getD (m.value k) := by
  rw [apply_eq, gives?]
  cases accepted : w.refusal? m.size with
  | some e => rw [if_neg (by simp), Option.getD_none]
  | none =>
    obtain ⟨bytes, start, stop⟩ := fits_of_refusal? accepted
    by_cases covered : w.address ≤ k ∧ k < w.address + w.values.length
    · obtain ⟨j, rfl⟩ : ∃ j, k = w.address.toNat + j := ⟨k - w.address.toNat, by omega⟩
      have among : j < w.values.length := by omega
      have place : ((w.address.toNat + j : Nat) - w.address).toNat = j := by omega
      have byte := bytes w.values[j] (List.getElem_mem among)
      rw [if_pos ⟨rfl, covered.1⟩, place, List.getElem?_eq_getElem among, Option.getD_some, value,
        cell_withBlock_inside inside (by rwa [List.length_map]), List.getElem_map, byteValue,
        toNat_lowByte]
      omega
    · have kept : (m.withBlock w.address (w.values.map lowByte)).cell k = m.cell k :=
        cell_withBlock_outside (by rw [List.length_map]; omega)
      rw [value, kept]
      split
      · rw [List.getElem?_eq_none (by omega), Option.getD_none, value]
      · rw [Option.getD_none, value]

end Write

/-! ## Many writes -/

theorem size_after (m : Memory) (writes : List Write) : (m.after writes).size = m.size := by
  induction writes using List.reverseRecOn with
  | nil => rfl
  | append_singleton writes w ih => rw [after_concat, Write.size_apply, ih]

/-- **A memory remembers the last value** that it was given for an address. -/
theorem value_after (m : Memory) (writes : List Write) {k : Nat} (inside : k < m.size) :
    (m.after writes).value k = m.remembered writes k := by
  induction writes using List.reverseRecOn with
  | nil => rfl
  | append_singleton writes w ih =>
    have size := m.size_after writes
    rw [after_concat, Write.value_apply _ _ (size.symm ▸ inside), size, ih, remembered_concat]

/-- A block is its first byte, and the others from the next address on. -/
theorem withBlock_cons (m : Memory) {address : Int} (start : 0 ≤ address) (b : UInt8)
    (rest : List UInt8) :
    m.withBlock address (b :: rest) = (m.withBlock address [b]).withBlock (address + 1) rest := by
  have next : (address + 1).toNat = address.toNat + 1 := by omega
  rw [withBlock, withBlock, withBlock, next]
  rfl

/-- **A block of bytes** that lies in the memory is written as the bytes are one after the other. -/
theorem after_bytewise (m : Memory) {address : Int} {values : List Int} (start : 0 ≤ address)
    (stop : address + values.length ≤ m.size) :
    (∀ w ∈ Write.bytewise address values, w.refusal? m.size = none) ∧
      m.after (Write.bytewise address values) = m.withBlock address (values.map lowByte) := by
  induction values generalizing m address with
  | nil => exact ⟨fun w among => absurd among List.not_mem_nil, rfl⟩
  | cons value rest ih =>
    rw [List.length_cons] at stop
    have accepted : (Write.byte address value).refusal? m.size = none := if_pos (by omega)
    have first : (Write.byte address value).apply m = m.withBlock address [lowByte value] := by
      rw [Write.apply_eq, accepted, Write.address, Write.values, List.map_singleton, lowByte_emod]
    have size : ((Write.byte address value).apply m).size = m.size := Write.size_apply _ _
    have next : 0 ≤ address + 1 := by omega
    obtain ⟨others, written⟩ := ih ((Write.byte address value).apply m) next (by omega)
    rw [size] at others
    refine ⟨fun w among => ?_, ?_⟩
    · rcases List.mem_cons.mp among with rfl | later
      · exact accepted
      · exact others w later
    · rw [Write.bytewise, after_cons, written, first, List.map_cons, ← withBlock_cons m start]

/-! ## Reads -/

theorem value_ofSize (size k : Nat) : (ofSize size).value k = byteValue (font.getD k 0) := by
  rw [value, cell, ofSize, Array.getD_eq_getD_getElem?, List.getElem?_toArray]
  by_cases drawn : k < font.length
  · rw [List.getElem?_append_left drawn, List.getD_eq_getElem?_getD]
  · rw [List.getElem?_append_right (Nat.le_of_not_lt drawn), List.getElem?_replicate,
      List.getD_eq_getElem?_getD, List.getElem?_eq_none (Nat.le_of_not_lt drawn)]
    split <;> rfl

theorem readByte_value (m : Memory) (address : Int) :
    (m.readByte address).map byteValue =
      if 0 ≤ address ∧ address < m.size then .ok (m.value address.toNat)
      else .error (.outOfBounds "read_byte" address 1) := by
  have covers : m.Covers address 1 ↔ 0 ≤ address ∧ address < m.size := by
    unfold Covers
    omega
  rw [readByte, if_congr covers rfl rfl]
  split <;> rfl

theorem readBytes_value (m : Memory) (address length : Int) :
    (m.readBytes address length).map (List.map byteValue) =
      if 0 ≤ address ∧ 0 ≤ length ∧ address + length ≤ m.size then
        .ok ((List.range length.toNat).map fun k => m.value (address.toNat + k))
      else .error (.outOfBounds "read_bytes" address length) := by
  by_cases covers : m.Covers address length
  · obtain ⟨count, rfl⟩ := Int.eq_ofNat_of_zero_le covers.2.1
    have read : (m.block address count).map byteValue =
        (List.range count).map fun k => m.value (address.toNat + k) := by
      refine List.ext_getElem? fun k => ?_
      rw [List.getElem?_map, getElem?_block covers, List.getElem?_map]
      by_cases among : k < count
      · rw [if_pos among, List.getElem?_range among]
        rfl
      · rw [if_neg among, List.getElem?_eq_none (by rw [List.length_range]; omega)]
        rfl
    rw [readBytes_eq_raiseOr, outside?, if_pos covers]
    exact (congrArg Except.ok read).trans (if_pos covers).symm
  · rw [readBytes_eq_raiseOr, outside?, if_neg covers]
    exact (if_neg covers).symm

/-! ## The whole -/

/-- A block of bytes is a block of values, and the same holds of programs. -/
theorem writeValues_of_bytes (m : Memory) (address : Int) (bytes : List UInt8) :
    m.writeValues address (bytes.map byteValue) = m.writeBytes address bytes ∧
      m.loadValues (bytes.map byteValue) address = m.load bytes address := by
  have fits : (bytes.map byteValue).all isByte = true := by
    refine List.all_eq_true.mpr fun value among => ?_
    obtain ⟨b, -, rfl⟩ := List.mem_map.mp among
    have small := b.toNat_lt
    simp only [isByte, Bool.and_eq_true, decide_eq_true_eq]
    unfold byteValue
    omega
  have kept : (bytes.map byteValue).map lowByte = bytes := by
    simp only [List.map_map, Function.comp_def, byteValue, lowByte_toNat, List.map_id']
  have written : m.writeValues address (bytes.map byteValue) = m.writeBytes address bytes := by
    rw [writeValues, if_pos fits, kept]
  refine ⟨written, ?_⟩
  rw [loadValues, written, List.length_map, load]

/-- What a memory answers after some writes to it: it has the size that it had, the value at each
address in it is the one that the last accepted write gave to the address, and a read fails exactly
if it leaves the memory. -/
structure Remembers (m : Memory) (writes : List Write) : Prop where
  size : (m.after writes).size = m.size
  byte : ∀ address : Int, ((m.after writes).readByte address).map byteValue =
    if 0 ≤ address ∧ address < m.size then .ok (m.remembered writes address.toNat)
    else .error (.outOfBounds "read_byte" address 1)
  block : ∀ address length : Int,
    ((m.after writes).readBytes address length).map (List.map byteValue) =
    if 0 ≤ address ∧ 0 ≤ length ∧ address + length ≤ m.size then
      .ok ((List.range length.toNat).map fun k => m.remembered writes (address.toNat + k))
    else .error (.outOfBounds "read_bytes" address length)

theorem remembers (m : Memory) (writes : List Write) : m.Remembers writes where
  size := m.size_after writes
  byte address := by
    rw [readByte_value, size_after]
    split
    · rename_i inside
      rw [value_after m writes (by omega)]
    · rfl
  block address length := by
    rw [readBytes_value, size_after]
    split
    · rename_i inside
      refine congrArg Except.ok (List.map_congr_left fun k among => ?_)
      have early := List.mem_range.mp among
      exact value_after m writes (by omega)
    · rfl

/-- After some writes, the next one is refused and leaves the memory as it is, or it is accepted. -/
theorem run_after (m : Memory) (writes : List Write) (w : Write) :
    match w.refusal? m.size with
    | some e => w.run (m.after writes) = .error e ∧ m.after (writes ++ [w]) = m.after writes
    | none => w.run (m.after writes) = .ok (m.after (writes ++ [w]), w.answer) := by
  rw [after_concat, Write.apply_eq, Write.run_eq_raiseOr, size_after]
  cases w.refusal? m.size with
  | some e => exact ⟨rfl, rfl⟩
  | none => rfl

/-- **A memory remembers what was written last.** A memory of any size is made, which holds the font
and zeros, and any writes follow. It remembers them. Whether the next write is accepted depends on
its values, its address and the size alone, and if it is refused, the memory stays as it is. A block
of bytes that lies in the memory and in the address space is accepted, and written as its bytes are
one after the other, and so is a program. Whether bytes or values are handed over makes no
difference. -/
theorem remembers_last_writes (size : Nat) :
    ∃ new, make size = .ok new ∧ new.size = max size 80 ∧
      (∀ k, new.value k = byteValue (font.getD k 0)) ∧
      ∀ writes : List Write, new.Remembers writes ∧
        (∀ w : Write,
          match w.refusal? new.size with
          | some e =>
            w.run (new.after writes) = .error e ∧ new.after (writes ++ [w]) = new.after writes
          | none => w.run (new.after writes) = .ok (new.after (writes ++ [w]), w.answer)) ∧
        (∀ (address : Int) (values : List Int), (∀ value ∈ values, 0 ≤ value ∧ value ≤ 255) →
          0 ≤ address → address + values.length ≤ min new.size 65536 →
            (∀ w ∈ Write.bytewise address values, w.refusal? new.size = none) ∧
            ∀ w ∈ [Write.block address values, .program values address],
              w.refusal? new.size = none ∧
                new.after (writes ++ [w]) =
                  new.after (writes ++ Write.bytewise address values)) ∧
        ∀ (address : Int) (bytes : List UInt8),
          (new.after writes).writeValues address (bytes.map byteValue) =
            (new.after writes).writeBytes address bytes ∧
          (new.after writes).loadValues (bytes.map byteValue) address =
            (new.after writes).load bytes address := by
  have made : make size = .ok (ofSize size) := if_neg (by omega)
  refine ⟨ofSize size, made, size_ofSize size, value_ofSize size, fun writes =>
    ⟨remembers _ writes, run_after _ writes, fun address values bytes start stop => ?_,
      writeValues_of_bytes _⟩⟩
  have kept := (ofSize size).size_after writes
  have accepted : Write.refusal? (ofSize size).size (.block address values) = none :=
    Write.refusal?_block_eq_none_iff.mpr ⟨bytes, start, stop⟩
  obtain ⟨each, written⟩ :=
    after_bytewise ((ofSize size).after writes) start (Int.le_trans stop (by omega))
  rw [kept] at each
  have whole (w : Write) (taken : w.refusal? (ofSize size).size = none)
      (place : w.address = address) (same : w.values = values) :
      (ofSize size).after (writes ++ [w]) =
        (ofSize size).after (writes ++ Write.bytewise address values) := by
    rw [after_concat, Write.apply_eq, kept, taken, after_append, written, place, same]
  refine ⟨each, fun w among => ?_⟩
  rcases List.mem_cons.mp among with rfl | among
  · exact ⟨accepted, whole _ accepted rfl rfl⟩
  · obtain rfl := List.mem_singleton.mp among
    exact ⟨accepted, whole _ accepted rfl rfl⟩

/-- A memory that is smaller than the font is made. A block past its end and a value that is no byte
are refused, a single byte is cut to eight bits, and the last two cells are written together as they
are one after the other. -/
theorem remembers_last_writes_small :
    let writes : List Write := [.block 79 [1, 2], .byte 78 (-1), .program [7, 256] 0, .byte 80 5]
    ∃ new, make 3 = .ok new ∧ new.size = 80 ∧ new.remembered writes 78 = 255 ∧
      new.remembered writes 79 = 128 ∧
      new.after (writes ++ [.block 78 [3, 4]]) =
        new.after (writes ++ [.byte 78 3, .byte 79 4]) := by
  intro writes
  obtain ⟨new, made, size, begun, kept⟩ := remembers_last_writes 3
  obtain ⟨-, -, blocks, -⟩ := kept writes
  obtain ⟨-, written⟩ := blocks 78 [3, 4] (by decide) (by decide) (by rw [size]; decide)
  obtain ⟨-, same⟩ := written (.block 78 [3, 4]) List.mem_cons_self
  obtain rfl : ofSize 3 = new := Except.ok.inj made
  exact ⟨_, made, size, by decide +kernel, by decide +kernel, same⟩

end Memory

end ChipEight
