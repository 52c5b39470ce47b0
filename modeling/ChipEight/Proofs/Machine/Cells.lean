import ChipEight.Proofs.Machine.Access

/-!
# The cells of a memory

A memory is its cells: two of one size that agree in every cell are the same. A block that is
written is found again cell by cell, as far as the memory goes, and the cells outside it stay as
they were. A block that is read is made of the cells.
-/

namespace ChipEight

namespace Memory

/-- Memories of one size that agree in every cell are the same. -/
theorem ext_cell {m m' : Memory} (size : m.size = m'.size) (cells : ∀ k, m.cell k = m'.cell k) :
    m = m' := by
  have same : m.cells = m'.cells := by
    refine Array.ext size fun k low low' => ?_
    have here := cells k
    simpa only [cell, Array.getD_eq_getD_getElem?, Array.getElem?_eq_getElem low,
      Array.getElem?_eq_getElem low', Option.getD_some] using here
  obtain ⟨_⟩ := m
  exact congrArg Memory.mk same

theorem getElem?_overwrite (cells : Array UInt8) (address : Nat) (bytes : List UInt8) (k : Nat) :
    (overwrite cells address bytes)[k]? =
      if address ≤ k ∧ k < address + bytes.length ∧ k < cells.size then bytes[k - address]?
      else cells[k]? := by
  induction bytes generalizing cells address with
  | nil => grind [overwrite]
  | cons b rest ih =>
    rw [overwrite, ih, Array.size_setIfInBounds, Array.getElem?_setIfInBounds]
    by_cases first : address = k
    · subst first
      grind
    · grind

/-- A cell of a block that was written holds its byte. -/
theorem cell_withBlock_inside {m : Memory} {address : Int} {bytes : List UInt8} {k : Nat}
    (inside : address.toNat + k < m.size) (among : k < bytes.length) :
    (m.withBlock address bytes).cell (address.toNat + k) = bytes[k] := by
  have written := getElem?_overwrite m.cells address.toNat bytes (address.toNat + k)
  rw [if_pos ⟨Nat.le_add_right _ _, Nat.add_lt_add_left among _, inside⟩,
    Nat.add_sub_cancel_left, List.getElem?_eq_getElem among] at written
  simp only [cell, withBlock, Array.getD_eq_getD_getElem?, written, Option.getD_some]

/-- A cell outside a block that was written is as it was. -/
theorem cell_withBlock_outside {m : Memory} {address : Int} {bytes : List UInt8} {k : Nat}
    (outside : k < address.toNat ∨ address.toNat + bytes.length ≤ k) :
    (m.withBlock address bytes).cell k = m.cell k := by
  have kept := getElem?_overwrite m.cells address.toNat bytes k
  rw [if_neg (by omega)] at kept
  simp only [cell, withBlock, Array.getD_eq_getD_getElem?, kept]

/-- **A block that lies in the memory** is made of its cells in order. -/
theorem getElem?_block {m : Memory} {address : Int} {length : Nat}
    (covers : m.Covers address length) (k : Nat) :
    (m.block address length)[k]? =
      if k < length then some (m.cell (address.toNat + k)) else none := by
  have start := covers.1
  have stop := covers.2.2
  have sized : m.cells.size = m.size := rfl
  rw [block, Array.getElem?_toList, Array.getElem?_extract]
  by_cases among : k < length
  · have inside : address.toNat + k < m.cells.size := by omega
    rw [if_pos among, if_pos (by omega), cell, Array.getD_eq_getD_getElem?,
      Array.getElem?_eq_getElem inside, Option.getD_some]
  · rw [if_neg among, if_neg (by omega)]

theorem length_block {m : Memory} {address : Int} {length : Nat}
    (covers : m.Covers address length) : (m.block address length).length = length := by
  have start := covers.1
  have stop := covers.2.2
  have sized : m.cells.size = m.size := rfl
  rw [block, Array.length_toList, Array.size_extract]
  omega

end Memory

end ChipEight
