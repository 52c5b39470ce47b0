import ChipEight.Fault
import ChipEight.Machine.Font

/-!
# Memory

A flat array of bytes. Addresses are integers: an access is checked as a whole before anything is
read or written, and one that leaves the memory is a fault, never a wrapped or shortened access. A
block write whose end does not fit the 16-bit address space is a fault of its own, found first.

A new memory holds the font in its first 80 bytes and zeros after it, so it is never smaller than
the font.
-/

namespace ChipEight

def memorySize : Nat := 0x1000

/-- The end of the 16-bit address space. -/
def addressLimit : Int := 0x10000

/-- The address at which programs are loaded and started. -/
def programStart : Int := 0x200

/-- The lowest eight bits of an integer in two's complement. -/
def lowByte (n : Int) : UInt8 := UInt8.ofNat (n % 256).toNat

/-- Byte-addressed memory. -/
structure Memory where
  cells : Array UInt8
deriving DecidableEq, Repr

namespace Memory

def size (m : Memory) : Nat := m.cells.size

/-- The byte at an address, zero outside the memory. -/
def cell (m : Memory) (address : Nat) : UInt8 := m.cells.getD address 0

/-- A new memory of `size` bytes, or of the size of the font if that is more. -/
def ofSize (size : Nat) : Memory :=
  ⟨(font ++ List.replicate (size - font.length) 0).toArray⟩

/-- A new memory; a negative size is refused. -/
def make (size : Int) : Except Fault Memory :=
  if size < 0 then .error .negativeMemory else .ok (ofSize size.toNat)

/-- All of the `length` cells from `address` on lie in the memory. -/
def Covers (m : Memory) (address length : Int) : Prop :=
  0 ≤ address ∧ 0 ≤ length ∧ address + length ≤ m.size

instance (m : Memory) (address length : Int) : Decidable (m.Covers address length) :=
  inferInstanceAs (Decidable (_ ∧ _ ∧ _))

def readByte (m : Memory) (address : Int) : Except Fault UInt8 :=
  if m.Covers address 1 then .ok (m.cell address.toNat)
  else .error (.outOfBounds "read_byte" address 1)

/-- The `length` bytes from an address on. -/
def readBytes (m : Memory) (address length : Int) : Except Fault (List UInt8) :=
  if m.Covers address length then
    .ok (m.cells.extract address.toNat (address.toNat + length.toNat)).toList
  else .error (.outOfBounds "read_bytes" address length)

/-- Sets the byte at an address to the lowest eight bits of a value. -/
def writeByte (m : Memory) (address value : Int) : Except Fault Memory :=
  if m.Covers address 1 then .ok ⟨m.cells.setIfInBounds address.toNat (lowByte value)⟩
  else .error (.outOfBounds "write_byte" address 1)

/-- Replaces the cells from `address` on by the given bytes, as far as the array goes. -/
def overwrite (cells : Array UInt8) (address : Nat) : List UInt8 → Array UInt8
  | [] => cells
  | b :: rest => overwrite (cells.setIfInBounds address b) (address + 1) rest

/-- Writes a block of bytes, all of it or nothing. -/
def writeBytes (m : Memory) (address : Int) (block : List UInt8) : Except Fault Memory :=
  if addressLimit < address + block.length then
    .error (.addressOverflow "write_bytes" address block.length)
  else if m.Covers address block.length then .ok ⟨overwrite m.cells address.toNat block⟩
  else .error (.outOfBounds "write_bytes" address block.length)

def isByte (n : Int) : Bool := 0 ≤ n && n < 256

/-- Writes a block of values, each of which has to fit a byte. -/
def writeValues (m : Memory) (address : Int) (values : List Int) : Except Fault Memory :=
  if values.all isByte then m.writeBytes address (values.map lowByte) else .error .notAByte

/-- Copies a program image into the memory and answers its size. -/
def load (m : Memory) (image : List UInt8) (start : Int) : Except Fault (Memory × Nat) := do
  let m ← m.writeBytes start image
  return (m, image.length)

/-- Copies a program image given as values, each of which has to fit a byte, and answers its
size. -/
def loadValues (m : Memory) (values : List Int) (start : Int) : Except Fault (Memory × Nat) := do
  let m ← m.writeValues start values
  return (m, values.length)

/-- The line that shows `length` bytes from an address on. -/
def dump (m : Memory) (address length : Int) : Except Fault String := do
  let bytes ← m.readBytes address length
  return Text.hexNumber 4 address ++ ": " ++
    String.intercalate " " (bytes.map fun b => Text.hexField 2 b.toNat)

end Memory

end ChipEight
