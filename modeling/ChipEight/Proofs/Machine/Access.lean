import ChipEight.Machine.Execution

/-!
# Checked accesses

The parts of a machine check an access before they carry it out. Here each checked access is split
in two: the fault that it meets, if any, and what it answers otherwise. The second half is total, so
that a statement about a successful access carries no failure along, and a statement about failure
carries no result along.

`Fault.raiseOr` joins the halves, and every `_eq_raiseOr` says that an access is the join of its two
halves.
-/

namespace ChipEight

/-- A fault if there is one, and an answer otherwise. -/
def Fault.raiseOr (fault : Option Fault) (answer : α) : Except Fault α :=
  match fault with
  | some e => .error e
  | none => .ok answer

/-! ## Memory -/

theorem toNat_lowByte (n : Int) : ((lowByte n).toNat : Int) = n % 256 := by
  rw [lowByte, UInt8.toNat_ofNat']
  omega

/-- A byte is its own lowest byte. -/
theorem lowByte_toNat (b : UInt8) : lowByte b.toNat = b := by
  have small := b.toNat_lt
  have same := toNat_lowByte b.toNat
  exact UInt8.toNat_inj.mp (by omega)

namespace Memory

/-- The fault of an operation on a block that does not lie in the memory. -/
def outside? (m : Memory) (operation : String) (address length : Int) : Option Fault :=
  if m.Covers address length then none else some (.outOfBounds operation address length)

/-- The fault of a block write. An end past the address space is found before the bounds are. -/
def writeFault? (m : Memory) (address length : Int) : Option Fault :=
  if addressLimit < address + length then some (.addressOverflow "write_bytes" address length)
  else m.outside? "write_bytes" address length

/-- The cells of a block, as far as the memory goes. -/
def block (m : Memory) (address length : Int) : List UInt8 :=
  (m.cells.extract address.toNat (address.toNat + length.toNat)).toList

/-- The memory with a block of bytes written, as far as it goes. -/
def withBlock (m : Memory) (address : Int) (bytes : List UInt8) : Memory :=
  ⟨overwrite m.cells address.toNat bytes⟩

theorem readByte_eq_raiseOr (m : Memory) (address : Int) :
    m.readByte address =
      Fault.raiseOr (m.outside? "read_byte" address 1) (m.cell address.toNat) := by
  unfold readByte outside?
  split <;> rfl

theorem readBytes_eq_raiseOr (m : Memory) (address length : Int) :
    m.readBytes address length =
      Fault.raiseOr (m.outside? "read_bytes" address length) (m.block address length) := by
  unfold readBytes outside?
  split <;> rfl

theorem writeBytes_eq_raiseOr (m : Memory) (address : Int) (bytes : List UInt8) :
    m.writeBytes address bytes =
      Fault.raiseOr (m.writeFault? address bytes.length) (m.withBlock address bytes) := by
  unfold writeBytes writeFault? outside?
  split
  · rfl
  · split <;> rfl

theorem size_overwrite (cells : Array UInt8) (address : Nat) (bytes : List UInt8) :
    (overwrite cells address bytes).size = cells.size := by
  induction bytes generalizing cells address with
  | nil => rfl
  | cons b rest ih =>
    rw [overwrite, ih, Array.size_setIfInBounds]

@[simp] theorem size_withBlock (m : Memory) (address : Int) (bytes : List UInt8) :
    (m.withBlock address bytes).size = m.size :=
  size_overwrite m.cells address.toNat bytes

end Memory

/-! ## The call stack -/

namespace CallStack

/-- The fault of a call at `pc`: the stack is full. -/
def pushFault? (s : CallStack) (pc : Int) : Option Fault :=
  match s.limit with
  | some limit => if limit ≤ s.depth then some (.stackOverflow pc limit) else none
  | none => none

/-- The fault of a return at `pc`: the stack is empty. -/
def popFault? (s : CallStack) (pc : Int) : Option Fault :=
  if s.frames = [] then some (.stackUnderflow pc) else none

/-- The stack with the lowest sixteen bits of an address on top. -/
def pushed (s : CallStack) (address : Int) : CallStack :=
  { s with frames := UInt16.ofNat (address % 65536).toNat :: s.frames }

/-- The newest entry, zero when there is none. -/
def top (s : CallStack) : UInt16 := s.frames.headD 0

/-- The stack without its newest entry. -/
def popped (s : CallStack) : CallStack := { s with frames := s.frames.tail }

theorem push_eq_raiseOr (s : CallStack) (address pc : Int) :
    s.push address pc = Fault.raiseOr (s.pushFault? pc) (s.pushed address) := by
  obtain ⟨limit, frames⟩ := s
  cases limit with
  | none => rfl
  | some limit =>
    simp only [push, pushFault?]
    split <;> rfl

theorem pop_eq_raiseOr (s : CallStack) (pc : Int) :
    s.pop pc = Fault.raiseOr (s.popFault? pc) (s.top, s.popped) := by
  obtain ⟨limit, frames⟩ := s
  cases frames <;> rfl

end CallStack

/-! ## Keypad and screen -/

namespace Keypad

/-- The fault of asking for a key that the keypad does not have. -/
def keyFault? (key : Int) (pc : Option Int) : Option Fault :=
  match key? key with
  | some _ => none
  | none => some (.invalidKey key pc)

/-- Is a key pressed? One that the keypad does not have is not. -/
def isDown (k : Keypad) (key : Int) : Bool := (key? key).any fun i => k.keys.get i

theorem isPressed_eq_raiseOr (k : Keypad) (key : Int) (pc : Option Int) :
    k.isPressed key pc = Fault.raiseOr (keyFault? key pc) (k.isDown key) := by
  unfold isPressed keyFault? isDown
  cases key? key <;> rfl

end Keypad

namespace Screen

/-- The fault of drawing on an axis without pixels. -/
def drawFault? (s : Screen) (rows : List UInt8) : Option Fault :=
  if s.raster.lacksAxis rows then some .emptyAxis else none

/-- The screen after a sprite was drawn. -/
def drawn (s : Screen) (x y : Int) (rows : List UInt8) : Screen :=
  ⟨(s.raster.draw x y rows).1, true⟩

theorem draw_eq_raiseOr (s : Screen) (x y : Int) (rows : List UInt8) :
    s.draw x y rows =
      Fault.raiseOr (s.drawFault? rows) (s.drawn x y rows, (s.raster.draw x y rows).2) := by
  unfold draw drawFault?
  split <;> rfl

end Screen

end ChipEight
