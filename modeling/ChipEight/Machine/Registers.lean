import ChipEight.Machine.Digit
import ChipEight.Machine.Memory

/-!
# Registers, call stack, timers and the random source

The general registers V0 to VF hold bytes. The index register and the program counter are integers:
instructions keep them in range, but they may be set to anything from outside. So may the two
timers, which count down to zero, one for each tick.

The call stack holds 16-bit return addresses and has an optional limit. Its entries are kept with
the newest first.
-/

namespace ChipEight

/-- The register that instructions use as a flag. -/
def flagRegister : Fin 16 := 15

/-- The sixteen general registers, the index register and the program counter. -/
structure Registers where
  v : Vector UInt8 16
  i : Int
  pc : Int
deriving DecidableEq, Repr

namespace Registers

def initial : Registers := ⟨Vector.replicate 16 0, 0, programStart⟩

def withV (r : Registers) (x : Fin 16) (value : UInt8) : Registers :=
  { r with v := r.v.set x.val value (digit_lt x) }

/-- The register of an index; a negative index counts from the end. -/
def register? (index : Int) : Option (Fin 16) :=
  if h : 0 ≤ index ∧ index < 16 then some ⟨index.toNat, toNat_lt_sixteen h⟩
  else if h : -16 ≤ index ∧ index < 0 then some ⟨(index + 16).toNat, by omega⟩
  else none

/-- The general register of an index. -/
def read (r : Registers) (index : Int) : Except Fault UInt8 :=
  match register? index with
  | some x => .ok (r.v.get x)
  | none => .error (.noSuchRegister index)

/-- Sets the general register of an index to the lowest eight bits of a value. -/
def write (r : Registers) (index value : Int) : Except Fault Registers :=
  match register? index with
  | some x => .ok (r.withV x (lowByte value))
  | none => .error (.noSuchRegister index)

end Registers

/-- Return addresses, the newest first, and how many there may be. -/
structure CallStack where
  limit : Option Nat
  frames : List UInt16
deriving DecidableEq, Repr

namespace CallStack

def standardLimit : Nat := 16

/-- An empty stack; a limit has to be positive. -/
def make : Option Int → Except Fault CallStack
  | none => .ok ⟨none, []⟩
  | some limit => if limit < 1 then .error (.badStackLimit limit) else .ok ⟨some limit.toNat, []⟩

def depth (s : CallStack) : Nat := s.frames.length

/-- The entries, the oldest first. -/
def entries (s : CallStack) : List UInt16 := s.frames.reverse

/-- Pushes the lowest sixteen bits of an address; `pc` is the place of the call. -/
def push (s : CallStack) (address pc : Int) : Except Fault CallStack :=
  match s.limit with
  | some limit =>
    if limit ≤ s.depth then .error (.stackOverflow pc limit)
    else .ok { s with frames := UInt16.ofNat (address % 65536).toNat :: s.frames }
  | none => .ok { s with frames := UInt16.ofNat (address % 65536).toNat :: s.frames }

/-- Takes the newest entry off; `pc` is the place of the return. -/
def pop (s : CallStack) (pc : Int) : Except Fault (UInt16 × CallStack) :=
  match s.frames with
  | [] => .error (.stackUnderflow pc)
  | top :: rest => .ok (top, { s with frames := rest })

def clear (s : CallStack) : CallStack := { s with frames := [] }

end CallStack

/-- The delay timer and the sound timer. -/
structure Timers where
  delay : Int
  sound : Int
deriving DecidableEq, Repr

namespace Timers

def initial : Timers := ⟨0, 0⟩

/-- One step of a counter that stops at zero. -/
def countDown (n : Int) : Int := if 0 < n then n - 1 else n

def tick (t : Timers) : Timers := ⟨countDown t.delay, countDown t.sound⟩

def ticks : Timers → Nat → Timers
  | t, 0 => t
  | t, n + 1 => t.tick.ticks n

def beeping (t : Timers) : Bool := 0 < t.sound

end Timers

/-- A stream of random bytes and how many of them were used. -/
structure RandomSource where
  stream : Nat → UInt8
  drawn : Nat

namespace RandomSource

/-- The source that repeats a list of bytes; of an empty list, zero for ever. -/
def cycling (bytes : Array UInt8) : RandomSource := ⟨fun k => bytes.getD (k % bytes.size) 0, 0⟩

/-- A well mixed number for a seed and a position. -/
def mix (seed position : UInt64) : UInt64 :=
  let z := seed + position * 0x9E3779B97F4A7C15
  let z := (z ^^^ (z >>> 30)) * 0xBF58476D1CE4E5B9
  let z := (z ^^^ (z >>> 27)) * 0x94D049BB133111EB
  z ^^^ (z >>> 31)

/-- The source that mixes a seed. -/
def seeded (seed : UInt64) : RandomSource := ⟨fun k => (mix seed (UInt64.ofNat k)).toUInt8, 0⟩

def next (r : RandomSource) : UInt8 × RandomSource :=
  (r.stream r.drawn, { r with drawn := r.drawn + 1 })

end RandomSource

end ChipEight
