import ChipEight.Fault
import ChipEight.Machine.Digit

/-!
# The keypad

Sixteen keys, each pressed or not. A key is named by an integer, and one outside 0 to 15 is a fault
that changes nothing. `update` replaces the pressed keys by a list, pressing them one after the
other: an invalid key in the list leaves exactly the keys before it pressed.
-/

namespace ChipEight

def keyCount : Nat := 16

/-- The state of the sixteen keys. -/
structure Keypad where
  keys : Vector Bool 16
deriving DecidableEq, Repr

namespace Keypad

/-- A step that changes a keypad and may fail. -/
abbrev Action := EStateM Fault Keypad

/-- No key is pressed. -/
def released : Keypad := ⟨Vector.replicate 16 false⟩

/-- The key with a number, if there is one. -/
def key? (n : Int) : Option (Fin 16) :=
  if h : 0 ≤ n ∧ n < 16 then some ⟨n.toNat, toNat_lt_sixteen h⟩ else none

/-- Is the key pressed? A fault names the place `pc` if one is given. -/
def isPressed (k : Keypad) (key : Int) (pc : Option Int) : Except Fault Bool :=
  match key? key with
  | some i => .ok (k.keys.get i)
  | none => .error (.invalidKey key pc)

def withKey (k : Keypad) (key : Fin 16) (pressed : Bool) : Keypad :=
  ⟨k.keys.set key.val pressed (digit_lt key)⟩

/-- Presses or releases a key. -/
def set (k : Keypad) (key : Int) (pressed : Bool) : Except Fault Keypad :=
  match key? key with
  | some i => .ok (k.withKey i pressed)
  | none => .error (.invalidKey key none)

def press (k : Keypad) (key : Int) : Except Fault Keypad := k.set key true

def release (k : Keypad) (key : Int) : Except Fault Keypad := k.set key false

/-- Presses keys one after the other, up to the first invalid one. -/
def pressAll : List Int → Action Unit
  | [] => pure ()
  | key :: rest => do
    match (← get).press key with
    | .ok k => EStateM.set k
    | .error e => throw e
    pressAll rest

/-- Releases all keys, then presses the given ones. -/
def update (keys : List Int) : Action Unit := do
  EStateM.set released
  pressAll keys

/-- The numbers of the pressed keys in increasing order. -/
def pressed (k : Keypad) : List (Fin 16) := (List.finRange 16).filter fun i => k.keys.get i

def firstPressed (k : Keypad) : Option (Fin 16) := (List.finRange 16).find? fun i => k.keys.get i

end Keypad

end ChipEight
