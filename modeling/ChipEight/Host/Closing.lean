import ChipEight.Host.Basic

/-!
# Closing a host

A host is used for a body of work and closed after it, whether the body fails or not. It consists of
parts, which are closed one after the other, each of them even if an earlier one fails. A failure
takes the place of the one before it, so that the last one is reported.
-/

namespace ChipEight

/-- How the parts of a host are closed. A surface that cannot be closed is left out. -/
structure Closers (ε σ : Type) where
  audio : EStateM ε σ Unit
  input : EStateM ε σ Unit
  display : EStateM ε σ Unit
  surface : Option (EStateM ε σ Unit)

namespace Closers

variable {ε σ : Type}

/-- Closes all parts. -/
def close (c : Closers ε σ) : EStateM ε σ Unit := do
  try
    try
      c.audio
    finally
      try
        c.input
      finally
        c.display
  finally
    c.surface.getD (pure ())

/-- The parts in the order in which they are closed. -/
def parts (c : Closers ε σ) : List (EStateM ε σ Unit) :=
  [c.audio, c.input, c.display] ++ c.surface.toList

end Closers

namespace Host

/-- Closes the window, if there is one. -/
def closeWindow : Host → Host
  | .headless h => .headless h
  | .window w => .window w.close

/-- How the parts of a host are closed: a window falls silent and is closed; a headless host has
nothing to close. -/
def closers : Host → Closers Fault Host
  | .headless _ => { audio := pure (), input := pure (), display := pure (), surface := none }
  | .window _ =>
    { audio := modify stopBeep
      input := pure ()
      display := pure ()
      surface := some (modify closeWindow) }

/-- Closes a host. -/
def close (h : Host) : EStateM.Result Fault Host Unit := h.closers.close.run h

end Host

end ChipEight
