import ChipEight.CommandLine.Launch

/-!
# Everything is closed

After a body of work all parts of a host are closed in order, each in the state that the one before
it left, and the last failure is the one that is reported (`Closers.outcome_close`). The parts of the
hosts of a session do not fail, so the end of a session is that of its run
(`CommandLine.endSession_run`), with a window that is silent and closed (`Host.closed_window`).
-/

namespace ChipEight

namespace Closers

variable {ε σ α : Type}

/-- What is left of a computation whose value does not matter: its state, and its failure. -/
def outcome : EStateM.Result ε σ α → σ × Option ε
  | .ok _ s => (s, none)
  | .error e s => (s, some e)

/-- Something more is done after an outcome; if it fails, its failure is the one that counts. -/
def follow (before : σ × Option ε) (more : EStateM ε σ Unit) : σ × Option ε :=
  let after := outcome (more.run before.1)
  (after.1, after.2.or before.2)

/-- What is done in any case is done in the state that the body left. -/
theorem outcome_tryFinally (body : EStateM ε σ α) (more : EStateM ε σ Unit) (s : σ) :
    outcome ((tryFinally body more).run s) = follow (outcome (body.run s)) more := by
  simp only [tryFinally, tryFinally', Functor.map, EStateM.map, EStateM.run, follow]
  cases body s with
  | ok a s' => cases ended : more s' <;> simp [outcome, ended]
  | error e s' => cases ended : more s' <;> simp [outcome, ended]

/-- Doing things after one another and then in any case is doing them one after the other. -/
theorem follow_tryFinally (before : σ × Option ε) (first second : EStateM ε σ Unit) :
    follow before (tryFinally first second) = follow (follow before first) second := by
  simp only [follow, outcome_tryFinally, Option.or_assoc]

/-- **All parts are closed after a body**, whatever fails, and the last failure is reported. -/
theorem outcome_close (c : Closers ε σ) (body : EStateM ε σ α) (s : σ) :
    outcome ((tryFinally body c.close).run s) = c.parts.foldl follow (outcome (body.run s)) := by
  have nested : c.close = tryFinally (tryFinally c.audio (tryFinally c.input c.display))
      (c.surface.getD (pure ())) := rfl
  rw [outcome_tryFinally, nested, follow_tryFinally, follow_tryFinally, follow_tryFinally]
  cases surface : c.surface with
  | none => simp [parts, surface, follow, outcome, pure, EStateM.pure, EStateM.run]
  | some closer => simp [parts, surface]

/-- A body with something after it that does not fail ends as it would end without it. -/
theorem run_tryFinally {more : EStateM ε σ Unit} {change : σ → σ}
    (succeeds : ∀ s, more.run s = .ok () (change s)) (body : EStateM ε σ α) (s : σ) :
    (tryFinally body more).run s =
      match body.run s with
      | .ok a s' => .ok a (change s')
      | .error e s' => .error e (change s') := by
  have after (s' : σ) : more s' = .ok () (change s') := succeeds s'
  simp only [tryFinally, tryFinally', Functor.map, EStateM.map, EStateM.run]
  cases body s with
  | ok a s' => simp only [after]
  | error e s' => simp only [after]

end Closers

namespace Host

/-- The host after it is closed. -/
def closed : Host → Host
  | .headless h => .headless h
  | .window w => .window w.stopBeep.close

/-- **Closing a host does not fail.** -/
theorem close_eq (h : Host) : h.close = .ok () h.closed := by
  cases h <;> rfl

/-- A window that is closed is silent. -/
theorem closed_window (w : Window) : ∃ w', (Host.window w).closed = .window w' ∧
    w'.audio.playing = false ∧ w'.desktop.displayOpen = false := by
  refine ⟨w.stopBeep.close, rfl, ?_, rfl⟩
  unfold Window.close Window.stopBeep
  split
  case isTrue => rfl
  case isFalse silent => exact Bool.eq_false_iff.mpr silent

end Host

namespace CommandLine

/-- A session with its host closed. -/
def withHostClosed (s : Session Stage) : Session Stage :=
  { s with world := { s.world with host := s.world.host.closed } }

/-- **A session ends as its run does**, with its host closed. -/
theorem endSession_run (result : Except Fault RunStats) (s : Session Stage) :
    (endSession result).run s =
      match (conclude result).run s with
      | .ok status s' => .ok status (withHostClosed s')
      | .error e s' => .error e (withHostClosed s') := by
  have succeeds (s : Session Stage) : closeHost.run s = .ok () (withHostClosed s) := by
    simp only [closeHost, EStateM.run, Host.close_eq, withHostClosed]
  rw [endSession, Closers.run_tryFinally succeeds]
  cases (conclude result).run s <;> rfl

end CommandLine

end ChipEight
