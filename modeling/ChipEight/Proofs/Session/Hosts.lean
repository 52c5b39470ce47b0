import ChipEight.Session.Stage

/-!
# Worlds with a host

A world has a host when its polls, its presentations and its beeper are those of the host, and its
clock and its waits leave the host alone. `World.Hosts` says so of any world: nothing is asked of
what the clock shows, of how long a wait takes, of what lies in the files, or of the polls at which
the session is asked to stop. The world of a stage has the host of the stage (`Stage.hosts`).
-/

namespace ChipEight

/-- **A world has a host**: `host` finds it in the state of the world. -/
structure World.Hosts (w : World σ) (host : σ → Host) : Prop where
  readClock : ∀ s, host (w.readClock s).2 = host s
  sleep : ∀ nanos s, host (w.sleep nanos s).world = host s
  answer : ∀ m s, (w.poll m s).answer = ((host s).poll m.keypad).answer
  keypad : ∀ m s, (w.poll m s).keypad = ((host s).poll m.keypad).keypad
  poll : ∀ m s, host (w.poll m s).world = ((host s).poll m.keypad).world
  present : ∀ screen s, ∃ now files,
    (w.present screen s).answer = ((host s).present now screen files).answer ∧
    (w.present screen s).screen = ((host s).present now screen files).screen ∧
    host (w.present screen s).world = ((host s).present now screen files).world.1
  startBeep : ∀ s, host (w.startBeep s) = (host s).startBeep
  stopBeep : ∀ s, host (w.stopBeep s) = (host s).stopBeep

/-- A wait on a stage is refused and changes nothing, or it moves the clock and is noted. -/
theorem Stage.sleep_cases (nanos : Int) (s : Stage) :
    (∃ e, waitLength s.longestWait nanos = .error e ∧ sleep nanos s = ⟨.error e, s⟩) ∨
      ∃ length, waitLength s.longestWait nanos = .ok length ∧
        sleep nanos s =
          ⟨.ok (), { s with clock := s.clock + length, sleeps := s.sleeps.push length }⟩ := by
  unfold sleep
  cases waitLength s.longestWait nanos with
  | error e => exact .inl ⟨e, rfl, rfl⟩
  | ok length => exact .inr ⟨length, rfl, rfl⟩

/-- A wait that is not refused moves the clock by its length. -/
theorem Stage.sleep_of_ok {nanos : Int} {s : Stage} (slept : (sleep nanos s).answer = .ok ()) :
    ∃ length, waitLength s.longestWait nanos = .ok length ∧
      (sleep nanos s).world =
        { s with clock := s.clock + length, sleeps := s.sleeps.push length } := by
  rcases sleep_cases nanos s with ⟨e, -, refused⟩ | ⟨length, asked, moved⟩
  · rw [refused] at slept
    cases slept
  · rw [moved]
    exact ⟨length, asked, rfl⟩

/-- What speaks of neither the clock nor the waits of a stage is the same after a wait. -/
theorem Stage.sleep_keeps {f : Stage → α}
    (blind : ∀ (s : Stage) clock sleeps, f { s with clock := clock, sleeps := sleeps } = f s)
    (nanos : Int) (s : Stage) : f (world.sleep nanos s).world = f s := by
  change f (sleep nanos s).world = f s
  rcases sleep_cases nanos s with ⟨e, -, refused⟩ | ⟨length, -, slept⟩
  · rw [refused]
  · rw [slept]
    exact blind _ _ _

/-- The world of a stage has the host of the stage. -/
theorem Stage.hosts : Stage.world.Hosts Stage.host where
  readClock _ := rfl
  sleep := sleep_keeps fun _ _ _ => rfl
  answer _ _ := rfl
  keypad _ _ := rfl
  poll _ _ := rfl
  present _ s := ⟨s.seconds, s.files, rfl, rfl, rfl⟩
  startBeep _ := rfl
  stopBeep _ := rfl

/-- A display shows the pixels of a screen and leaves them as they are. -/
theorem FrameRecorder.raster_present (d : FrameRecorder) (screen : Screen) (files : FileTree) :
    (d.present screen files).screen.raster = screen.raster := by
  unfold FrameRecorder.present
  dsimp only
  split
  · rfl
  · split
    · rfl
    · split <;> rfl

/-- A beep on a headless host is heard by its audio alone. -/
theorem World.Hosts.withBeep {w : World σ} {host : σ → Host} (hosts : w.Hosts host) {h : Headless}
    {s : σ} (headless : host s = .headless h) (on : Bool) :
    ∃ audio,
      host (if on then w.startBeep s else w.stopBeep s) = .headless { h with audio := audio } := by
  cases on with
  | true => exact ⟨_, (hosts.startBeep s).trans (congrArg Host.startBeep headless)⟩
  | false => exact ⟨_, (hosts.stopBeep s).trans (congrArg Host.stopBeep headless)⟩

end ChipEight
