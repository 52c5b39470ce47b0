import ChipEight.Proofs.Host.Replay
import ChipEight.Proofs.Session.Entries
import ChipEight.Proofs.Session.Hosts

/-!
# Turns with a headless host

What the parts of a turn do to a headless host: the poll moves its script on, the presentation its
display, and the beeper its audio; the clock and the waits leave it alone. `completed_headless` puts
them together for a turn that does not end the run.
-/

namespace ChipEight

/-- A presentation is counted, whether it succeeds or fails. -/
theorem FrameRecorder.presented_present (d : FrameRecorder) (screen : Screen) (files : FileTree) :
    (d.present screen files).world.1.presented = d.presented + 1 := by
  unfold FrameRecorder.present
  dsimp only
  split
  · rfl
  · split
    · rfl
    · split <;> rfl

namespace Run

variable {σ : Type} {w : World σ} {host : σ → Host} {r : Run σ} {h : Headless}

/-- The input of a headless host asks to quit, or goes on, as the script says. -/
theorem polling_headless (hosts : w.Hosts host) (headless : host r.session.world = .headless h) :
    (r.polling w).answer = (h.input.poll r.session.machine.keypad).answer ∧
    (r.polling w).keypad = (h.input.poll r.session.machine.keypad).keypad ∧
    host (r.polling w).world =
      .headless { h with input := (h.input.poll r.session.machine.keypad).world } := by
  have answer := hosts.answer r.session.machine r.session.world
  have keypad := hosts.keypad r.session.machine r.session.world
  have world := hosts.poll r.session.machine r.session.world
  rw [headless] at answer keypad world
  exact ⟨answer, keypad, world⟩

/-- The poll of a turn is a poll of the script, once the clock was read. -/
theorem entered_polling_headless (hosts : w.Hosts host)
    (headless : host r.session.world = .headless h) :
    ((r.entered w).polling w).answer = (h.input.poll r.session.machine.keypad).answer ∧
    ((r.entered w).polling w).keypad = (h.input.poll r.session.machine.keypad).keypad ∧
    host (r.attended w).session.world =
      .headless { h with input := (h.input.poll r.session.machine.keypad).world } :=
  polling_headless (r := r.entered w) hosts ((hosts.readClock _).trans headless)

theorem presenting_headless (hosts : w.Hosts host) (headless : host r.session.world = .headless h) :
    ∃ files,
      (r.presenting w).answer = (h.display.present r.session.machine.screen files).answer ∧
      (r.presenting w).screen = (h.display.present r.session.machine.screen files).screen ∧
      host (r.presented w).session.world =
        .headless
          { h with display := (h.display.present r.session.machine.screen files).world.1 } := by
  obtain ⟨now, files, answer, screen, world⟩ :=
    hosts.present r.session.machine.screen r.session.world
  rw [headless] at answer screen world
  exact ⟨files, answer, screen, world⟩

theorem withBeeper_headless (hosts : w.Hosts host) {s : Session σ}
    (headless : host s.world = .headless h) (on : Bool) :
    ∃ audio, host (withBeeper w on s).world = .headless { h with audio := audio } := by
  unfold withBeeper
  split
  · exact ⟨h.audio, headless⟩
  · exact hosts.withBeep headless on

/-- **A completed turn** leaves the script after its poll and the display after its presentation. -/
theorem completed_headless (hosts : w.Hosts host) (headless : host r.session.world = .headless h)
    (journal : Journal) :
    let screen := (r.attended w).session.machine.next.screen
    ∃ files audio,
      (((r.attended w).stepped journal).presenting w).answer =
        (h.display.present screen files).answer ∧
      (((r.attended w).stepped journal).presenting w).screen =
        (h.display.present screen files).screen ∧
      host (r.completed w journal).session.world =
        .headless ⟨(h.display.present screen files).world.1,
          (h.input.poll r.session.machine.keypad).world, audio⟩ := by
  intro screen
  obtain ⟨-, -, polled⟩ := entered_polling_headless hosts headless
  have stepped : host ((r.attended w).stepped journal).session.world =
      .headless { h with input := (h.input.poll r.session.machine.keypad).world } := polled
  obtain ⟨files, answer, shown, presented⟩ := presenting_headless hosts stepped
  obtain ⟨audio, beeped⟩ := withBeeper_headless hosts
    (s := (((r.attended w).stepped journal).presented w).session) presented
    (((r.attended w).stepped journal).presented w).session.machine.timers.beeping
  exact ⟨files, audio, answer, shown, (paced_world _ hosts.readClock hosts.sleep _).trans beeped⟩

end Run

/-- A session that is closed was silenced at most. -/
theorem Session.closed_headless {σ : Type} {w : World σ} {host : σ → Host} (hosts : w.Hosts host)
    {s : Session σ} {h : Headless} (headless : host s.world = .headless h) :
    ∃ audio, host (s.closed w).world = .headless { h with audio := audio } := by
  obtain ⟨audio, hushed⟩ := Run.withBeeper_headless hosts headless false
  rw [← s.hushed_eq w] at hushed
  exact ⟨audio, (hosts.readClock _).trans hushed⟩

end ChipEight
