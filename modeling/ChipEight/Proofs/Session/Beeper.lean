import ChipEight.Proofs.Machine.WellFormed
import ChipEight.Proofs.Session.Hosts
import ChipEight.Proofs.Session.Trail

/-!
# The beeper

A session touches the beeper only to change it, and it remembers whether it did: a beeper that was
silent at first is started, stopped, started and so on in turn. A session is **in step** with its
beeper when the beeper plays exactly while the session remembers it to. Every part of a run keeps
the two in step: most of them touch neither, and `withBeeper` touches both.

`beeper_follows_sound_timer` says what this comes to for sessions that are run again and again:
the beeper is silent between the runs, however they end, and inside a run it plays after a turn
exactly if the sound timer is above zero then.
-/

namespace ChipEight

/-! ## A regular beeper -/

/-- **A beeper is regular**: it is started and stopped in turn, and it plays when it was started
last. -/
structure BeepRecorder.Regular (a : BeepRecorder) : Prop where
  alternates : ∀ i (h : i < a.events.length), a.events[i] = if i % 2 = 0 then .start else .stop
  playing : a.playing = true ↔ a.events.length % 2 = 1

namespace BeepRecorder.Regular

variable {a : BeepRecorder}

theorem silent : BeepRecorder.silent.Regular where
  alternates i h := absurd h (Nat.not_lt_zero i)
  playing := by decide

/-- A beeper that does not play was started and stopped equally often. -/
theorem even_of_not_playing (regular : a.Regular) (quiet : a.playing = false) :
    a.events.length % 2 = 0 := by
  have odd := regular.playing
  rw [quiet] at odd
  have even : ¬ a.events.length % 2 = 1 := fun h => Bool.false_ne_true (odd.mpr h)
  omega

/-- A regular beeper stays regular with an event that is due. -/
theorem append (regular : a.Regular) {event : BeepEvent} {playing : Bool}
    (due : event = if a.events.length % 2 = 0 then .start else .stop)
    (plays : playing = true ↔ (a.events.length + 1) % 2 = 1) :
    Regular ⟨a.events ++ [event], playing⟩ where
  alternates i h := by
    rw [List.length_append, List.length_singleton] at h
    by_cases old : i < a.events.length
    · rw [List.getElem_append_left old]
      exact regular.alternates i old
    · have last : i = a.events.length := by omega
      subst last
      rw [List.getElem_concat_length rfl]
      exact due
  playing := by
    rw [List.length_append, List.length_singleton]
    exact plays

theorem start (regular : a.Regular) (quiet : a.playing = false) : a.start.Regular := by
  have even := regular.even_of_not_playing quiet
  refine regular.append ?_ ?_
  · rw [if_pos even]
  · simp only [true_iff]
    omega

theorem stop (regular : a.Regular) (plays : a.playing = true) : a.stop.Regular := by
  have odd := regular.playing.mp plays
  refine regular.append ?_ ?_
  · rw [if_neg (by omega)]
  · simp only [Bool.false_eq_true, false_iff]
    omega

end BeepRecorder.Regular

/-! ## Worlds that record their beeps -/

/-- **A world records its beeps**: `audio` finds a recorder in the state of the world, if there is
one, and only the beeper of the world touches it. -/
structure World.Records (w : World σ) (audio : σ → Option BeepRecorder) : Prop where
  readClock : ∀ s, audio (w.readClock s).2 = audio s
  sleep : ∀ nanos s, audio (w.sleep nanos s).world = audio s
  poll : ∀ m s, audio (w.poll m s).world = audio s
  present : ∀ screen s, audio (w.present screen s).world = audio s
  startBeep : ∀ s, audio (w.startBeep s) = (audio s).map .start
  stopBeep : ∀ s, audio (w.stopBeep s) = (audio s).map .stop

/-- The audio of a headless host. -/
def Host.recorder? : Host → Option BeepRecorder
  | .headless h => some h.audio
  | .window _ => none

/-- A world with a host records its beeps in the audio of the host. -/
theorem World.Hosts.records {w : World σ} {host : σ → Host} (hosts : w.Hosts host) :
    w.Records fun s => (host s).recorder? where
  readClock s := congrArg Host.recorder? (hosts.readClock s)
  sleep nanos s := congrArg Host.recorder? (hosts.sleep nanos s)
  poll m s := by
    rw [hosts.poll]
    cases host s with
    | headless h => rfl
    | window v =>
      simp only [Host.poll]
      split <;> rfl
  present screen s := by
    obtain ⟨now, files, -, -, world⟩ := hosts.present screen s
    rw [world]
    cases host s <;> rfl
  startBeep s := by
    rw [hosts.startBeep]
    cases host s <;> rfl
  stopBeep s := by
    rw [hosts.stopBeep]
    cases host s <;> rfl

/-! ## In step -/

section InStep

variable {σ : Type} {w : World σ} {audio : σ → Option BeepRecorder}

/-- A session is in step with its beeper, which is regular. -/
def Session.InStep (audio : σ → Option BeepRecorder) (s : Session σ) : Prop :=
  ∃ a, audio s.world = some a ∧ a.Regular ∧ a.playing = s.beeping

namespace Session.InStep

variable {s s' : Session σ}

/-- What touches neither the beeper nor the session's memory of it keeps the two in step. -/
theorem of_same (inStep : s.InStep audio) (world : audio s'.world = audio s.world)
    (beeping : s'.beeping = s.beeping) : s'.InStep audio := by
  obtain ⟨a, found, regular, playing⟩ := inStep
  exact ⟨a, world.trans found, regular, playing.trans beeping.symm⟩

theorem withBeeper (inStep : s.InStep audio) (records : w.Records audio) (on : Bool) :
    (Run.withBeeper w on s).InStep audio := by
  obtain ⟨a, found, regular, playing⟩ := inStep
  unfold Run.withBeeper
  split
  case isTrue => exact ⟨a, found, regular, playing⟩
  case isFalse changes =>
    -- The beeper is touched for a change only, so the event is the one that is due.
    cases on with
    | true =>
      have quiet : a.playing = false := by
        rw [playing]
        exact Bool.eq_false_iff.mpr (Ne.symm changes)
      refine ⟨a.start, ?_, regular.start quiet, rfl⟩
      exact (records.startBeep s.world).trans (congrArg _ found)
    | false =>
      have plays : a.playing = true := by
        rw [playing]
        exact (Bool.eq_false_or_eq_true s.beeping).resolve_right (Ne.symm changes)
      refine ⟨a.stop, ?_, regular.stop plays, rfl⟩
      exact (records.stopBeep s.world).trans (congrArg _ found)

/-- A session that is closed is silent. -/
theorem closed (inStep : s.InStep audio) (records : w.Records audio) :
    (s.closed w).InStep audio := by
  have silenced := inStep.withBeeper records false
  refine silenced.of_same ?_ ?_
  · rw [← s.hushed_eq w]
    exact records.readClock _
  · rw [Run.withBeeper_eq]
    rfl

end Session.InStep

namespace Run

variable {bounds : Bounds} {r r₀ r' : Run σ}

/-- The parts of a turn before the beeper is touched leave it alone. -/
theorem inStep_attended (records : w.Records audio) (inStep : r.session.InStep audio) :
    (r.attended w).session.InStep audio :=
  inStep.of_same ((records.poll _ _).trans (records.readClock _)) rfl

theorem inStep_served (records : w.Records audio) (inStep : r.session.InStep audio)
    (journal : Journal) : (((r.attended w).stepped journal).served w).session.InStep audio := by
  have shown : (((r.attended w).stepped journal).presented w).session.InStep audio :=
    (inStep_attended records inStep).of_same (records.present _ _) rfl
  exact shown.withBeeper records _

/-- Every turn keeps a session in step with its beeper, however it ends. -/
theorem Turned.inStep {result : EStateM.Result Fault (Run σ) (Option StopReason)}
    (turned : Turned w bounds r result) (records : w.Records audio)
    (inStep : r.session.InStep audio) : (left result).session.InStep audio := by
  have attended := inStep_attended records inStep
  cases turned with
  | limit => exact inStep.of_same (records.readClock _) rfl
  | quit => exact attended
  | pollFailed => exact attended
  | stepFailed => exact attended.of_same rfl rfl
  | presentFailed => exact attended.of_same (records.present _ _) rfl
  | waitFailed _ _ _ journal | completed _ _ _ journal =>
    have served := inStep_served records inStep journal
    exact served.of_same (paced_world _ records.readClock records.sleep _) rfl

theorem Trail.inStep {readings : List Int} {instructions : List Instruction}
    (trail : Trail w bounds r readings instructions r') (records : w.Records audio)
    (inStep : r.session.InStep audio) : r'.session.InStep audio := by
  induction trail with
  | halt => exact inStep
  | turn turned _ ih => exact ih (turned.inStep records inStep)

theorem Enters.inStep {k : Nat} {asked : Bool} (entered : Enters w bounds r₀ k asked r)
    (records : w.Records audio) (inStep : r₀.session.InStep audio) : r.session.InStep audio := by
  induction entered with
  | first => exact inStep
  | next _ went ih => exact (turned_of_run went).inStep records ih

/-- The run before the wait of a turn, if the turn comes to it. -/
def beforeWait? (w : World σ) (bounds : Bounds) (r : Run σ) : Option (Run σ) :=
  match r.worked w bounds with
  | .ok none r' => some r'
  | _ => none

/-- A turn that comes to its wait carried out an instruction, and then brought the beeper in line
with the sound timer. -/
theorem beforeWait?_eq_some (before : r.beforeWait? w bounds = some r') :
    ∃ i journal, r.carried? w bounds = some i ∧
      r' = ((r.attended w).stepped journal).served w ∧
      r'.session.machine.timers = (r.attended w).session.machine.timersAfter i ∧
      r'.session.beeping = r'.session.machine.timers.beeping := by
  have worked : r.worked w bounds = .ok none r' := goesOn?_eq_some_iff.mp before
  have whole := worked_attempted w bounds r
  rw [worked] at whole
  obtain ⟨within, goes, clear, journal, -, -, rfl⟩ := whole.of_none
  obtain ⟨i, carried, -, changed⟩ := carried?_of_clear within goes clear
  have machine : (((r.attended w).stepped journal).served w).session.machine =
      (((r.attended w).stepped journal).presented w).session.machine := withBeeper_machine _ _
  have timers : (((r.attended w).stepped journal).presented w).session.machine.timers =
      (r.attended w).session.machine.next.timers := rfl
  refine ⟨i, journal, carried, rfl, ?_, ?_⟩
  · rw [machine, timers, changed, Machine.change_eq]
  · rw [machine, served, counted, beeped, withBeeper_eq]
    rfl

end Run

namespace Session

variable {s s' : Session σ} {answer : Except Fault RunStats}

theorem InStep.begun (inStep : s.InStep audio) (records : w.Records audio) :
    (s.begun w).session.InStep audio := inStep.of_same (records.readClock _) rfl

/-- A run keeps a session in step with its beeper and leaves it silent, however it ends. -/
theorem InStep.run {bounds : Bounds} {turns : Nat} (inStep : s.InStep audio)
    (records : w.Records audio) (finished : s.run w bounds turns = some (answer, s')) :
    s'.InStep audio ∧ s'.beeping = false := by
  obtain ⟨r, journal, rfl, trail⟩ := run_trail finished
  have left := trail.inStep records (inStep.begun records)
  exact ⟨(left.closed records).of_same rfl rfl, rfl⟩

/-- A run for a number of seconds is a run, or it is refused and leaves the session as it was. -/
theorem runFor_cases {steps : Option Int} {seconds : Option Number} {turns : Nat}
    (finished : s.runFor w steps seconds turns = some (answer, s')) :
    s' = s ∨ ∃ bounds, s.run w bounds turns = some (answer, s') := by
  unfold runFor at finished
  split at finished
  · cases finished
    exact .inl rfl
  · exact .inr ⟨_, finished⟩

/-- **A session is run again and again**, each time to the end of the run, however that comes. -/
inductive Runs (w : World σ) : Session σ → Session σ → Prop where
  | refl (s : Session σ) : Runs w s s
  | snoc {s₀ s s' : Session σ} {steps : Option Int} {seconds : Option Number} {turns : Nat}
      {answer : Except Fault RunStats} (runs : Runs w s₀ s)
      (finished : s.runFor w steps seconds turns = some (answer, s')) : Runs w s₀ s'

theorem Runs.inStep {s₀ : Session σ} (runs : Runs w s₀ s) (records : w.Records audio)
    (inStep : s₀.InStep audio) (quiet : s₀.beeping = false) :
    s.InStep audio ∧ s.beeping = false := by
  induction runs with
  | refl => exact ⟨inStep, quiet⟩
  | snoc _ finished ih =>
    -- A number of seconds that is none leaves no run to be made.
    rcases runFor_cases finished with rfl | ⟨bounds, finished⟩
    · exact ih
    · exact ih.1.run records finished

/-- **The beeper follows the sound timer.** A session whose beeper was silent at first is run again
and again. Then the beeper was started and stopped in turn, beginning with a start, it was stopped
as often as started, and it does not play. In a further run, once a turn has brought the beeper in
line, it plays exactly if the sound timer is above zero; so it plays if the turn has set the
sound timer to a value that is not zero. -/
theorem beeper_follows_sound_timer (records : w.Records audio) {s₀ : Session σ}
    (fresh : audio s₀.world = some .silent) (quiet : s₀.beeping = false) (runs : Runs w s₀ s) :
    (∃ a, audio s.world = some a ∧ a.Regular ∧ a.events.length % 2 = 0 ∧ a.playing = false) ∧
    ∀ bounds k r r', Run.Enters w bounds (s.begun w) k false r → r.beforeWait? w bounds = some r' →
      ∃ a, audio r'.session.world = some a ∧ a.Regular ∧
        (a.playing = true ↔ 0 < r'.session.machine.timers.sound) ∧
        ∀ x, r.carried? w bounds = some (.setSound x) → r.session.machine.v x ≠ 0 →
          a.playing = true := by
  have first : s₀.InStep audio := ⟨.silent, fresh, .silent, quiet.symm⟩
  obtain ⟨inStep, silent⟩ := runs.inStep records first quiet
  refine ⟨?_, ?_⟩
  · obtain ⟨a, found, regular, playing⟩ := inStep
    rw [silent] at playing
    exact ⟨a, found, regular, regular.even_of_not_playing playing, playing⟩
  · intro bounds k r r' entered before
    obtain ⟨i, journal, carried, rfl, timers, beeping⟩ := Run.beforeWait?_eq_some before
    obtain ⟨a, found, regular, playing⟩ :=
      Run.inStep_served records (entered.inStep records (inStep.begun records)) journal
    -- The session remembers what the sound timer says now, and the beeper does what it remembers.
    rw [beeping] at playing
    refine ⟨a, found, regular, ?_, ?_⟩
    · rw [playing]
      exact decide_eq_true_iff
    · intro x sets loud
      cases carried.symm.trans sets
      have value : 0 < (r.session.machine.v x).toNat :=
        Nat.pos_of_ne_zero fun zero => loud (UInt8.toNat_inj.mp zero)
      rw [playing, timers]
      exact decide_eq_true (Int.natCast_pos.mpr value)

end Session

end InStep

/-- A session on a stage. Its program sets the sound timer to five, and after one more instruction
it returns from a call that was never made. -/
def Session.siren : Session Stage where
  monitored :=
    ⟨.loaded [0x60, 0x05, 0xF0, 0x18, 0x12, 0x06, 0x00, 0xEE], false, .empty⟩
  ticker := ⟨60, 3000 * nanosPerMilli, 0⟩
  hertz := .ofInt 500
  period := 2000000
  beeping := false
  running := false
  world := Stage.make
    (.headless ⟨⟨none, FrameRecorder.standardZoom, 0, 0, none⟩, .make [] none, .silent⟩) .empty

/-- The siren is run for one step, for another one, and until it fails. The second run sets the
sound timer, and the third finds it set. -/
theorem Session.beeper_follows_sound_timer_siren :
    Stage.world.Records (fun x => x.host.recorder?) ∧
    siren.world.host.recorder? = some .silent ∧
    ∃ s₁ s₃, Runs Stage.world siren s₁ ∧ Runs Stage.world siren s₃ ∧
      (∃ r', (s₁.begun Stage.world).beforeWait? Stage.world ⟨some 1, none⟩ = some r' ∧
        ∃ a, r'.session.world.host.recorder? = some a ∧ a.playing = true) ∧
      ∃ a, s₃.world.host.recorder? = some a ∧ a.events = [.start, .stop, .start, .stop] ∧
        a.playing = false := by
  have records : Stage.world.Records (fun x => x.host.recorder?) := Stage.hosts.records
  have fresh : siren.world.host.recorder? = some .silent := rfl
  -- The number of turns is kept out of sight, or the runs are evaluated where they are compared.
  obtain ⟨turns, three⟩ : ∃ turns, turns = 3 := ⟨3, rfl⟩
  have course : ((siren.runFor Stage.world (some 1) none turns).bind fun x =>
      (x.2.runFor Stage.world (some 1) none turns).bind fun y =>
        (y.2.runFor Stage.world none none turns).map fun z =>
          ((x.2.begun Stage.world).carried? Stage.world ⟨some 1, none⟩,
            (x.2.begun Stage.world).session.machine.v 0 != 0,
            ((x.2.begun Stage.world).beforeWait? Stage.world ⟨some 1, none⟩).isSome,
            z.2.world.host.recorder?.map BeepRecorder.events)) =
      some (some (.setSound 0), true, true, some [.start, .stop, .start, .stop]) := by
    rw [three]
    decide +kernel
  obtain ⟨⟨_, s₁⟩, first, course⟩ := Option.bind_eq_some_iff.mp course
  obtain ⟨⟨_, s₂⟩, second, course⟩ := Option.bind_eq_some_iff.mp course
  obtain ⟨⟨_, s₃⟩, third, course⟩ := Option.map_eq_some_iff.mp course
  simp only [Prod.mk.injEq] at course
  obtain ⟨sets, loud, works, events⟩ := course
  have before : Runs Stage.world siren s₁ := .snoc (.refl siren) first
  have whole : Runs Stage.world siren s₃ := .snoc (.snoc before second) third
  obtain ⟨-, follows⟩ := beeper_follows_sound_timer records fresh rfl before
  obtain ⟨⟨a, found, -, -, quiet⟩, -⟩ := beeper_follows_sound_timer records fresh rfl whole
  refine ⟨records, fresh, s₁, s₃, before, whole, ?_, a, found, ?_, quiet⟩
  · obtain ⟨r', before⟩ := Option.isSome_iff_exists.mp works
    obtain ⟨a, found, -, -, heard⟩ := follows ⟨some 1, none⟩ 0 _ r' .first before
    exact ⟨r', before, a, found, heard 0 sets (bne_iff_ne.mp loud)⟩
  · rw [found] at events
    exact Option.some.inj events

end ChipEight
