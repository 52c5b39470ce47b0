import ChipEight.Proofs.Failure
import ChipEight.Proofs.Host.Frames
import ChipEight.Proofs.Machine.Faults
import ChipEight.Proofs.Machine.Range
import ChipEight.Proofs.Number.Value
import ChipEight.Proofs.Session.Reasons

/-!
# Runs of a launched session

A launched session has a machine in range and a plain stage: time passes in its waits only, nobody
asks it to stop, and its headless host follows no script. `Launched.completed` says that a turn
leaves it so. Its run ends with its time, or by a fault of the machine or the host, or in the first
wait, if the system refuses to wait for a period (`run_fault`): the arithmetic at its end does not
overflow, since its clock has moved on by one wait at most since the time was not over.
-/

namespace ChipEight

open Binary64 (integerBound overflowBound)

/-! ## The host -/

namespace FrameRecorder

variable {d : FrameRecorder} {screen : Screen} {files : FileTree} {e : Fault}

/-- **A plain display** enlarges its pictures as usual, and its directory has no null character. -/
structure Plain (d : FrameRecorder) : Prop where
  zoom : d.zoom = standardZoom
  directory : ∀ path ∈ d.directory, path.Unbroken

theorem plain_congr {d d' : FrameRecorder} (directory : d'.directory = d.directory)
    (zoom : d'.zoom = d.zoom) : d'.Plain = d.Plain :=
  propext ⟨fun plain => ⟨zoom ▸ plain.zoom, directory ▸ plain.directory⟩,
    fun plain => ⟨zoom ▸ plain.zoom, directory ▸ plain.directory⟩⟩

/-- A file that is refused is a failure of the host; only a null character is none. -/
theorem isOperational_fileFault {attempt : String} {cause : FileError} (other : cause ≠ .nullByte) :
    (fileFault attempt cause).isOperational = true := by
  cases cause with
  | refused problem path => rfl
  | nullByte => exact absurd rfl other

/-- A display fails to be made for want of its directory only, which is a failure of the host unless
the directory has a null character; else it is plain. -/
theorem make_cases (directory : Option String) (files : FileTree) :
    match make directory standardZoom files with
    | .ok (d, _) => d.Plain
    | .error e => e.isOperational = true ∨
        e = .file .nullByte ∧ ∃ text ∈ directory, FileTree.hasNull text = true := by
  unfold make
  cases directory with
  | none => exact ⟨rfl, nofun⟩
  | some text =>
    dsimp only
    cases made : files.makeDirectories (Path.ofText text) with
    | ok files =>
      refine ⟨rfl, ?_⟩
      rintro _ ⟨⟩
      exact FileTree.unbroken_of_makeDirectories made
    | error cause =>
      cases cause with
      | refused problem path => exact .inl rfl
      | nullByte =>
        refine .inr ⟨rfl, text, rfl, ?_⟩
        by_contra clear
        have unbroken := Path.unbroken_ofText.mpr (Bool.eq_false_iff.mpr clear)
        exact FileTree.makeDirectories_fails unbroken _ made rfl

/-- A picture with the usual enlargement can be drawn, so that only its file can fail. -/
theorem save_eq_error {directory : Path} {raster : Raster} (zoom : d.zoom = standardZoom)
    (unbroken : directory.Unbroken) (width : raster.width = Screen.standardWidth)
    (height : raster.height = Screen.standardHeight)
    (failed : d.save directory raster files = .error e) : e.isOperational = true := by
  obtain ⟨picture, drawn⟩ :
      ∃ picture, Picture.render raster d.zoom .white .black = .ok picture := by
    rw [zoom, Picture.render, width, height]
    exact ⟨_, rfl⟩
  unfold save at failed
  rw [drawn] at failed
  simp only [bind, Except.bind] at failed
  cases written : files.write (directory.child (frameName d.written)).text (.picture picture) with
  | ok files' =>
    rw [written] at failed
    cases failed
  | error cause =>
    rw [written] at failed
    cases failed
    have clear := Path.hasNull_text.mpr (unbroken.child (hasNull_frameName d.written))
    exact isOperational_fileFault (FileTree.write_fails clear _ written)

theorem Plain.present_eq_error (plain : d.Plain)
    (width : screen.raster.width = Screen.standardWidth)
    (height : screen.raster.height = Screen.standardHeight)
    (failed : (d.present screen files).answer = .error e) : e.isOperational = true := by
  unfold present at failed
  dsimp only at failed
  split at failed
  · cases failed
  · split at failed
    case h_1 => cases failed
    case h_2 directory written =>
      split at failed
      case h_1 => cases failed
      case h_2 cause saved =>
        cases failed
        exact save_eq_error (d := { d with presented := d.presented + 1, lastFrame := some _ })
          plain.zoom (plain.directory directory written) width height saved

end FrameRecorder

/-- A poll changes neither the script nor its end. -/
theorem ScriptedInput.poll_keeps (input : ScriptedInput) (keypad : Keypad) :
    (input.poll keypad).world.script = input.script ∧
      (input.poll keypad).world.quitAfter = input.quitAfter := by
  have cases := input.poll_cases keypad
  cases said : (input.poll keypad).answer with
  | ok goesOn =>
    rw [said] at cases
    rw [cases.2]
    cases goesOn <;> exact ⟨rfl, rfl⟩
  | error e =>
    rw [said] at cases
    rw [cases.2]
    exact ⟨rfl, rfl⟩

/-- **A plain headless host** has a plain display, and its input has no script. -/
structure Headless.Plain (h : Headless) : Prop where
  display : h.display.Plain
  script : h.input.script = #[]
  quitAfter : h.input.quitAfter = none

theorem Headless.plain_congr {h h' : Headless} (display : h'.display.Plain = h.display.Plain)
    (script : h'.input.script = h.input.script)
    (quitAfter : h'.input.quitAfter = h.input.quitAfter) : h'.Plain = h.Plain :=
  propext
    ⟨fun plain => ⟨display.mp plain.display, script ▸ plain.script, quitAfter ▸ plain.quitAfter⟩,
      fun plain =>
        ⟨display.mpr plain.display, script ▸ plain.script, quitAfter ▸ plain.quitAfter⟩⟩

namespace Host

/-- A plain host is headless. -/
def Plain : Host → Prop
  | .headless h => h.Plain
  | .window _ => False

variable {h : Host}

theorem plain_poll (h : Host) (keypad : Keypad) : (h.poll keypad).world.Plain = h.Plain := by
  cases h with
  | headless h =>
    obtain ⟨script, quitAfter⟩ := h.input.poll_keeps keypad
    exact Headless.plain_congr rfl script quitAfter
  | window v =>
    unfold poll
    dsimp only
    split <;> rfl

theorem plain_present (h : Host) (now : Number) (screen : Screen) (files : FileTree) :
    (h.present now screen files).world.1.Plain = h.Plain := by
  cases h with
  | headless h =>
    obtain ⟨directory, zoom⟩ := h.display.settings_present screen files
    exact Headless.plain_congr (FrameRecorder.plain_congr directory zoom) rfl rfl
  | window v => rfl

theorem plain_startBeep (h : Host) : h.startBeep.Plain = h.Plain := by
  cases h with
  | headless h => exact Headless.plain_congr rfl rfl rfl
  | window v => rfl

theorem plain_stopBeep (h : Host) : h.stopBeep.Plain = h.Plain := by
  cases h with
  | headless h => exact Headless.plain_congr rfl rfl rfl
  | window v => rfl

/-- The poll of a plain host goes on. -/
theorem Plain.poll (plain : h.Plain) (keypad : Keypad) : (h.poll keypad).answer = .ok true := by
  cases h with
  | headless h =>
    have going : h.input.isOver = false := by rw [ScriptedInput.isOver, plain.quitAfter]; rfl
    have unscripted : h.input.entry? = none := by rw [ScriptedInput.entry?, plain.script]; rfl
    change (h.input.poll keypad).answer = _
    rw [ScriptedInput.poll, going, unscripted]
    rfl
  | window v => exact plain.elim

theorem Plain.present_eq_error (plain : h.Plain) {now : Number} {screen : Screen}
    {files : FileTree} {e : Fault} (width : screen.raster.width = Screen.standardWidth)
    (height : screen.raster.height = Screen.standardHeight)
    (failed : (h.present now screen files).answer = .error e) : e.isOperational = true := by
  cases h with
  | headless h => exact plain.display.present_eq_error width height failed
  | window v => exact plain.elim

theorem Plain.raster_present (plain : h.Plain) (now : Number) (screen : Screen)
    (files : FileTree) : (h.present now screen files).screen.raster = screen.raster := by
  cases h with
  | headless h => exact h.display.raster_present screen files
  | window v => exact plain.elim

end Host

/-! ## The stage -/

namespace Stage

/-- **A plain stage**: time passes in waits only, nobody asks to stop, and the host is plain. -/
structure Plain (s : Stage) : Prop where
  stride : s.stride = 0
  stalls : s.stalls = []
  stopAt : s.stopAt = none
  host : s.host.Plain

theorem plain_congr {s s' : Stage} (stride : s'.stride = s.stride) (stalls : s'.stalls = s.stalls)
    (stopAt : s'.stopAt = s.stopAt) (host : s'.host.Plain = s.host.Plain) : s'.Plain = s.Plain :=
  propext ⟨fun plain => ⟨stride ▸ plain.stride, stalls ▸ plain.stalls, stopAt ▸ plain.stopAt,
      host ▸ plain.host⟩,
    fun plain => ⟨stride ▸ plain.stride, stalls ▸ plain.stalls, stopAt ▸ plain.stopAt,
      host ▸ plain.host⟩⟩

/-- A stage stays plain. -/
theorem plain : world.AtPolls Plain id where
  readClock _ := plain_congr rfl rfl rfl rfl
  sleep := sleep_keeps fun _ _ _ => plain_congr rfl rfl rfl rfl
  poll m s := plain_congr rfl rfl rfl (s.host.plain_poll m.keypad)
  present screen s := plain_congr rfl rfl rfl (s.host.plain_present s.seconds screen s.files)
  startBeep s := plain_congr rfl rfl rfl s.host.plain_startBeep
  stopBeep s := plain_congr rfl rfl rfl s.host.plain_stopBeep

theorem keepsLongestWait : world.AtPolls longestWait id where
  readClock _ := rfl
  sleep := sleep_keeps fun _ _ _ => rfl
  poll _ _ := rfl
  present _ _ := rfl
  startBeep _ := rfl
  stopBeep _ := rfl

/-- A wait that is not too long is as long as it would be without a greatest one. -/
theorem sleepLength_of_waitLength {longest : Option Int} {nanos length : Int}
    (waits : waitLength longest nanos = .ok length) : sleepLength nanos = .ok length := by
  unfold waitLength at waits
  obtain ⟨n, asked, waits⟩ := bind_eq_ok_iff.mp waits
  dsimp only at waits
  split at waits
  · cases waits
  · cases waits
    exact mapError_eq_ok_iff.mp asked

/-- A wait has 1024 bits at most. -/
theorem waitLength_bounds {longest : Option Int} {nanos length : Int}
    (waits : waitLength longest nanos = .ok length) : length.natAbs ≤ integerBound := by
  obtain ⟨seconds, -, rounded⟩ := bind_eq_ok_iff.mp (sleepLength_of_waitLength waits)
  exact Binary64.round_bounds (Binary64.mul_canonical ..) (mapError_eq_ok_iff.mp rounded)

/-- A stage brings a wait to seconds itself, so that nothing is refused before it. -/
theorem waitFor_eq {nanos : Int} (positive : 0 < nanos) (s : Stage) :
    world.waitFor nanos s = sleep nanos s := by
  unfold World.waitFor
  rw [if_neg (by omega)]
  cases seconds : Number.div (.int nanos) (.int nanosPerSecond) with
  | ok _ => rfl
  | error e =>
    have refused : waitLength s.longestWait nanos = .error (.number e) := by
      simp only [waitLength, sleepLength, seconds, bind, Except.bind, Except.mapError]
    simp only [sleep, refused]

end Stage

namespace Run

variable {limit : Option Nat} {longest : Option Int} {period : Int} {r : Run Stage}

/-- **A launched run**: its machine is in range and its stage is plain. -/
structure Launched (limit : Option Nat) (longest : Option Int) (period : Int) (r : Run Stage) :
    Prop where
  inRange : r.session.machine.InRange limit
  plain : r.session.world.Plain
  longest : r.session.world.longestWait = longest
  period : r.session.period = period
  start : r.start = 0

theorem clock_withBeeper (on : Bool) (s : Session Stage) :
    (withBeeper Stage.world on s).world.clock = s.world.clock := by
  unfold withBeeper
  split
  · rfl
  · cases on <;> rfl

/-- On a stage, the work of a turn takes the stride of the clock and the stall of the poll. -/
theorem clock_served (r : Run Stage) (journal : Journal) :
    (((r.attended Stage.world).stepped journal).served Stage.world).session.world.clock =
      r.session.world.clock + r.session.world.stride +
        r.session.world.stallAt r.session.world.notes.size :=
  clock_withBeeper _ (((r.attended Stage.world).stepped journal).presented Stage.world).session

/-- On a stage whose readings take no time, a wait that begins at once is a whole period. -/
theorem pacing_eq {began : Int} (still : r.session.world.stride = 0)
    (now : r.session.world.clock = began) (positive : 1 ≤ r.session.period) :
    r.pacing Stage.world began = Stage.sleep r.session.period r.session.world := by
  have reading : Stage.world.readClock r.session.world = (began, r.session.world) := by
    change (r.session.world.clock, { r.session.world with
      clock := r.session.world.clock + r.session.world.stride }) = _
    rw [still, Int.add_zero, ← now]
  have rest : began + r.session.period - began = r.session.period := by omega
  unfold pacing
  rw [reading]
  dsimp only
  rw [rest, Stage.waitFor_eq (by omega)]

namespace Launched

theorem attended_machine (launched : Launched limit longest period r) :
    (r.attended Stage.world).session.machine.InRange limit :=
  { launched.inRange.ticks _ with toRepresented := Machine.represented _ }

/-- The poll of a launched run goes on. -/
theorem poll (launched : Launched limit longest period r) :
    ((r.entered Stage.world).polling Stage.world).answer = .ok true :=
  launched.plain.host.poll _

theorem asks (launched : Launched limit longest period r) : r.asks Stage.world = false :=
  Stage.calm.asks launched.plain.stopAt

/-- The step of a launched run keeps its machine in range. -/
theorem next (launched : Launched limit longest period r)
    (clear : (r.attended Stage.world).session.machine.fault? = none) :
    (r.attended Stage.world).session.machine.next.InRange limit :=
  launched.attended_machine.next clear

theorem plain_attended (launched : Launched limit longest period r) :
    (r.attended Stage.world).session.world.Plain := (Stage.plain.attended r).mpr launched.plain

/-- Up to its wait, a turn leaves the clock alone. -/
theorem clock_served (launched : Launched limit longest period r) (journal : Journal) :
    (((r.attended Stage.world).stepped journal).served Stage.world).session.world.clock =
      r.session.world.clock := by
  have still : r.session.world.stallAt r.session.world.notes.size = 0 := by
    rw [Stage.stallAt, launched.plain.stalls]
    rfl
  rw [Run.clock_served, still, launched.plain.stride, Int.add_zero, Int.add_zero]

/-- A completed turn of a launched run waits for a period. -/
theorem pacing (launched : Launched limit longest period r) (positive : 1 ≤ period)
    (journal : Journal) :
    (((r.attended Stage.world).stepped journal).served Stage.world).pacing Stage.world
        (r.reading Stage.world) =
      Stage.sleep period
        (((r.attended Stage.world).stepped journal).served Stage.world).session.world := by
  have plainly : (((r.attended Stage.world).stepped journal).served
      Stage.world).session.world.Plain :=
    (Stage.plain.withBeeper _ _).mpr ((Stage.plain.present _ _).mpr launched.plain_attended)
  have waits : (((r.attended Stage.world).stepped journal).served Stage.world).session.period =
      period := by
    unfold Run.served beeped counted
    dsimp only
    rw [withBeeper_eq]
    exact launched.period
  -- The wait begins where the turn has begun, so that it is a whole period.
  have paced := pacing_eq plainly.stride (launched.clock_served journal) (positive.trans waits.ge)
  rw [waits] at paced
  exact paced

/-- The system of a launched run stays the same. -/
theorem longest_served (launched : Launched limit longest period r) (journal : Journal) :
    (((r.attended Stage.world).stepped journal).served Stage.world).session.world.longestWait =
      longest :=
  calc _
    _ = (((r.attended Stage.world).stepped journal).presented
          Stage.world).session.world.longestWait := Stage.keepsLongestWait.withBeeper _ _
    _ = (r.attended Stage.world).session.world.longestWait := Stage.keepsLongestWait.present _ _
    _ = r.session.world.longestWait := Stage.keepsLongestWait.attended r
    _ = longest := launched.longest

/-- The faults of a launched run are those of its machine and its host, and that of a wait for a
period. -/
theorem fault {bounds : Bounds} {r' : Run Stage} {e : Fault}
    (launched : Launched limit longest period r) (positive : 1 ≤ period)
    (failed : Turned Stage.world bounds r (.error e r')) :
    e.isOperational = true ∨ Stage.waitLength longest period = .error e := by
  cases failed with
  | pollFailed within failed =>
    rw [launched.poll] at failed
    cases failed
  | stepFailed within goes met journal =>
    exact .inl (launched.attended_machine.wellFormed.fault?_eq_some_iff.mp met).isOperational
  | presentFailed within goes clear journal failed =>
    have stepped := launched.next clear
    exact .inl (launched.plain_attended.host.present_eq_error stepped.width stepped.height failed)
  | waitFailed within goes clear journal shown failed =>
    rw [launched.pacing positive] at failed
    rcases Stage.sleep_cases period (((r.attended Stage.world).stepped journal).served
      Stage.world).session.world with ⟨e', refused, slept⟩ | ⟨length, -, slept⟩
    · rw [slept] at failed
      cases failed
      rw [launched.longest_served] at refused
      exact .inr refused
    · rw [slept] at failed
      cases failed

/-- **A turn leaves a launched run launched**, and its clock has moved on by one wait. -/
theorem completed (launched : Launched limit longest period r) (positive : 1 ≤ period)
    (clear : (r.attended Stage.world).session.machine.fault? = none) (journal : Journal)
    (waited : r.waiting Stage.world journal = .ok ()) :
    Launched limit longest period (r.completed Stage.world journal) ∧
      ∃ length, Stage.waitLength longest period = .ok length ∧
        (r.completed Stage.world journal).session.world.clock =
          r.session.world.clock + length := by
  have plain := launched.plain_attended
  have raster : (((r.attended Stage.world).stepped journal).presenting Stage.world).screen.raster =
      (r.attended Stage.world).session.machine.next.screen.raster :=
    plain.host.raster_present ..
  have stepped := launched.next clear
  obtain ⟨on, world, left⟩ := completed_session (w := Stage.world) r journal
  refine ⟨⟨?_, ?_, ?_, ?_, launched.start⟩, ?_⟩
  · rw [completed_machine]
    exact { stepped with
      toRepresented := Machine.represented _
      width := raster ▸ stepped.width
      height := raster ▸ stepped.height }
  · exact (Stage.plain.completed r journal).mpr launched.plain
  · exact (Stage.keepsLongestWait.completed r journal).trans launched.longest
  · rw [left]
    exact launched.period
  · rw [waiting, launched.pacing positive] at waited
    obtain ⟨length, waits, moved⟩ := Stage.sleep_of_ok waited
    rw [launched.longest_served] at waits
    refine ⟨length, waits, ?_⟩
    rw [← launched.clock_served journal]
    change ((((r.attended Stage.world).stepped journal).served Stage.world).pacing Stage.world
      (r.reading Stage.world)).world.clock = _
    rw [launched.pacing positive, moved]

end Launched

/-! ## A whole run -/

variable {nanos : Option Int} {r₀ : Run Stage} {k : Nat} {asked : Bool}

/-- **The clock of a launched run**: it has not moved yet, or it has moved on by one wait at most
since the time of the run was not over. -/
def OnTime (nanos longest : Option Int) (period : Int) (r : Run Stage) : Prop :=
  ∀ n ∈ nanos, r.session.world.clock = 0 ∨ ∃ length, Stage.waitLength longest period = .ok length ∧
    0 < n ∧ r.session.world.clock < n + length

/-- At an entry at which the time is over, the clock shows it. -/
theorem Launched.limit_iff (launched : Launched limit longest period r) :
    limitReached ⟨none, nanos⟩ (r.entered Stage.world) (r.reading Stage.world) = none ↔
      ∀ n ∈ nanos, r.session.world.clock < n := by
  have start : (r.entered Stage.world).start = 0 := launched.start
  have reading : r.reading Stage.world = r.session.world.clock := rfl
  unfold limitReached
  rw [start, reading, Int.sub_zero]
  cases nanos with
  | none => simp
  | some n => simp

theorem Enters.launched (entered : Enters Stage.world ⟨none, nanos⟩ r₀ k asked r)
    (launched : Launched limit longest period r₀) (zero : r₀.session.world.clock = 0)
    (positive : 1 ≤ period) : Launched limit longest period r ∧ OnTime nanos longest period r := by
  refine entered.induction
    (P := fun _ r => Launched limit longest period r ∧ OnTime nanos longest period r)
    ⟨launched, fun n _ => .inl zero⟩ ?_
  rintro k r journal - ⟨launched, onTime⟩ within - clear - waited
  obtain ⟨next, length, waits, clock⟩ := launched.completed positive clear journal waited
  refine ⟨next, fun n among => .inr ⟨length, waits, ?_⟩⟩
  have early := launched.limit_iff.mp within n among
  rw [clock]
  rcases onTime n among with zero | ⟨-, -, later, -⟩
  · omega
  · omega

/-- A launched run that ends for a reason ends because its time is over. -/
theorem Ended.launched {turns : Nat} {reason : StopReason} {r' : Run Stage}
    (ended : Ended Stage.world ⟨none, nanos⟩ r₀ turns (.ok (some reason) r'))
    (launched : Launched limit longest period r₀) (zero : r₀.session.world.clock = 0)
    (positive : 1 ≤ period) :
    r'.start = 0 ∧ ∃ n ∈ nanos, n ≤ r'.session.world.clock ∧ OnTime nanos longest period r' := by
  cases ended with
  | stopped entered =>
    have unasked := entered.not_asked fun j r entered =>
      (entered.launched launched zero positive).1.asks
    cases unasked
  | @finished k r _ _ entered last =>
    obtain ⟨launched, onTime⟩ := entered.launched launched zero positive
    cases last with
    | limit reached =>
      have passed : ¬∀ n ∈ nanos, r.session.world.clock < n := by
        rw [← launched.limit_iff, reached]
        exact Option.some_ne_none _
      have clock : (r.entered Stage.world).session.world.clock = r.session.world.clock := by
        change r.session.world.clock + r.session.world.stride = _
        rw [launched.plain.stride, Int.add_zero]
      push Not at passed
      obtain ⟨n, among, late⟩ := passed
      refine ⟨launched.start, n, among, by rwa [clock], fun n among => ?_⟩
      rw [clock]
      exact onTime n among
    | quit within quits =>
      rw [launched.poll] at quits
      cases quits

end Run

namespace Session

variable {limit : Option Nat} {nanos longest : Option Int} {s s' : Session Stage}

/-- The length of a run that is not too long can be told in seconds. -/
theorem exists_settle {elapsed : Int} (small : elapsed.natAbs ≤ 2 * integerBound)
    (reason : StopReason) (counts : Counts) (s : Session σ) :
    ∃ stats, (settle reason counts elapsed s).1 = .ok stats := by
  have ratio : (elapsed.natAbs : ℚ) / nanosPerSecond.natAbs < overflowBound := by
    have size : (elapsed.natAbs : ℚ) ≤ 2 * integerBound := by exact_mod_cast small
    have positive : (0 : ℚ) < 2 ^ (971 : Int) := by positivity
    have second : ((nanosPerSecond.natAbs : Nat) : ℚ) = 1000000000 := by norm_num [nanosPerSecond]
    rw [Binary64.integerBound_eq] at size
    rw [second, div_lt_iff₀ (by norm_num), Binary64.overflowBound_eq]
    generalize (2 : ℚ) ^ (971 : Int) = unit at *
    norm_num at size ⊢
    linarith
  unfold settle
  rw [Number.div_int (by decide : nanosPerSecond ≠ 0) ratio]
  exact ⟨_, rfl⟩

/-- **A session that is ready to run.** -/
structure Ready (limit : Option Nat) (longest : Option Int) (s : Session Stage) : Prop where
  inRange : s.machine.InRange limit
  plain : s.world.Plain
  longest : s.world.longestWait = longest
  clock : s.world.clock = 0
  period : 1 ≤ s.period ∧ s.period.natAbs ≤ integerBound

theorem Ready.launched (ready : Ready limit longest s) :
    Run.Launched limit longest s.period (s.begun Stage.world) ∧
      (s.begun Stage.world).session.world.clock = 0 := by
  refine ⟨⟨ready.inRange, (Stage.plain.readClock _).mpr ready.plain, ready.longest, rfl,
    ready.clock⟩, ?_⟩
  change s.world.clock + s.world.stride = 0
  rw [ready.clock, ready.plain.stride]
  rfl

/-- **A run that is ready fails by faults of the machine and the host only**, unless the system
refuses to wait for a period. -/
theorem Ready.run_fault (ready : Ready limit longest s)
    (short : ∀ n ∈ nanos, n.natAbs ≤ integerBound) {turns : Nat} {e : Fault}
    (ran : s.run Stage.world ⟨none, nanos⟩ turns = some (.error e, s')) :
    e.isOperational = true ∨ Stage.waitLength longest s.period = .error e := by
  obtain ⟨launched, zero⟩ := ready.launched
  have ended := s.begun_ended Stage.world ⟨none, nanos⟩ turns
  unfold run at ran
  dsimp only at ran
  split at ran
  case h_1 => cases ran
  case h_2 reason r looped =>
    rw [show (Run.loop Stage.world ⟨none, nanos⟩ turns).run (s.begun Stage.world) = _ from looped]
      at ended
    obtain ⟨start, n, among, late, onTime⟩ := ended.launched launched zero ready.period.1
    have elapsed : (close Stage.world r).1 = r.session.world.clock := by
      change (Run.withBeeper Stage.world false { r.session with running := false }).world.clock -
        r.start = _
      rw [Run.clock_withBeeper, start, Int.sub_zero]
    have small : (close Stage.world r).1.natAbs ≤ 2 * integerBound := by
      have limit := short n among
      rw [elapsed]
      rcases onTime n among with zero | ⟨length, waits, positive, early⟩
      · omega
      · have wait := Stage.waitLength_bounds waits
        omega
    obtain ⟨stats, settled⟩ := exists_settle small reason r.counts (close Stage.world r).2
    have answer := congrArg Prod.fst (Option.some.inj ran)
    rw [settled] at answer
    cases answer
  case h_3 f r looped =>
    rw [show (Run.loop Stage.world ⟨none, nanos⟩ turns).run (s.begun Stage.world) = _ from looped]
      at ended
    cases congrArg Prod.fst (Option.some.inj ran)
    cases ended with
    | failed entered last =>
      exact (entered.launched launched zero ready.period.1).1.fault ready.period.1 last

end Session

end ChipEight
