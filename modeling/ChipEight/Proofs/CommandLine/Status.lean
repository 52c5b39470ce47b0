import ChipEight.Proofs.Host.Closing
import ChipEight.Proofs.Host.Files
import ChipEight.Proofs.Session.Launched
import ChipEight.Proofs.Session.Starting

/-!
# The status of a launch

A command line for the headless host that is taken ends with a status, 0 if its run comes to an end
and 1 if anything fails: its settings, its program, its host or its run (`headless_outcome`). The
exceptions are the faults that are handed on (`HandedOn`). Some are problems with files: the program
file cannot be looked up or opened although something may be there, or the directory for the
pictures has a null character. The others are numbers that the settings or the command line may
hold: at or below `Session.slowestHertz` there is no session, a period may be longer than the system
waits, and seconds that cannot be brought to nanoseconds allow no run.
-/

namespace ChipEight

open Binary64 (overflowBound integerBound)

/-! ## Before the run -/

/-- Loading a program keeps a machine in range. -/
theorem Monitored.load_cases {limit : Option Nat} {t : Monitored}
    (inRange : t.machine.InRange limit) (image : List UInt8) :
    match (load image).run t with
    | .ok _ t' => t'.machine.InRange limit
    | .error _ _ => True := by
  have loaded := inRange.apply (.load image)
  rw [Operation.apply_load] at loaded
  rw [load_run]
  cases accepted : t.machine.memory.writeFault? programStart image.length with
  | some e => trivial
  | none =>
    rw [accepted] at loaded
    exact loaded

namespace CommandLine

variable {config : Config} {program : String} {a : Arguments} {environment : Environment}
  {files : FileTree}

theorem valid_of_resolve (resolved : resolve program a environment files = .ok config) :
    config.Valid := by
  unfold resolve at resolved
  obtain ⟨_, -, resolved⟩ := bind_eq_ok_iff.mp resolved
  dsimp only at resolved
  split at resolved
  · exact Config.valid_of_withOverrides resolved
  · obtain ⟨_, -, resolved⟩ := bind_eq_ok_iff.mp resolved
    exact Config.valid_of_withOverrides resolved

/-- **The faults that are handed on**, in a system with a greatest wait. -/
inductive HandedOn (config : Config) (a : Arguments) (files : FileTree) (longest : Option Int) :
    Fault → Prop
  /-- The program file cannot be looked up, for more than that nothing is there. -/
  | lost {text : String} {e : FileError} (named : config.rom = some text)
    (lost : files.locate (Path.ofText text).text = .error e) (more : e.isAbsence = false) :
    HandedOn config a files longest (.file e)
  /-- The program file is kept closed. -/
  | closed {text : String} {place : Place} {problem : FileProblem} (named : config.rom = some text)
    (found : files.locate (Path.ofText text).text = .ok place)
    (closed : files.closed place = some problem) :
    HandedOn config a files longest (.file (.refused problem (Path.ofText text).text))
  /-- The directory for the pictures has a null character. -/
  | broken {text : String} (said : a.framesDirectory = some text)
    (null : FileTree.hasNull text = true) : HandedOn config a files longest (.file .nullByte)
  /-- The frequency has no period. -/
  | period (slow : config.hertz.value ≤ Session.slowestHertz) :
    HandedOn config a files longest (.number .outOfRange)
  /-- The system does not wait for a period. -/
  | wait {x : Binary64} {period : Int} {e : Fault}
    (timed : Session.timing config.hertz = .ok (x, period))
    (refused : Stage.waitLength longest period = .error e) : HandedOn config a files longest e
  /-- The seconds are no number. -/
  | undefined (said : a.maxSeconds = some .nan) :
    HandedOn config a files longest (.number .notANumber)
  /-- The seconds are too many to be brought to nanoseconds. -/
  | overflow {x : Binary64} (said : a.maxSeconds = some x)
    (large : x.isInfinite = true ∨ overflowBound ≤ |x.value| * nanosPerSecond) :
    HandedOn config a files longest (.number .outOfRange)

/-- What the program file is looked up for. -/
theorem programPath?_cases (config : Config) (files : FileTree) :
    match programPath? config files with
    | .ok none => True
    | .ok (some path) => ∃ text, config.rom = some text ∧ path = Path.ofText text ∧
        files.hasFile path.text = .ok true
    | .error e => ∃ text, config.rom = some text ∧
        files.locate (Path.ofText text).text = .error e ∧ e.isAbsence = false := by
  unfold programPath?
  cases config.rom with
  | none => trivial
  | some text =>
    dsimp only
    by_cases empty : text.isEmpty = true
    · rw [if_pos empty]
      trivial
    · rw [if_neg empty]
      cases stands : files.hasFile (Path.ofText text).text with
      | error e => exact ⟨text, rfl, FileTree.locate_of_hasFile stands⟩
      | ok there =>
        cases there with
        | false => trivial
        | true => exact ⟨text, rfl, rfl, stands⟩

/-- What a headless host fails for, and what it is made for. -/
theorem makeHost_cases (headless : config.backend = .headless) (directory : Option String)
    (p : Premises) :
    match makeHost config directory p with
    | .ok host p' => host.Plain ∧ p'.desktop = p.desktop
    | .error e _ => e.isOperational = true ∨
        e = .file .nullByte ∧ ∃ text ∈ directory, FileTree.hasNull text = true := by
  have made := FrameRecorder.make_cases directory p.files
  unfold makeHost
  rw [headless]
  dsimp only
  simp only [Premises.makeHost, Premises.report, EStateM.run_bind, EStateM.run_modify,
    EStateM.run_get, HostSettings.standard]
  cases answer : FrameRecorder.make directory FrameRecorder.standardZoom p.files with
  | error e =>
    rw [answer] at made
    simp only [Headless.make, answer, bind, Except.bind]
    exact made
  | ok result =>
    rw [answer] at made
    simp only [Headless.make, answer, bind, Except.bind]
    exact ⟨⟨made, rfl, rfl⟩, rfl⟩

/-- **What a headless launch with valid settings comes to before its run.** It is refused, or it is
broken by a fault that is handed on, or it is ready, with the period of its frequency. -/
def Launch.Sound (config : Config) (a : Arguments) (files : FileTree) (longest : Option Int) :
    Launch → Prop
  | .refused _ => True
  | .broken e => HandedOn config a files longest e
  | .ready s =>
    s.Ready (config.stackLimit.map Int.toNat) longest ∧
      ∃ x, Session.timing config.hertz = .ok (x, s.period)

theorem openSession_sound (valid : config.Valid) (headless : config.backend = .headless)
    (a : Arguments) (path : Path) {m : Monitored}
    (inRange : m.machine.InRange (config.stackLimit.map Int.toNat)) (p : Premises)
    (files : FileTree) :
    (openSession config a.framesDirectory path m p).Sound config a files
      p.desktop.longestWait := by
  have hosted := makeHost_cases headless a.framesDirectory { p with journal := m.journal }
  unfold openSession
  cases made : makeHost config a.framesDirectory { p with journal := m.journal } with
  | error e p' =>
    rw [made] at hosted
    dsimp only at hosted ⊢
    split
    · trivial
    · obtain ⟨rfl, text, said, null⟩ := hosted.resolve_left ‹_›
      exact .broken said null
  | ok host p' =>
    rw [made] at hosted
    obtain ⟨plain, same⟩ := hosted
    dsimp only at same ⊢
    obtain ⟨positive, fast⟩ := valid.hertz
    have small : config.hertz.value < (2 ^ 53 : Nat) :=
      lt_trans fast (by norm_num [Draft.hertzBound])
    obtain ⟨significand, exponent, binary, -⟩ :=
      Number.toBinary64_of_pos valid.finite positive small
    rw [binary]
    dsimp only
    let noted := note p' .info (beginLine path host (.finite false significand exponent))
    rcases Session.make_cases valid { m with journal := noted.journal }
      { Stage.make host noted.files with longestWait := noted.desktop.longestWait } with
      ⟨-, x, period, timed, ready, least, most⟩ | ⟨below, failed⟩
    · rw [ready]
      exact ⟨⟨inRange, ⟨rfl, rfl, rfl, plain⟩, congrArg Desktop.longestWait same, rfl, least, most⟩,
        x, timed⟩
    · rw [failed]
      exact .period below

theorem launch_sound (valid : config.Valid) (headless : config.backend = .headless)
    (a : Arguments) (random : RandomSource) (p : Premises) :
    (launch config a.framesDirectory random p).Sound config a p.files p.desktop.longestWait := by
  have sought := programPath?_cases config p.files
  unfold launch
  dsimp only
  have same : (note p .debug ("Configuration: " ++ config.text)).files = p.files := rfl
  rw [same]
  cases found : programPath? config p.files with
  | error e =>
    rw [found] at sought
    obtain ⟨text, named, lost, more⟩ := sought
    exact .lost named lost more
  | ok path? =>
  cases path? with
  | none => trivial
  | some path =>
    rw [found] at sought
    obtain ⟨text, named, rfl, stands⟩ := sought
    have inRange := Machine.powerOn_inRange (config.stackLimit.map Int.toNat) random
    simp only [Machine.standard_eq valid.stackLimit random]
    generalize Machine.powerOn (config.stackLimit.map Int.toNat) random = machine at inRange ⊢
    cases read : p.files.read (Path.ofText text).text with
    | error e =>
      obtain ⟨place, problem, here, closed, rfl⟩ := FileTree.closed_of_read stands read
      exact .closed named here closed
    | ok image =>
      dsimp only
      let noted := note p .debug ("Configuration: " ++ config.text)
      have loading := Monitored.load_cases (t := ⟨machine, config.debug, noted.journal⟩) inRange
        image
      cases loaded : (Monitored.load image).run ⟨machine, config.debug, noted.journal⟩ with
      | error e m => trivial
      | ok size m =>
        rw [loaded] at loading
        exact openSession_sound valid headless a (Path.ofText text) loading noted p.files

/-! ## The run -/

/-- **What a run that is ready fails for.** -/
theorem runFor_fault {limit : Option Nat} {longest : Option Int} {s s' : Session Stage}
    (ready : s.Ready limit longest) {maxSeconds : Option Binary64} {turns : Nat} {e : Fault}
    (ran : s.runFor Stage.world none (maxSeconds.map .real) turns = some (.error e, s')) :
    e.isOperational = true ∨ Stage.waitLength longest s.period = .error e ∨
      ∃ x ∈ maxSeconds, Session.nanosOfSeconds (.real x) = .error e := by
  have brought := Session.nanos_cases maxSeconds
  unfold Session.runFor at ran
  cases length : (maxSeconds.map Number.real).mapM Session.nanosOfSeconds with
  | ok nanos =>
    rw [length] at brought ran
    exact (ready.run_fault brought ran).imp_right .inl
  | error e' =>
    rw [length] at brought ran
    cases ran
    exact .inr (.inr brought)

/-- **How a session that is ready ends.** It has status 0 if its run comes to its end and status 1
if it fails; it is broken if the system does not wait for its period, or if its seconds cannot be
brought to nanoseconds. -/
theorem runSession_cases {limit : Option Nat} {longest : Option Int} {s : Session Stage}
    (ready : s.Ready limit longest) (debug : Bool) (maxSeconds : Option Binary64) (turns : Nat) :
    match runSession debug maxSeconds turns s with
    | .stopped _ => False
    | .done status _ _ _ _ => ∃ answer s',
        s.runFor Stage.world none (maxSeconds.map .real) turns = some (answer, s') ∧
          status = if answer.isOk then 0 else 1
    | .broken e => Stage.waitLength longest s.period = .error e ∨
        ∃ x ∈ maxSeconds, Session.nanosOfSeconds (.real x) = .error e
    | .unfinished => s.runFor Stage.world none (maxSeconds.map .real) turns = none := by
  unfold runSession
  cases ran : s.runFor Stage.world none (maxSeconds.map .real) turns with
  | none => rfl
  | some result =>
    obtain ⟨answer, s'⟩ := result
    dsimp only
    rw [endSession_run]
    cases answer with
    | ok stats => exact ⟨.ok stats, s', rfl, rfl⟩
    | error e =>
      dsimp only [conclude]
      by_cases operational : e.isOperational = true
      · rw [if_pos operational]
        exact ⟨.error e, s', rfl, rfl⟩
      · rw [if_neg operational]
        exact (runFor_fault ready ran).resolve_left operational

/-! ## The whole course -/

/-- **A command line opens a session**: its settings hold, and its launch is ready. -/
def Opens (program : String) (a : Arguments) (environment : Environment) (p : Premises)
    (random : RandomSource) (s : Session Stage) : Prop :=
  ∃ config, resolve program a environment p.files = .ok config ∧
    launch config a.framesDirectory random p = .ready s

/-- **How a command line may end**: with status 0 after a run that came to its end; with status 1 if
there is no such run; without a status by a fault that is handed on; or not at all, as its run. -/
inductive Outcome (program : String) (a : Arguments) (environment : Environment) (p : Premises)
    (random : RandomSource) (turns : Nat) : Ending → Prop
  | ended {s s' : Session Stage} {stats : RunStats} {lines : List String} {clock : Int}
    {sleeps : Nat} {files : FileTree} (opened : Opens program a environment p random s)
    (ran : s.runFor Stage.world none (a.maxSeconds.map .real) turns = some (.ok stats, s')) :
    Outcome program a environment p random turns (.done 0 lines clock sleeps files)
  | failed {lines : List String} {clock : Int} {sleeps : Nat} {files : FileTree}
    (failed : ∀ s, Opens program a environment p random s → ∀ stats s',
      s.runFor Stage.world none (a.maxSeconds.map .real) turns ≠ some (.ok stats, s')) :
    Outcome program a environment p random turns (.done 1 lines clock sleeps files)
  | broken {config : Config} {e : Fault}
    (resolved : resolve program a environment p.files = .ok config)
    (fault : HandedOn config a p.files p.desktop.longestWait e) :
    Outcome program a environment p random turns (.broken e)
  | unfinished {s : Session Stage} (opened : Opens program a environment p random s)
    (going : s.runFor Stage.world none (a.maxSeconds.map .real) turns = none) :
    Outcome program a environment p random turns .unfinished

/-- A command line opens one session at most. -/
theorem Opens.unique {p : Premises} {random : RandomSource} {s s' : Session Stage}
    (opened : Opens program a environment p random s)
    (opened' : Opens program a environment p random s') : s = s' := by
  obtain ⟨config, resolved, ready⟩ := opened
  obtain ⟨config', resolved', ready'⟩ := opened'
  cases resolved.symm.trans resolved'
  cases ready.symm.trans ready'
  rfl

/-- **Every command line for the headless host has one of these outcomes.** -/
theorem headless_outcome {words : List String} (parsed : parse words = .ok (program, a))
    (headless : ∀ config, resolve program a environment files = .ok config →
      config.backend = .headless)
    (desktop : Desktop) (random : RandomSource) (turns : Nat) :
    Outcome program a environment ⟨files, desktop, .empty⟩ random turns
      (start words environment files desktop random turns) := by
  unfold start
  rw [parsed]
  dsimp only
  cases resolved : resolve program a environment files with
  | error e =>
    refine .failed ?_
    rintro s ⟨config, other, -⟩
    cases resolved.symm.trans other
  | ok config =>
    dsimp only
    have launched := launch_sound (valid_of_resolve resolved) (headless config resolved) a random
      ⟨files, desktop, .empty⟩
    cases course : launch config a.framesDirectory random ⟨files, desktop, .empty⟩ with
    | refused p =>
      refine .failed ?_
      rintro s ⟨config', other, ready⟩
      cases resolved.symm.trans other
      cases course.symm.trans ready
    | broken e =>
      rw [course] at launched
      exact .broken resolved launched
    | ready s =>
      rw [course] at launched
      obtain ⟨ready, x, timed⟩ := launched
      have opened : Opens program a environment ⟨files, desktop, .empty⟩ random s :=
        ⟨config, resolved, course⟩
      have status := runSession_cases ready config.debug a.maxSeconds turns
      dsimp only
      cases ended : runSession config.debug a.maxSeconds turns s with
      | stopped cause =>
        rw [ended] at status
        exact status.elim
      | done code lines clock sleeps files' =>
        rw [ended] at status
        obtain ⟨answer, s', ran, rfl⟩ := status
        cases answer with
        | ok stats => exact .ended opened ran
        | error e =>
          refine .failed fun s₂ opened₂ stats s₂' ran₂ => ?_
          cases opened.unique opened₂
          cases ran.symm.trans ran₂
      | broken e =>
        rw [ended] at status
        rcases status with refused | ⟨x, said, failed⟩
        · exact .broken resolved (.wait timed refused)
        · rcases Session.nanosOfSeconds_eq_error_iff.mp failed with ⟨rfl, rfl⟩ | ⟨large, rfl⟩
          · exact .broken resolved (.undefined said)
          · exact .broken resolved (.overflow said large)
      | unfinished =>
        rw [ended] at status
        exact .unfinished opened status

/-- The status of an ending that has one. -/
def Ending.status? : Ending → Option Nat
  | .done status _ _ _ _ => some status
  | _ => none

/-- The fault that is handed on by an ending. -/
def Ending.fault? : Ending → Option Fault
  | .broken fault => some fault
  | _ => none

/-- A file with a program that draws a digit and then jumps in place for ever. -/
def digit : FileTree :=
  { entries := [(["g.ch8"], .file [0xA0, 0x00, 0xD0, 0x05, 0x12, 0x04])] }

/-- A desktop without a screen, on a system that waits for less than two to the 63rd nanoseconds. -/
def bareDesktop : Desktop :=
  { Desktop.standard with
    videoFailure := some "no screen", channels := 2, longestWait := some (2 ^ 63 - 1) }

/-- What a command line says that runs this program on the headless host for some seconds. -/
def digitArguments (seconds : Binary64) : Arguments :=
  { Arguments.empty with
    program := some "g.ch8", library := some .headless, maxSeconds := some seconds }

/-- A run of a thousandth of a second comes to its end. -/
theorem headless_outcome_digit :
    let words := ["g.ch8", "-l", "headless", "--max-seconds", "0.001"]
    let a := digitArguments (.finite false 4611686018427388 (-62))
    parse words = .ok ("g.ch8", a) ∧
      (∀ config, resolve "g.ch8" a [] digit = .ok config → config.backend = .headless) ∧
      (start words [] digit bareDesktop (.cycling #[]) 5).status? = some 0 ∧
      Outcome "g.ch8" a [] ⟨digit, bareDesktop, .empty⟩ (.cycling #[]) 5
        (start words [] digit bareDesktop (.cycling #[]) 5) := by
  intro words a
  have parsed : parse words = .ok ("g.ch8", a) := by decide +kernel
  have headless : ∀ config, resolve "g.ch8" a [] digit = .ok config →
      config.backend = .headless := by
    have answer : ((resolve "g.ch8" a [] digit).toOption.map Config.backend) = some .headless := by
      decide +kernel
    intro config resolved
    rw [resolved] at answer
    exact Option.some.inj answer
  exact ⟨parsed, headless, by decide +kernel,
    headless_outcome parsed headless bareDesktop (.cycling #[]) 5⟩

/-- **A command line whose fault is handed on**: its seconds are no number. -/
theorem headless_fault_handed_on :
    let words := ["g.ch8", "-l", "headless", "--max-seconds", "nan"]
    let a := digitArguments .nan
    parse words = .ok ("g.ch8", a) ∧
      (resolve "g.ch8" a [] digit).toOption.map Config.backend = some .headless ∧
      (start words [] digit bareDesktop (.cycling #[]) 5).status? = none ∧
      (start words [] digit bareDesktop (.cycling #[]) 5).fault? = some (.number .notANumber) := by
  decide +kernel

/-- The program file is kept closed. -/
example :
    let guarded : FileTree :=
      { digit with closed := fun place => if place = ["g.ch8"] then some .denied else none }
    (start ["g.ch8", "-l", "headless"] [] guarded bareDesktop (.cycling #[]) 5).fault? =
      some (.file (.refused .denied "g.ch8")) := by
  decide +kernel

/-- The period is longer than the system waits. -/
example : (start ["g.ch8", "-l", "headless", "-H", "1e-10"] [] digit bareDesktop (.cycling #[])
    5).fault? = some (.waitTooLong (10 ^ 19)) := by
  decide +kernel

end CommandLine

end ChipEight
