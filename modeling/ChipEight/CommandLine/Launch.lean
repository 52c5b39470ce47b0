import ChipEight.CommandLine.Options
import ChipEight.Config.Layers
import ChipEight.Host.Closing
import ChipEight.Session.Stage

/-!
# Launching a program

A command line names a program file. The settings come from the environment, a file of settings and
the command line, in this order. With them the program is loaded into a machine, a host is made, and
a session runs until it ends; then the host is closed. What happens is reported in a journal; of its
entries the detailed ones are shown only if the settings ask for them.

The launch ends with a status, 0 after a run that came to its end and 1 after a failure that was
reported. A fault that is none of a machine or a host is not reported but handed on. So is a problem
with the program file, unless it means that there is no such file.
-/

namespace ChipEight.CommandLine

/-- Who reports on the launch. -/
def source : String := "chip8vm"

/-- What the command line says about the settings. -/
def overrides (program : String) (a : Arguments) : List (String × Datum) := [
  ("rom", .text program),
  ("debug", if a.debug then .bool true else .null),
  ("backend", (a.library.map fun b => Datum.text b.name).getD .null),
  ("hertz", (a.hertz.map Datum.real).getD .null),
  ("window_width", (a.width.map Datum.int).getD .null),
  ("window_height", (a.height.map Datum.int).getD .null),
  ("stack_limit", (a.stackLimit.map Datum.int).getD .null)]

/-- The settings from all layers. -/
def resolve (program : String) (a : Arguments) (environment : Environment) (files : FileTree) :
    Except ConfigError Config := do
  let config ← Config.standard.withEnvironment environment
  let config ←
    match a.config.filter fun path => !path.isEmpty with
    | none => pure config
    | some path => config.mergeFile files path
  config.withOverrides (overrides program a)

/-- How a launch goes before its run. -/
inductive Launch where
  /-- It failed, and the failure is in the journal. -/
  | refused (premises : Premises)
  /-- It failed by a fault that is handed on. -/
  | broken (fault : Fault)
  | ready (session : Session Stage)

/-- The premises with a further entry of the launch. -/
def note (p : Premises) (level : Level) (message : String) : Premises :=
  { p with journal := p.journal.add level source message }

/-- The path of the program file, if there is one and a file stands there. -/
def programPath? (config : Config) (files : FileTree) : Except FileError (Option Path) :=
  match config.rom with
  | none => .ok none
  | some text =>
    if text.isEmpty then .ok none
    else do
      let path := Path.ofText text
      return if ← files.hasFile path.text then some path else none

/-- Makes the host; a directory for pictures is of use to a headless one only. -/
def makeHost (config : Config) (framesDirectory : Option String) (p : Premises) :
    EStateM.Result Fault Premises Host :=
  let settings : HostSettings :=
    { HostSettings.standard with width := config.windowWidth, height := config.windowHeight }
  match config.backend, framesDirectory with
  | .headless, directory =>
    (Premises.makeHost .headless { settings with framesDirectory := directory }).run p
  | backend, none => (Premises.makeHost backend settings).run p
  | backend, some _ =>
    (Premises.makeHost backend settings).run
      (note p .warning ("--frames-dir is only used by the headless backend; ignoring it for " ++
        backend.name))

/-- The report that the run begins. -/
def beginLine (path : Path) (host : Host) (hertz : Binary64) : String :=
  "Running " ++ path.name ++ " with " ++ host.name ++ " backend at " ++ hertz.fixedText 0 ++ " Hz"

/-- Makes the host and the session for a machine with its program. -/
def openSession (config : Config) (framesDirectory : Option String) (path : Path) (m : Monitored)
    (p : Premises) : Launch :=
  match makeHost config framesDirectory { p with journal := m.journal } with
  | .error e p =>
    if e.isOperational then
      .refused (note p .error ("Cannot start " ++ config.backend.name ++ " backend: " ++ e.message))
    else .broken e
  | .ok host p =>
    match config.hertz.toBinary64 with
    | .error e => .broken (.number e)
    | .ok hertz =>
      let p := note p .info (beginLine path host hertz)
      let session := Session.make { m with journal := p.journal } config.hertz
        (.int config.timerHertz) (.int config.maxCatchup)
        { Stage.make host p.files with longestWait := p.desktop.longestWait }
      match session with
      | .ok session => .ready session
      | .error e => .broken e

/-- Loads the program of the settings and opens a session for it. -/
def launch (config : Config) (framesDirectory : Option String) (random : RandomSource)
    (p : Premises) : Launch :=
  let p := note p .debug ("Configuration: " ++ config.text)
  match programPath? config p.files with
  | .error e => .broken (.file e)
  | .ok none => .refused (note p .error ("ROM file does not exist: " ++ config.rom.getD "None"))
  | .ok (some path) =>
    match Machine.standard config.stackLimit random, p.files.read path.text with
    | .error e, _ => .broken e
    | _, .error e => .broken (.file e)
    | .ok machine, .ok image =>
      match (Monitored.load image).run ⟨machine, config.debug, p.journal⟩ with
      | .error e m =>
        let p := { p with journal := m.journal }
        .refused (note p .error ("Cannot load ROM " ++ path.text ++ ": " ++ e.message))
      | .ok _ m => openSession config framesDirectory path m p

/-- The status of a run that ended. A fault of the machine or the host is reported; any other is
handed on. -/
def conclude (result : Except Fault RunStats) : EStateM Fault (Session Stage) Nat := do
  match result with
  | .ok _ => return 0
  | .error e =>
    if e.isOperational then
      modify fun s =>
        let m := s.monitored.report .error source ("VM halted: " ++ e.message)
        { s with monitored := m.report .debug source m.machine.describe }
      return 1
    else throw e

/-- Closes the host of a session. -/
def closeHost : EStateM Fault (Session Stage) Unit := fun s =>
  match s.world.host.close with
  | .ok _ host => .ok () { s with world := { s.world with host := host } }
  | .error e host => .error e { s with world := { s.world with host := host } }

/-- Ends a session after its run. Its host is closed in any case. -/
def endSession (result : Except Fault RunStats) : EStateM Fault (Session Stage) Nat :=
  tryFinally (conclude result) closeHost

/-- How a launch ends. -/
inductive Ending where
  /-- The command line was not taken. -/
  | stopped (cause : Stop)
  /-- The launch has a status; its lines, its clock, its waits and its files are given. -/
  | done (status : Nat) (lines : List String) (clock : Int) (sleeps : Nat) (files : FileTree)
  /-- A fault is handed on. -/
  | broken (fault : Fault)
  /-- The run did not end. -/
  | unfinished

/-- The entries of a journal that are shown. -/
def shownEntries (debug : Bool) (j : Journal) : List Entry :=
  j.since 0 (if debug then .debug else .info)

/-- Runs a session for a time; no more than `turns` turns are made. -/
def runSession (debug : Bool) (maxSeconds : Option Binary64) (turns : Nat) (s : Session Stage) :
    Ending :=
  match s.runFor Stage.world none (maxSeconds.map Number.real) turns with
  | none => .unfinished
  | some (result, s) =>
    match (endSession result).run s with
    | .error e _ => .broken e
    | .ok status s =>
      .done status ((shownEntries debug s.monitored.journal).map Entry.text) s.world.clock
        s.world.sleeps.size s.world.files

/-- The whole course of a command line. -/
def start (words : List String) (environment : Environment) (files : FileTree) (desktop : Desktop)
    (random : RandomSource) (turns : Nat) : Ending :=
  match parse words with
  | .error stop => .stopped stop
  | .ok (program, a) =>
    match resolve program a environment files with
    | .error e =>
      let entry : Entry := ⟨.error, source, "Invalid configuration: " ++ e.message⟩
      .done 1 [entry.plainText] 0 0 files
    | .ok config =>
      match launch config a.framesDirectory random ⟨files, desktop, .empty⟩ with
      | .refused p =>
        .done 1 ((shownEntries config.debug p.journal).map Entry.text) 0 0 p.files
      | .broken e => .broken e
      | .ready session => runSession config.debug a.maxSeconds turns session

end ChipEight.CommandLine
