import ChipEight.CommandLine.Launch
import ChipEight.Picture.Png

/-!
# The command-line program

Runs a program file in real time. The files that the command line names are read from the disk
before the launch, the pictures of a headless host are written to it, and the journal goes to
standard error as it is made. Windows need a video driver, and none is built in.

This is the outer layer: it brings an encoder for pictures, the longest wait of the system and what
the disk tells of a path, all of which the launch takes as they come.
-/

namespace ChipEight.Live

open ChipEight.CommandLine

/-- How the program is called. -/
def usage : String :=
  "usage: chip8vm [-h] [-d] [-l \x7bpygame,headless\x7d] [-H HERTZ] [-w WIDTH]" ++
    " [--height HEIGHT]\n" ++
    "               [--stack-limit STACK_LIMIT] [--config CONFIG] [--max-seconds MAX_SECONDS]\n" ++
    "               [--frames-dir FRAMES_DIR]\n" ++
    "               ROM_FILE"

/-- The problem behind a number of the system, which may be given as a negative one. -/
def problemOf (code : UInt32) (details : String) : FileProblem :=
  let number := if code < 0x80000000 then code.toNat else 0x100000000 - code.toNat
  if number = FileProblem.denied.number then .denied else .other number details

/-- What the disk tells of a path. -/
inductive Finding where
  | nothing
  | directory
  | file (bytes : List UInt8)
  | closed (problem : FileProblem)

/-- Looks for a path on the disk. A path that is none, or too long, is left to the launch. -/
def findOnDisk (path : String) : IO Finding := do
  try
    let bytes ← IO.FS.readBinFile path
    return .file bytes.toList
  catch
    | .noFileOrDirectory .. => return .nothing
    | .inappropriateType _ code details =>
      let directory := (problemOf code details).number = FileProblem.isDirectory.number
      return if directory then .directory else .nothing
    | .invalidArgument _ code details =>
      let problem := problemOf code details
      return if [22, FileProblem.nameTooLong.number].contains problem.number then .nothing
        else .closed problem
    | .permissionDenied _ code details | .resourceExhausted _ code details
    | .otherError code details | .hardwareFault code details =>
      return .closed (problemOf code details)
    | e => throw e

/-- The tree with a place kept closed. -/
def close (files : FileTree) (place : Place) (problem : FileProblem) : FileTree :=
  { files with closed := fun other => if other = place then some problem else files.closed other }

/-- The tree with what stands on the disk at a path and on the way to it. What is kept closed on the
way is a directory, and at its end a file. -/
def survey (files : FileTree) (text : String) : IO FileTree := do
  let path := Path.ofText text
  let mut files := files
  for n in [1:path.parts.length + 1] do
    let way : Path := { path with parts := path.parts.take n }
    let place := FileTree.placeOf way
    match ← findOnDisk way.text with
    | .nothing => pure ()
    | .directory => files := files.put place .directory
    | .file bytes => files := files.put place (.file bytes)
    | .closed problem =>
      files := files.put place (if n < path.parts.length then .directory else .file [])
      files := close files place problem
  return files

/-- The environment variables that matter. -/
def readEnvironment : IO Environment := do
  let names := [Config.debugVariable, Config.backendVariable, ConfigError.hertzVariable]
  let found ← names.mapM fun name => do return (← IO.getEnv name).map (name, ·)
  return found.filterMap id

/-- Writes the entries of a journal that are shown. -/
def flush (debug : Bool) (j : Journal) : IO Unit :=
  for e in shownEntries debug j do
    IO.eprintln e.text

/-- The run with its entries written. -/
def flushRun (debug : Bool) (r : Run Stage) : IO (Run Stage) := do
  flush debug r.session.monitored.journal
  return { r with session :=
    { r.session with monitored := { r.session.monitored with journal := .empty } } }

/-- The run with its clock set to the time of the day's clock and its notes dropped. -/
def setClock (r : Run Stage) : IO (Run Stage) := do
  let now ← IO.monoNanosNow
  return { r with session :=
    { r.session with world := { r.session.world with clock := now, notes := #[], sleeps := #[] } } }

/-- Writes the picture that was made last to the disk and takes it out of the tree. -/
def storePictures (r : Run Stage) (before : Nat) : IO (Except Fault (Run Stage)) := do
  match r.session.world.host with
  | .headless h =>
    match h.display.directory with
    | none => return .ok r
    | some directory =>
      if h.display.written = before then return .ok r
      let path := (directory.child (FrameRecorder.frameName before)).text
      match r.session.world.files.read path with
      | .error e => return .error (FrameRecorder.fileFault ("write frame " ++ path) e)
      | .ok bytes =>
        try
          IO.FS.writeBinFile path (ByteArray.mk bytes.toArray)
          let world := { r.session.world with files := r.session.world.files.remove path }
          return .ok { r with session := { r.session with world := world } }
        catch e => return .error (.hostFailure ("cannot write frame " ++ path ++ ": " ++ toString e))
  | .window _ => return .ok r

/-- How many pictures the host has written. -/
def picturesWritten (r : Run Stage) : Nat :=
  match r.session.world.host with
  | .headless h => h.display.written
  | .window _ => 0

/-- Waits until the clock shows a time. -/
partial def waitUntil (time : Nat) : IO Unit := do
  let now ← IO.monoNanosNow
  if now < time then
    let millis := (time - now) / 1000000
    if 1 < millis then IO.sleep (millis - 1).toUInt32
    waitUntil time

/-- Ends a run and answers its status. -/
def finish (debug : Bool) (result : Except Fault StopReason) (r : Run Stage) : IO UInt32 := do
  let r ← setClock r
  let (elapsed, s) := Session.close Stage.world r
  let (outcome, s) :=
    match result with
    | .ok reason => Session.settle reason r.counts elapsed s
    | .error e => (.error e, s)
  match (endSession outcome).run s with
  | .ok status s =>
    flush debug s.monitored.journal
    return status.toUInt32
  | .error e s =>
    flush debug s.monitored.journal
    throw (IO.userError e.message)

/-- Makes turns in real time until one ends the run. -/
partial def turns (debug : Bool) (bounds : Bounds) (r : Run Stage) : IO UInt32 := do
  let r ← setClock r
  if !r.session.running then
    finish debug (.ok .stopped) r
  else
    let before := picturesWritten r
    let now := r.session.world.clock
    match (Run.work Stage.world bounds now).run r with
    | .error e r => finish debug (.error e) r
    | .ok (some reason) r => finish debug (.ok reason) (← flushRun debug r)
    | .ok none r =>
      let r ← flushRun debug r
      match ← storePictures r before with
      | .error e => finish debug (.error e) r
      | .ok r =>
      let r ← setClock r
      match (Run.pace Stage.world now).run r with
      | .error e r => finish debug (.error e) r
      | .ok _ r =>
        if !r.session.world.sleeps.isEmpty then
          waitUntil (now + r.session.period).toNat
        turns debug bounds r

/-- Runs a session in real time. -/
def runSession (debug : Bool) (a : Arguments) (s : Session Stage) : IO UInt32 := do
  match a.maxSeconds.mapM fun seconds => Session.nanosOfSeconds (.real seconds) with
  | .error e => throw (IO.userError e.message)
  | .ok nanos =>
    let now ← IO.monoNanosNow
    turns debug ⟨none, nanos⟩ (s.started now)

/-- The greatest number of nanoseconds that the system waits for. -/
def longestWait : Int := 0x7FFFFFFFFFFFFFFF

/-- Makes the directory for pictures on the disk; false if that fails. -/
def makeDirectoryOnDisk (directory : String) : IO Bool := do
  let path := (Path.ofText directory).text
  try
    IO.FS.createDirAll path
    return true
  catch e =>
    let failure := "cannot create frames directory " ++ path ++ ": " ++ toString e
    IO.eprintln (Entry.text
      ⟨.error, source, "Cannot start " ++ Backend.headless.name ++ " backend: " ++ failure⟩)
    return false

/-- Launches a program with its settings. -/
def launchWith (config : Config) (a : Arguments) (files : FileTree) : IO UInt32 := do
  let seed ← IO.rand 0 0xFFFFFFFFFFFFFFFF
  let desktop :=
    { Desktop.standard with
      videoFailure := some "no video driver", longestWait := some longestWait }
  match launch config a.framesDirectory (.seeded seed.toUInt64) ⟨files, desktop, .empty⟩ with
  | .broken e => throw (IO.userError e.message)
  | .refused p =>
    flush config.debug p.journal
    return 1
  | .ready s =>
    let hosted ←
      match config.backend, a.framesDirectory with
      | .headless, some directory => makeDirectoryOnDisk directory
      | _, _ => pure true
    if hosted then runSession config.debug a s else return 1

/-- The whole course of a command line. -/
def run (words : List String) : IO UInt32 := do
  match parse words with
  | .error .help =>
    IO.println usage
    return 0
  | .error (.usage e) =>
    IO.eprintln usage
    IO.eprintln ("chip8vm: error: " ++ e.message)
    return 2
  | .ok (program, a) =>
    let paths := program :: (a.config.toList ++ a.framesDirectory.toList)
    let files ← paths.foldlM survey { FileTree.empty with encode := Picture.toPng }
    match resolve program a (← readEnvironment) files with
    | .error e =>
      IO.eprintln (Entry.plainText ⟨.error, source, "Invalid configuration: " ++ e.message⟩)
      return 1
    | .ok config =>
      let files ← survey files (config.rom.getD "")
      launchWith config a files

end ChipEight.Live

/-- Runs the command line. -/
def main (words : List String) : IO UInt32 := ChipEight.Live.run words
