import ChipEight.Files.Tree
import ChipEight.Journal
import ChipEight.Session.World

/-!
# The headless host

A host without a window. Its display keeps the raster that was presented last and may write every
changed screen as a picture into a directory; its input replays a script, one entry a poll, holds
the last entry, and asks to quit after a number of polls; its audio remembers the beeps.

A screen that could not be written counts as presented: it is written again only after a change. If
the system refuses a directory or a picture, the host fails; a path that is no path is a fault of
its own.
-/

namespace ChipEight

/-- A display that records what it is given. -/
structure FrameRecorder where
  directory : Option Path
  zoom : Int
  /-- How often a screen was presented. -/
  presented : Nat
  /-- How many pictures were written. -/
  written : Nat
  lastFrame : Option Raster
deriving DecidableEq, Repr

namespace FrameRecorder

/-- The usual enlargement of the pictures. -/
def standardZoom : Int := 4

/-- The fault of a display that cannot use its files. -/
def fileFault (attempt : String) (e : FileError) : Fault :=
  match e with
  | .refused .. => .hostFailure ("cannot " ++ attempt ++ ": " ++ e.message)
  | .nullByte => .file e

/-- A display that writes into a directory if one is given; the directory is made. -/
def make (directory : Option String) (zoom : Int) (files : FileTree) :
    Except Fault (FrameRecorder × FileTree) :=
  match directory with
  | none => .ok (⟨none, zoom, 0, 0, none⟩, files)
  | some text =>
    let path := Path.ofText text
    match files.makeDirectories path with
    | .ok files => .ok (⟨some path, zoom, 0, 0, none⟩, files)
    | .error e => .error (fileFault ("create frames directory " ++ path.text) e)

/-- A number with at least six digits. -/
def sixDigits (n : Nat) : String :=
  let digits := toString n
  String.ofList (List.replicate (6 - digits.length) '0') ++ digits

/-- The name of the picture with a number. -/
def frameName (n : Nat) : String := "frame_" ++ sixDigits n ++ ".png"

/-- Writes the raster as the next picture of a directory. -/
def save (d : FrameRecorder) (directory : Path) (raster : Raster) (files : FileTree) :
    Except Fault FileTree := do
  let picture ← Picture.render raster d.zoom .white .black
  let path := (directory.child (frameName d.written)).text
  match files.write path (.picture picture) with
  | .ok files => return files
  | .error e => throw (fileFault ("write frame " ++ path) e)

/-- Presents a screen. One that is not dirty is passed over, the first one apart. -/
def present (d : FrameRecorder) (screen : Screen) (files : FileTree) :
    Presented (FrameRecorder × FileTree) :=
  let d := { d with presented := d.presented + 1 }
  if !screen.dirty && d.lastFrame.isSome then ⟨.ok (), screen, d, files⟩
  else
    let d := { d with lastFrame := some screen.raster }
    let screen := { screen with dirty := false }
    match d.directory with
    | none => ⟨.ok (), screen, d, files⟩
    | some directory =>
      match d.save directory screen.raster files with
      | .ok files => ⟨.ok (), screen, { d with written := d.written + 1 }, files⟩
      | .error e => ⟨.error e, screen, d, files⟩

end FrameRecorder

/-- An input that replays a script of pressed keys. -/
structure ScriptedInput where
  script : Array (List Int)
  /-- The number of polls after which the input asks to quit. -/
  quitAfter : Option Int
  /-- The polls that were answered. -/
  polls : Nat
deriving DecidableEq, Repr

namespace ScriptedInput

/-- A script that was not begun. -/
def make (script : List (List Int)) (quitAfter : Option Int) : ScriptedInput :=
  ⟨script.toArray, quitAfter, 0⟩

/-- The entry for the next poll; the last entry is held, and an empty script has none. -/
def entry? (input : ScriptedInput) : Option (List Int) :=
  input.script[min input.polls (input.script.size - 1)]?

/-- Is it time to quit? -/
def isOver (input : ScriptedInput) : Bool :=
  input.quitAfter.any fun limit => limit ≤ (input.polls : Int)

/-- Puts the next entry on the keypad. A poll that fails or asks to quit is not counted. -/
def poll (input : ScriptedInput) (keypad : Keypad) : Polled ScriptedInput :=
  if input.isOver then ⟨.ok false, keypad, false, input⟩
  else
    let counted := { input with polls := input.polls + 1 }
    match input.entry? with
    | none => ⟨.ok true, keypad, false, counted⟩
    | some keys =>
      match (Keypad.update keys).run keypad with
      | .ok _ keypad => ⟨.ok true, keypad, false, counted⟩
      | .error e keypad => ⟨.error e, keypad, false, input⟩

end ScriptedInput

/-- A beep begins or ends. -/
inductive BeepEvent where
  | start
  | stop
deriving DecidableEq, Repr

/-- The name of a beep event. -/
def BeepEvent.name : BeepEvent → String
  | .start => "start"
  | .stop => "stop"

/-- An audio device that only remembers. -/
structure BeepRecorder where
  events : List BeepEvent
  playing : Bool
deriving DecidableEq, Repr

namespace BeepRecorder

/-- Nothing was heard yet. -/
def silent : BeepRecorder := ⟨[], false⟩

/-- Starts a beep. -/
def start (a : BeepRecorder) : BeepRecorder := ⟨a.events ++ [.start], true⟩

/-- Ends a beep. -/
def stop (a : BeepRecorder) : BeepRecorder := ⟨a.events ++ [.stop], false⟩

end BeepRecorder

/-- The three parts of the headless host. -/
structure Headless where
  display : FrameRecorder
  input : ScriptedInput
  audio : BeepRecorder
deriving DecidableEq, Repr

namespace Headless

/-- Who reports that a headless host is made. -/
def source : String := "chip8vm.host.headless"

/-- The report that a headless host is made. -/
def creationEntry (directory : Option String) : Entry :=
  ⟨.debug, source, "Creating headless host (frames_dir=" ++ directory.getD "None" ++ ")"⟩

/-- A headless host. -/
def make (directory : Option String) (script : List (List Int)) (quitAfter : Option Int)
    (files : FileTree) : Except Fault (Headless × FileTree) := do
  let (display, files) ← FrameRecorder.make directory FrameRecorder.standardZoom files
  return (⟨display, .make script quitAfter, .silent⟩, files)

end Headless

end ChipEight
