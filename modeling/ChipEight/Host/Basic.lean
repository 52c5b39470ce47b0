import ChipEight.Host.Headless
import ChipEight.Host.Window

/-!
# Hosts

A host is headless or has a window. A session polls it, shows it screens and lets it beep; both
kinds answer these in their own way.
-/

namespace ChipEight

/-- The ways to host a session. -/
inductive Backend where
  | window
  | headless
deriving DecidableEq, Repr

namespace Backend

/-- The name of a backend. -/
def name : Backend → String
  | .window => "pygame"
  | .headless => "headless"

/-- The backend of a name. -/
def ofName? (name : String) : Option Backend :=
  if name = Backend.window.name then some .window
  else if name = Backend.headless.name then some .headless
  else none

end Backend

/-- A host of either kind. -/
inductive Host where
  | headless (host : Headless)
  | window (host : Window)
deriving DecidableEq, Repr

namespace Host

/-- The name of the backend of a host. -/
def name : Host → String
  | .headless _ => Backend.headless.name
  | .window _ => Backend.window.name

/-- Polls the input. A window is polled without events. -/
def poll (h : Host) (keypad : Keypad) : Polled Host :=
  match h with
  | .headless h =>
    let p := h.input.poll keypad
    ⟨p.answer, p.keypad, p.stop, .headless { h with input := p.world }⟩
  | .window w =>
    match w.poll [] keypad with
    | .ok (answer, keypad) => ⟨.ok answer, keypad, false, .window w⟩
    | .error e => ⟨.error e, keypad, false, .window w⟩

/-- Presents a screen at a time. -/
def present (h : Host) (now : Number) (screen : Screen) (files : FileTree) :
    Presented (Host × FileTree) :=
  match h with
  | .headless h =>
    let p := h.display.present screen files
    ⟨p.answer, p.screen, .headless { h with display := p.world.1 }, p.world.2⟩
  | .window w =>
    let p := w.present now screen
    ⟨p.answer, p.screen, .window p.world, files⟩

/-- Starts the beep. -/
def startBeep : Host → Host
  | .headless h => .headless { h with audio := h.audio.start }
  | .window w => .window w.startBeep

/-- Ends the beep. -/
def stopBeep : Host → Host
  | .headless h => .headless { h with audio := h.audio.stop }
  | .window w => .window w.stopBeep

end Host

/-- What a host is made from. -/
structure HostSettings where
  width : Int
  height : Int
  framesDirectory : Option String
  script : List (List Int)
  quitAfter : Option Int
deriving DecidableEq, Repr

namespace HostSettings

/-- A window of the usual size, no pictures, no script. -/
def standard : HostSettings := ⟨640, 320, none, [], none⟩

end HostSettings

/-- Where hosts are made: the files, the desktop, and the journal. -/
structure Premises where
  files : FileTree
  desktop : Desktop
  journal : Journal

namespace Premises

/-- A change of the premises that may end in a fault. -/
abbrev Action := EStateM Fault Premises

/-- Adds an entry to the journal. -/
def report (entry : Entry) : Action Unit :=
  modify fun p => { p with journal := p.journal.add entry.level entry.source entry.message }

/-- Makes a host. -/
def makeHost (backend : Backend) (settings : HostSettings) : Action Host := do
  match backend with
  | .headless =>
    report (Headless.creationEntry settings.framesDirectory)
    let p ← get
    match Headless.make settings.framesDirectory settings.script settings.quitAfter p.files with
    | .ok (host, files) =>
      set { p with files := files }
      return .headless host
    | .error e => throw e
  | .window =>
    report (Window.creationEntry settings.width settings.height)
    let p ← get
    match (Window.make settings.width settings.height).run p.desktop with
    | .ok window desktop =>
      set { p with desktop := desktop }
      return .window window
    | .error e desktop =>
      set { p with desktop := desktop }
      throw e

/-- Makes the host of a backend that is given by its name. -/
def makeHostNamed (name : String) (settings : HostSettings) : Action Host :=
  match Backend.ofName? name with
  | some backend => makeHost backend settings
  | none => throw (.unknownBackend name)

end Premises

end ChipEight
