import ChipEight.Journal
import ChipEight.Picture
import ChipEight.Session.World

/-!
# The window host

A host with a window, a keyboard and a loudspeaker on a desktop. The display scales the raster to
the window, at most a given number of times a second: a presentation that comes too early changes
nothing. The keyboard's four left columns stand for the keypad. The beep is one period of a square
wave, played over and over.

The desktop is what the operating system offers: a video driver and a mixer, either of which may
fail, and waits that may have a greatest length. It records the calls to its mixer.
-/

namespace ChipEight

/-- A call to the mixer. -/
inductive MixerCall where
  | prepare
  | makeSound
  | play
  | stop
deriving DecidableEq, Repr

/-- A call as it is recorded. -/
def MixerCall.text : MixerCall → String
  | .prepare => "pre_init 44100 -16 1 512"
  | .makeSound => "sound"
  | .play => "play -1"
  | .stop => "stop"

/-- What the operating system offers to a window. -/
structure Desktop where
  /-- Why the video driver cannot be started. -/
  videoFailure : Option String
  /-- Why the video driver, once it is started, cannot open the window. -/
  windowFailure : Option String
  /-- The samples of a second. -/
  sampleRate : Int
  channels : Nat
  /-- Why the mixer cannot be started. -/
  mixerFailure : Option String
  /-- The greatest number of nanoseconds that the system waits for, if there is one. -/
  longestWait : Option Int
  displayOpen : Bool
  calls : List MixerCall
deriving DecidableEq, Repr

namespace Desktop

/-- A desktop on which everything works. -/
def standard : Desktop := ⟨none, none, 44100, 1, none, none, false, []⟩

/-- The desktop after a call to its mixer. -/
def record (d : Desktop) (call : MixerCall) : Desktop := { d with calls := d.calls ++ [call] }

end Desktop

/-- One period of a square wave for a number of channels. -/
structure SquareWave where
  period : Nat
  channels : Nat
deriving DecidableEq, Repr

namespace SquareWave

/-- The height of the wave. -/
def amplitude : Int := 8192

/-- The usual pitch of the beep. -/
def standardTone : Number := .int 440

/-- The wave of a tone. -/
def make (sampleRate : Int) (channels : Nat) (tone : Number) : Except NumberError SquareWave := do
  let exact ← Number.div (.int sampleRate) tone
  let period ← exact.round.mapError NumberError.ofNoInteger
  return ⟨(max 2 period).toNat, channels⟩

/-- The sample of a channel at a time within the period. -/
def sample (wave : SquareWave) (time : Nat) : Int :=
  if time < wave.period / 2 then amplitude else -amplitude

/-- The samples of all channels at all times. -/
def samples (wave : SquareWave) : List (List Int) :=
  (List.range wave.period).map fun time => List.replicate wave.channels (wave.sample time)

end SquareWave

/-- The loudspeaker: the wave it plays and whether it does. -/
structure Loudspeaker where
  wave : SquareWave
  playing : Bool
deriving DecidableEq, Repr

/-- The limiter of presentations: the least time between two of them and the time of the last. -/
structure Limiter where
  interval : Binary64
  last : Option Number
deriving DecidableEq, Repr

namespace Limiter

/-- The usual number of presentations in a second. -/
def standardRate : Number := .real (.ofInt 60)

/-- A limiter for a number of presentations in a second. -/
def make (rate : Number) : Except NumberError Limiter := do
  return ⟨← Number.div (.real (.ofInt 1)) rate, none⟩

/-- Is it too early for another presentation? -/
def holdsBack (l : Limiter) (now : Number) : Except NumberError Bool :=
  match l.last with
  | none => .ok false
  | some last => do
    let passed ← Number.sub now last
    return passed.lt (.real l.interval)

end Limiter

/-- A window with its keyboard and loudspeaker. -/
structure Window where
  desktop : Desktop
  width : Nat
  height : Nat
  /-- The raster that was drawn last. -/
  drawn : Option Raster
  limiter : Limiter
  audio : Loudspeaker
deriving DecidableEq, Repr

/-- What happens at the keyboard and the window. -/
inductive WindowEvent where
  | keyDown (code : Int)
  | keyUp (code : Int)
  | quit
  | other
deriving DecidableEq, Repr

namespace Window

/-- Who reports that a window is opened. -/
def source : String := "chip8vm.host.pygame_backend"

/-- The title of the window. -/
def title : String := "chip8vm"

/-- The keys of the keyboard, by the code of their character, and the keys of the keypad. -/
def keyMap : List (Int × Int) := [
  (49, 0x1), (50, 0x2), (51, 0x3), (52, 0xC),
  (97, 0x7), (99, 0xB), (100, 0x9), (101, 0x6),
  (102, 0xE), (113, 0x4), (114, 0xD), (115, 0x8),
  (118, 0xF), (119, 0x5), (120, 0x0), (122, 0xA)]

/-- The code of the key that quits. -/
def escapeCode : Int := 27

/-- The keypad key of a keyboard key. -/
def keypadKey? (code : Int) : Option Int := (keyMap.find? fun entry => entry.1 == code).map Prod.snd

/-- The report that a window is opened. -/
def creationEntry (width height : Int) : Entry :=
  ⟨.info, source, s!"Creating pygame host {width}x{height}"⟩

/-- What can be done on a desktop. -/
abbrev Setup := EStateM Fault Desktop

/-- Prepares the mixer for a tone. -/
def makeAudio (tone : Number) : Setup Loudspeaker := do
  modify (·.record .prepare)
  let desktop ← get
  if let some reason := desktop.mixerFailure then
    throw (.hostFailure ("pygame mixer init failed: " ++ reason))
  match SquareWave.make desktop.sampleRate desktop.channels tone with
  | .error e => throw (.number e)
  | .ok wave =>
    modify (·.record .makeSound)
    return ⟨wave, false⟩

/-- Opens the display of a desktop. A video driver that was started stays so if the window fails. -/
def openDisplay : Setup Unit := do
  let desktop ← get
  if let some reason := desktop.videoFailure then
    throw (.hostFailure ("pygame display init failed: " ++ reason))
  set { desktop with displayOpen := true }
  if let some reason := desktop.windowFailure then
    throw (.hostFailure ("pygame display init failed: " ++ reason))

/-- Closes the display of a desktop. -/
def closeDisplay : Setup Unit := modify fun d => { d with displayOpen := false }

/-- Prepares the mixer for the usual beep; if that fails, the display is closed. -/
def makeStandardAudio : Setup Loudspeaker := do
  let desktop ← get
  match (makeAudio SquareWave.standardTone).run desktop with
  | .ok audio desktop =>
    set desktop
    return audio
  | .error (.hostFailure reason) desktop =>
    set desktop
    closeDisplay
    throw (.hostFailure reason)
  | .error e desktop =>
    set desktop
    throw e

/-- Opens a window. -/
def make (width height : Int) : Setup Window := do
  openDisplay
  let audio ← makeStandardAudio
  match Limiter.make Limiter.standardRate with
  | .error e => throw (.number e)
  | .ok limiter =>
    return {
      desktop := ← get
      width := width.toNat
      height := height.toNat
      drawn := none
      limiter := limiter
      audio := audio }

/-- Replaces the limiter. -/
def withRate (w : Window) (rate : Number) : Except Fault Window := do
  let limiter ← (Limiter.make rate).mapError Fault.number
  return { w with limiter := limiter }

/-- Replaces the beep by one of another tone. -/
def withTone (w : Window) (tone : Number) : Except Fault Unit × Window :=
  match (makeAudio tone).run w.desktop with
  | .ok audio desktop => (.ok (), { w with desktop := desktop, audio := audio })
  | .error e desktop => (.error e, { w with desktop := desktop })

/-- Starts the beep if it is not playing. -/
def startBeep (w : Window) : Window :=
  if w.audio.playing then w
  else { w with desktop := w.desktop.record .play, audio := { w.audio with playing := true } }

/-- Ends the beep if it is playing. -/
def stopBeep (w : Window) : Window :=
  if w.audio.playing then
    { w with desktop := w.desktop.record .stop, audio := { w.audio with playing := false } }
  else w

/-- Closes the window. -/
def close (w : Window) : Window := { w with desktop := { w.desktop with displayOpen := false } }

/-- Presents a screen at a time, unless it is too early. -/
def present (w : Window) (now : Number) (screen : Screen) : Presented Window :=
  match w.limiter.holdsBack now with
  | .error e => ⟨.error (.number e), screen, w⟩
  | .ok true => ⟨.ok (), screen, w⟩
  | .ok false =>
    let w := { w with limiter := { w.limiter with last := some now } }
    if w.desktop.displayOpen then
      ⟨.ok (), { screen with dirty := false }, { w with drawn := some screen.raster }⟩
    else ⟨.error (.hostFailure "pygame present failed: display Surface quit"), screen, w⟩

/-- What the window shows: the raster that was drawn last, or nothing but black. -/
def picture (w : Window) : Picture :=
  match w.drawn with
  | none => .filled w.width w.height .black
  | some raster => (Picture.ofRaster raster .white .black).scaled w.width w.height

/-- What an open window shows. -/
def shown (w : Window) : Except Fault Picture :=
  if w.desktop.displayOpen then .ok w.picture else .error (.closedDevice "display Surface quit")

/-- Presses or releases the keypad key of a keyboard key. -/
def setKey (keypad : Keypad) (code : Int) (pressed : Bool) : Keypad :=
  match keypadKey? code with
  | none => keypad
  | some key =>
    match keypad.set key pressed with
    | .ok keypad => keypad
    | .error _ => keypad

/-- Takes events in. False if one of them asks to quit; those after it are lost. -/
def takeEvents (keypad : Keypad) : List WindowEvent → Bool × Keypad
  | [] => (true, keypad)
  | .quit :: _ => (false, keypad)
  | .keyDown code :: rest =>
    if code = escapeCode then (false, keypad) else takeEvents (setKey keypad code true) rest
  | .keyUp code :: rest => takeEvents (setKey keypad code false) rest
  | .other :: rest => takeEvents keypad rest

/-- Polls the keyboard. -/
def poll (w : Window) (events : List WindowEvent) (keypad : Keypad) :
    Except Fault (Bool × Keypad) :=
  if w.desktop.displayOpen then .ok (takeEvents keypad events)
  else .error (.closedDevice "video system not initialized")

end Window

end ChipEight
