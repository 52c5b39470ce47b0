import ChipEight.Files.Tree
import ChipEight.Host.Basic
import ChipEight.Json.Reader
import ChipEight.Json.Writer
import ChipEight.Session.Basic
import ChipEight.Text.Utf8

/-!
# Settings of a session

A `Config` holds everything that is needed to start a session. It is made from a `Draft`, which has
a value of any kind for each setting, by `Draft.check`: first the kind of every setting is looked
at, then its range, each time in a fixed order, and the first complaint is reported.
-/

namespace ChipEight

/-- Why settings are refused. -/
inductive ConfigError where
  /-- A setting has a value of the wrong kind or outside its range. -/
  | badSetting (setting : String) (value : Datum)
  | unknownBackend (value : Datum)
  /-- A record of settings has fields that are none. -/
  | unknownKeys (names : List String)
  /-- A setting was given by a name that is none. -/
  | unknownName (name : String)
  /-- The frequency in the environment is no number. -/
  | badEnvironmentHertz (text : String)
  /-- A file of settings holds something else than a record. -/
  | notARecord (path : String)
  | unreadable (cause : FileError)
  | notText (cause : Text.Utf8Error)
  | notJson (cause : Json.SyntaxError)

namespace ConfigError

/-- The families of refusals, by which those who ask for settings tell them apart. -/
inductive Family where
  /-- A value, or the text that should hold one, is not acceptable. -/
  | value
  /-- A file cannot be read. -/
  | file
  /-- Something was named that is no setting. -/
  | name
deriving DecidableEq, Repr

/-- The family of a refusal. A text that is no JSON holds no acceptable value. -/
def family : ConfigError → Family
  | .unknownName _ => .name
  | .unreadable _ => .file
  | _ => .value

/-- The name of the environment variable for the frequency. -/
def hertzVariable : String := "CHIP8VM_HERTZ"

/-- The wording of a refusal. -/
def message : ConfigError → String
  | .badSetting setting value => "Invalid " ++ setting ++ ": " ++ value.shown
  | .unknownBackend value =>
    "Invalid backend " ++ value.shown ++ " (expected one of " ++ Fault.backendNames ++ ")"
  | .unknownKeys names => "Unknown configuration keys: " ++ (Datum.list (names.map .text)).shown
  | .unknownName name => "unknown setting " ++ Text.quoted name
  | .badEnvironmentHertz text => "Invalid " ++ hertzVariable ++ " value: " ++ Text.quoted text
  | .notARecord path => "Configuration file " ++ path ++ " must hold a JSON object"
  | .unreadable cause => cause.message
  | .notText cause => cause.message
  | .notJson cause => cause.message

end ConfigError

/-- The settings of a session. -/
structure Config where
  rom : Option String
  debug : Bool
  backend : Backend
  hertz : Number
  windowWidth : Int
  windowHeight : Int
  stackLimit : Option Int
  timerHertz : Int
  maxCatchup : Int
deriving DecidableEq, Repr

/-- A value of any kind for each setting. -/
structure Draft where
  rom : Datum
  debug : Datum
  backend : Datum
  hertz : Datum
  windowWidth : Datum
  windowHeight : Datum
  stackLimit : Datum
  timerHertz : Datum
  maxCatchup : Datum
deriving Repr

namespace Config

/-- The settings that hold when nothing is said. -/
def standard : Config where
  rom := none
  debug := false
  backend := .window
  hertz := Session.standardHertz
  windowWidth := HostSettings.standard.width
  windowHeight := HostSettings.standard.height
  stackLimit := some CallStack.standardLimit
  timerHertz := 60
  maxCatchup := 3000

/-- The settings as values. -/
def toDraft (c : Config) : Draft where
  rom := (c.rom.map Datum.text).getD .null
  debug := .bool c.debug
  backend := .text c.backend.name
  hertz := .ofNumber c.hertz
  windowWidth := .int c.windowWidth
  windowHeight := .int c.windowHeight
  stackLimit := (c.stackLimit.map Datum.int).getD .null
  timerHertz := .int c.timerHertz
  maxCatchup := .int c.maxCatchup

/-- The settings with their names, in order. -/
def fields (c : Config) : List (String × Datum) :=
  let d := c.toDraft
  [("rom", d.rom), ("debug", d.debug), ("backend", d.backend), ("hertz", d.hertz),
   ("window_width", d.windowWidth), ("window_height", d.windowHeight),
   ("stack_limit", d.stackLimit), ("timer_hz", d.timerHertz), ("max_catchup_ms", d.maxCatchup)]

/-- The names of the settings. -/
def names : List String := standard.fields.map Prod.fst

/-- The settings on one line. -/
def text (c : Config) : String :=
  "VMConfig(" ++
    String.intercalate ", " (c.fields.map fun field => field.1 ++ "=" ++ field.2.shown) ++ ")"

end Config

namespace Draft

/-- Replaces the value of a setting; a name that is none changes nothing. -/
def set (d : Draft) (name : String) (value : Datum) : Draft :=
  if name = "rom" then { d with rom := value }
  else if name = "debug" then { d with debug := value }
  else if name = "backend" then { d with backend := value }
  else if name = "hertz" then { d with hertz := value }
  else if name = "window_width" then { d with windowWidth := value }
  else if name = "window_height" then { d with windowHeight := value }
  else if name = "stack_limit" then { d with stackLimit := value }
  else if name = "timer_hz" then { d with timerHertz := value }
  else if name = "max_catchup_ms" then { d with maxCatchup := value }
  else d

/-- Replaces the values of several settings, one after the other. -/
def setAll (d : Draft) (fields : List (String × Datum)) : Draft :=
  fields.foldl (fun d field => d.set field.1 field.2) d

/-- A text or nothing. -/
def optionalText (setting : String) : Datum → Except ConfigError (Option String)
  | .null => .ok none
  | .text s => .ok (some s)
  | value => .error (.badSetting setting value)

/-- A truth value. -/
def truth (setting : String) : Datum → Except ConfigError Bool
  | .bool b => .ok b
  | value => .error (.badSetting setting value)

/-- A number; truth values are none. -/
def number (setting : String) : Datum → Except ConfigError Number
  | .int n => .ok (.int n)
  | .real x => .ok (.real x)
  | value => .error (.badSetting setting value)

/-- An integer; truth values are none. -/
def integer (setting : String) : Datum → Except ConfigError Int
  | .int n => .ok n
  | value => .error (.badSetting setting value)

/-- An integer or nothing. -/
def optionalInteger (setting : String) : Datum → Except ConfigError (Option Int)
  | .null => .ok none
  | .int n => .ok (some n)
  | value => .error (.badSetting setting value)

/-- The name of a backend. -/
def backendNamed (value : Datum) : Except ConfigError Backend :=
  match value with
  | .text name =>
    match Backend.ofName? name with
    | some backend => .ok backend
    | none => .error (.unknownBackend value)
  | _ => .error (.unknownBackend value)

/-- Refuses a value unless a condition holds. -/
def require (condition : Bool) (setting : String) (value : Datum) : Except ConfigError Unit :=
  if condition then .ok () else .error (.badSetting setting value)

/-- The frequencies are below this bound. -/
def hertzBound : Int := 100000

/-- The sides of a window are below this bound. -/
def sideBound : Int := 10000

/-- Checks the ranges of settings of the right kinds. -/
def checkRanges (c : Config) : Except ConfigError Config := do
  require (Number.lt (.int 0) c.hertz && c.hertz.lt (.int hertzBound)) "hertz value"
    (.ofNumber c.hertz)
  require (0 < c.windowWidth && c.windowWidth < sideBound) "width value" (.int c.windowWidth)
  require (0 < c.windowHeight && c.windowHeight < sideBound) "height value" (.int c.windowHeight)
  if let some limit := c.stackLimit then
    require (0 < limit) "stack limit" (.int limit)
  require (0 < c.timerHertz) "timer frequency" (.int c.timerHertz)
  require (0 < c.maxCatchup) "catch-up cap" (.int c.maxCatchup)
  return c

/-- Checks the kinds of the settings, then their ranges. -/
def check (d : Draft) : Except ConfigError Config := do
  let rom ← optionalText "rom path" d.rom
  let debug ← truth "debug flag" d.debug
  let hertz ← number "hertz value" d.hertz
  let windowWidth ← integer "window_width value" d.windowWidth
  let windowHeight ← integer "window_height value" d.windowHeight
  let timerHertz ← integer "timer_hz value" d.timerHertz
  let maxCatchup ← integer "max_catchup_ms value" d.maxCatchup
  let stackLimit ← optionalInteger "stack limit" d.stackLimit
  let backend ← backendNamed d.backend
  checkRanges
    { rom, debug, backend, hertz, windowWidth, windowHeight, stackLimit, timerHertz, maxCatchup }

end Draft

end ChipEight
