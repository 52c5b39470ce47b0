import ChipEight.Config.Basic
import ChipEight.Text.FoldedWord
import ChipEight.Text.LowerCase

/-!
# Layers of settings

Settings come in layers, each laid over the one before it: the standard ones, the environment, a
file, and what is said at the start. A layer replaces the settings it names, and the whole is
checked again.

Layers differ in what they take for saying nothing: a name that is absent, an empty text, or the
empty value. A file names a setting by having a field for it, whatever its value.
-/

namespace ChipEight

/-- The environment variables. -/
abbrev Environment := List (String × String)

namespace Config

/-- The settings with some replaced, checked. -/
def replace (c : Config) (fields : List (String × Datum)) : Except ConfigError Config :=
  (c.toDraft.setAll fields).check

/-- Is this the name of a setting? -/
def isName (name : String) : Bool := names.contains name

/-- Refuses fields whose names are none of settings; their names are reported in order. -/
def checkKeys (fields : List (String × Datum)) : Except ConfigError Unit :=
  let unknown := (fields.map Prod.fst).filter fun name => !isName name
  if unknown.isEmpty then .ok ()
  else .error (.unknownKeys (unknown.mergeSort fun a b => !(b < a)))

/-- A value for each setting: the one that is given, and the standard one if none is. -/
def completed (fields : List (String × Datum)) : Draft :=
  let value (name : String) (usual : Datum) : Datum := (getField? fields name).getD usual
  let usual := standard.toDraft
  { rom := value "rom" usual.rom
    debug := value "debug" usual.debug
    backend := value "backend" usual.backend
    hertz := value "hertz" usual.hertz
    windowWidth := value "window_width" usual.windowWidth
    windowHeight := value "window_height" usual.windowHeight
    stackLimit := value "stack_limit" usual.stackLimit
    timerHertz := value "timer_hz" usual.timerHertz
    maxCatchup := value "max_catchup_ms" usual.maxCatchup }

/-- Settings given one by one; those that are not given have their standard values. -/
def ofArguments (fields : List (String × Datum)) : Except ConfigError Config :=
  match fields.find? fun field => !isName field.1 with
  | some field => .error (.unknownName field.1)
  | none => (completed fields).check

/-- Settings from a record. -/
def ofRecord (fields : List (String × Datum)) : Except ConfigError Config := do
  checkKeys fields
  ofArguments fields

/-- Is the value the empty one? -/
def isNull : Datum → Bool
  | .null => true
  | _ => false

/-- The settings with some replaced; those with the empty value are passed over. -/
def withOverrides (c : Config) (fields : List (String × Datum)) : Except ConfigError Config :=
  let given := fields.filter fun field => !isNull field.2
  match given.find? fun field => !isName field.1 with
  | some field => .error (.unknownName field.1)
  | none => c.replace given

/-- The words that mean no. -/
def noWords : List String := ["0", "false", "off", ""]

/-- Is a switch on? Its text is on unless it is one of the words for no, in any case and with any
blank space around it; without a text the usual state holds. -/
def isOn (text : Option String) (usual : Bool) : Bool :=
  match text with
  | none => usual
  | some text =>
    !noWords.contains (String.ofList (Text.foldCase (Text.trimBoth Text.isBlank text.toList)))

/-- The variable that turns tracing on. -/
def debugVariable : String := "CHIP8VM_DEBUG"

/-- The variable that names the backend. -/
def backendVariable : String := "CHIP8VM_BACKEND"

/-- The text of a variable, unless it is absent or empty. -/
def nonEmpty (environment : Environment) (name : String) : Option String :=
  (getField? environment name).filter fun text => !text.isEmpty

/-- The settings that the environment names. -/
def environmentFields (environment : Environment) : Except ConfigError (List (String × Datum)) := do
  let debug := (getField? environment debugVariable).map fun text =>
    ("debug", Datum.bool (isOn (some text) false))
  let backend := (nonEmpty environment backendVariable).map fun text =>
    let name := String.ofList (Text.trimBoth Text.isBlank text.toList)
    ("backend", Datum.text (Text.lowerCase name))
  let hertz ←
    match nonEmpty environment ConfigError.hertzVariable with
    | none => pure none
    | some text =>
      match Binary64.readFloat? text.toList with
      | some x => pure (some ("hertz", Datum.real x))
      | none => throw (.badEnvironmentHertz text)
  return debug.toList ++ backend.toList ++ hertz.toList

/-- The settings under the environment. -/
def withEnvironment (c : Config) (environment : Environment) : Except ConfigError Config := do
  c.replace (← environmentFields environment)

/-- The fields of the record that a file holds. -/
def fileFields (files : FileTree) (path : String) : Except ConfigError (List (String × Datum)) := do
  let bytes ← (files.read path).mapError .unreadable
  let text ← (Text.decodeUtf8 0 bytes).mapError .notText
  let value ← (Json.read (Text.unifyLineEnds text)).mapError .notJson
  match value with
  | .record fields => return fields
  | _ => throw (.notARecord path)

/-- The settings of a file; those that it does not name have their standard values. -/
def load (files : FileTree) (path : String) : Except ConfigError Config := do
  ofRecord (← fileFields files path)

/-- The settings under a file. -/
def mergeFile (c : Config) (files : FileTree) (path : String) : Except ConfigError Config := do
  let fields ← fileFields files path
  checkKeys fields
  c.replace fields

/-- The text of a file that holds the settings. -/
def saveText (c : Config) : String := Json.write (.record c.fields)

/-- Why settings are not saved. -/
inductive SaveError where
  | unwritable (cause : FileError)
  /-- A setting is an integer of too many digits. -/
  | longInteger
deriving DecidableEq, Repr

/-- The wording of a failure to save settings. -/
def SaveError.message : SaveError → String
  | .unwritable cause => cause.message
  | .longInteger =>
    s!"Exceeds the limit ({Json.mostIntegerDigits} digits) for integer string conversion; " ++
      "use sys.set_int_max_str_digits() to increase the limit"

/-- Writes a text to a file. -/
def writeText (path text : String) : EStateM SaveError FileTree Unit := fun files =>
  match files.write path (.file (Text.encodeUtf8 text)) with
  | .ok files => .ok () files
  | .error e => .error (.unwritable e) files

/-- Saves the settings in a file. The text goes to the file as it is made, so that a setting that
cannot be written leaves the text before it there. -/
def save (c : Config) (path : String) : EStateM SaveError FileTree Unit :=
  match c.fields.span fun field => !Json.isLong field.2 with
  | (_, []) => writeText path c.saveText
  | (before, (name, _) :: _) => do
    writeText path (Json.writeOpen before name)
    throw .longInteger

end Config

end ChipEight
