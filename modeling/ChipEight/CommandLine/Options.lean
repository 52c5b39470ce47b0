import ChipEight.Host.Basic

/-!
# Command-line words

The words of a command line are read in two passes. The first tells options from operands, one word
at a time: a word that starts with a dash is an option if it is the name of one, a name and a value
joined by an equals sign, a shortened long name that fits one option only, or a short name with its
value or further short names behind it. A negative number, a word with a blank in it, and everything
after a word of two dashes are operands. The second pass gives the operand to the program file and
the values to their options, from left to right, and converts them.
-/

namespace ChipEight.CommandLine

/-- The options. -/
inductive OptionKey where
  | help
  | debug
  | library
  | hertz
  | width
  | height
  | stackLimit
  | config
  | maxSeconds
  | framesDirectory
deriving DecidableEq, Repr

/-- The names of the options, in order. -/
def optionNames : List (String × OptionKey) := [
  ("-h", .help), ("--help", .help),
  ("-d", .debug), ("--debug", .debug),
  ("-l", .library), ("--library", .library),
  ("-H", .hertz), ("--hertz", .hertz),
  ("-w", .width), ("--width", .width),
  ("--height", .height), ("--stack-limit", .stackLimit), ("--config", .config),
  ("--max-seconds", .maxSeconds), ("--frames-dir", .framesDirectory)]

namespace OptionKey

/-- The option of a name. -/
def ofName? (name : String) : Option OptionKey :=
  (optionNames.find? fun entry => entry.1 == name).map Prod.snd

/-- All names of an option, as messages show them. -/
def shown (key : OptionKey) : String :=
  String.intercalate "/" ((optionNames.filter fun entry => entry.2 == key).map Prod.fst)

/-- Does the option take a value? -/
def takesValue : OptionKey → Bool
  | .help | .debug => false
  | _ => true

end OptionKey

/-- Why a command line cannot be used. -/
inductive UsageError where
  /-- A shortened name fits several options. -/
  | ambiguous (word : String) (names : List String)
  /-- A value was given to an option that takes none. -/
  | needlessValue (key : OptionKey) (value : String)
  | missingValue (key : OptionKey)
  /-- A value is no number of the kind (`float` or `int`) that the option takes. -/
  | badNumber (key : OptionKey) (kind value : String)
  | unknownChoice (key : OptionKey) (value : String)
  | missingProgram
  | leftovers (words : List String)
deriving DecidableEq, Repr

namespace UsageError

/-- The wording of an error that an option has. -/
def ofOption (key : OptionKey) (text : String) : String := "argument " ++ key.shown ++ ": " ++ text

/-- The wording of a usage error. -/
def message : UsageError → String
  | .ambiguous word names =>
    "ambiguous option: " ++ word ++ " could match " ++ String.intercalate ", " names
  | .needlessValue key value => ofOption key ("ignored explicit argument " ++ Text.quoted value)
  | .missingValue key => ofOption key "expected one argument"
  | .badNumber key kind value =>
    ofOption key ("invalid " ++ kind ++ " value: " ++ Text.quoted value)
  | .unknownChoice key value =>
    ofOption key ("invalid choice: " ++ Text.quoted value ++ " (choose from 'pygame', 'headless')")
  | .missingProgram => "the following arguments are required: ROM_FILE"
  | .leftovers words => "unrecognized arguments: " ++ String.intercalate " " words

end UsageError

/-- How a value is attached to the name of its option. -/
inductive Attached where
  | nothing
  | joined (value : String)
  | equals (value : String)
deriving DecidableEq, Repr

/-- What a word is taken for. -/
inductive Reading where
  | operand
  | separator
  | option (key : OptionKey) (name : String) (value : Attached)
  | unknownOption
deriving DecidableEq, Repr

/-- A word with its reading. -/
structure Word where
  text : String
  reading : Reading
deriving DecidableEq, Repr

/-- Splits a text at its first equals sign. -/
def splitEquals (text : List Char) : List Char × Option (List Char) :=
  match text.dropWhile (· != '=') with
  | [] => (text, none)
  | _ :: value => (text.takeWhile (· != '='), some value)

/-- A value behind an equals sign, if there is one. -/
def attachedEquals : Option (List Char) → Attached
  | none => .nothing
  | some value => .equals (String.ofList value)

/-- The options that a shortened or joined name may stand for. -/
def candidates (text : List Char) : List (OptionKey × String × Attached) :=
  match text with
  | '-' :: '-' :: _ =>
    let (start, value) := splitEquals text
    (optionNames.filter fun entry => start.isPrefixOf entry.1.toList).map fun entry =>
      (entry.2, entry.1, attachedEquals value)
  | a :: b :: rest =>
    (optionNames.filter fun entry => entry.1.toList == [a, b]).map fun entry =>
      (entry.2, entry.1, .joined (String.ofList rest))
  | _ => []

/-- A text without one line feed at its end. -/
def dropLineEnd (text : List Char) : List Char :=
  if text.getLast? = some '\n' then text.dropLast else text

/-- Does the text look like a negative number? Digits, or a point with digits after it. -/
def isNegativeNumber (text : List Char) : Bool :=
  match dropLineEnd text with
  | '-' :: rest =>
    let digits := rest.takeWhile Text.isDecimalDigit
    match rest.dropWhile Text.isDecimalDigit with
    | [] => !digits.isEmpty
    | '.' :: part => !part.isEmpty && part.all Text.isDecimalDigit
    | _ => false
  | _ => false

/-- Reads one word before the separator. -/
def readWord (word : String) : Except UsageError Reading :=
  let text := word.toList
  if text.head? ≠ some '-' then .ok .operand
  else
    match OptionKey.ofName? word with
    | some key => .ok (.option key word .nothing)
    | none =>
      if text.length = 1 then .ok .operand
      else
        let (start, value) := splitEquals text
        match value, OptionKey.ofName? (String.ofList start) with
        | some value, some key =>
          .ok (.option key (String.ofList start) (.equals (String.ofList value)))
        | _, _ =>
          match candidates text with
          | [] =>
            if isNegativeNumber text || text.contains ' ' then .ok .operand else .ok .unknownOption
          | [(key, name, value)] => .ok (.option key name value)
          | several => .error (.ambiguous word (several.map fun entry => entry.2.1))

/-- Reads all words; those after the separator are operands. -/
def readWords : List String → Except UsageError (List Word)
  | [] => .ok []
  | word :: rest =>
    if word = "--" then .ok (⟨word, .separator⟩ :: rest.map fun text => ⟨text, .operand⟩)
    else do
      let reading ← readWord word
      return ⟨word, reading⟩ :: (← readWords rest)

/-- What a command line says. -/
structure Arguments where
  program : Option String
  debug : Bool
  library : Option Backend
  hertz : Option Binary64
  width : Option Int
  height : Option Int
  stackLimit : Option Int
  config : Option String
  maxSeconds : Option Binary64
  framesDirectory : Option String
deriving DecidableEq, Repr

/-- Nothing is said. -/
def Arguments.empty : Arguments := ⟨none, false, none, none, none, none, none, none, none, none⟩

/-- Why the reading of a command line ends early. -/
inductive Stop where
  | help
  | usage (cause : UsageError)
deriving DecidableEq, Repr

/-- Digits without the underscores between them. -/
def readDigits? (s : List Char) : Option Nat := do
  let digits ← Binary64.dropUnderscores? ' ' s
  if digits.isEmpty || !digits.all Char.isDigit then none else some (Binary64.digitsValue digits)

/-- The most digits that an integer may have. -/
def mostDigits : Nat := 4300

/-- Reads an integer from its text: digits of any script with single underscores between them, an
optional sign, and white space around them. -/
def readInteger? (s : String) : Option Int := do
  let (negative, rest) := Binary64.splitSign (Binary64.plainNumeral s.toList)
  let n ← readDigits? rest
  if mostDigits < (rest.filter Char.isDigit).length then none
  else some (if negative then -(n : Int) else n)

/-- The value of an option as a binary number. -/
def floatValue (key : OptionKey) (value : String) : Except Stop Binary64 :=
  match Binary64.readFloat? value.toList with
  | some x => .ok x
  | none => .error (.usage (.badNumber key "float" value))

/-- The value of an option as an integer. -/
def integerValue (key : OptionKey) (value : String) : Except Stop Int :=
  match readInteger? value with
  | some n => .ok n
  | none => .error (.usage (.badNumber key "int" value))

/-- The value of an option as a backend. -/
def backendValue (key : OptionKey) (value : String) : Except Stop Backend :=
  match Backend.ofName? value with
  | some backend => .ok backend
  | none => .error (.usage (.unknownChoice key value))

/-- What an option without a value says. -/
def Arguments.switchOn (a : Arguments) : OptionKey → Except Stop Arguments
  | .help => .error .help
  | _ => .ok { a with debug := true }

/-- What an option with a value says. -/
def Arguments.set (a : Arguments) (key : OptionKey) (value : String) : Except Stop Arguments := do
  match key with
  | .help | .debug => a.switchOn key
  | .library => return { a with library := some (← backendValue key value) }
  | .hertz => return { a with hertz := some (← floatValue key value) }
  | .width => return { a with width := some (← integerValue key value) }
  | .height => return { a with height := some (← integerValue key value) }
  | .stackLimit => return { a with stackLimit := some (← integerValue key value) }
  | .config => return { a with config := some value }
  | .maxSeconds => return { a with maxSeconds := some (← floatValue key value) }
  | .framesDirectory => return { a with framesDirectory := some value }

/-- A word taken apart: the options in it that take no value, the option that takes one with the
value if the word has it, and the rest if that starts no option. -/
structure Cluster where
  switches : List OptionKey
  valued : Option (OptionKey × Option String)
  leftover : Option String
deriving DecidableEq, Repr

/-- Is the name a short one? -/
def isShort (name : String) : Bool :=
  match name.toList with
  | _ :: second :: _ => second != '-'
  | _ => false

/-- Takes the short names apart that stand behind an option without a value. -/
def clusterRest (key : OptionKey) : List Char → Except UsageError Cluster
  | [] => .ok ⟨[key], none, none⟩
  | c :: rest =>
    if c = '-' then .error (.needlessValue key (String.ofList (c :: rest)))
    else
      match OptionKey.ofName? (String.ofList ['-', c]) with
      | none => .ok ⟨[key], none, some (String.ofList ('-' :: c :: rest))⟩
      | some next =>
        let value : Option String :=
          match rest with
          | [] => none
          | '=' :: value => some (String.ofList value)
          | value => some (String.ofList value)
        if next.takesValue then .ok ⟨[key], some (next, value), none⟩
        else
          match rest with
          | '=' :: value => .error (.needlessValue next (String.ofList value))
          | _ => do
            let cluster ← clusterRest next rest
            return { cluster with switches := key :: cluster.switches }

/-- Takes the word of an option apart. -/
def cluster (key : OptionKey) (name : String) (value : Attached) : Except UsageError Cluster :=
  if key.takesValue then
    match value with
    | .nothing => .ok ⟨[], some (key, none), none⟩
    | .joined value | .equals value => .ok ⟨[], some (key, some value), none⟩
  else
    match value with
    | .nothing => .ok ⟨[key], none, none⟩
    | .equals value => .error (.needlessValue key value)
    | .joined value =>
      if isShort name then clusterRest key value.toList else .error (.needlessValue key value)

/-- The arguments so far and the words that nothing claims. -/
structure Progress where
  arguments : Arguments
  leftovers : List String
deriving DecidableEq, Repr

/-- Carries the switches of a cluster out. -/
def switchAll (a : Arguments) : List OptionKey → Except Stop Arguments
  | [] => .ok a
  | key :: rest => do switchAll (← a.switchOn key) rest

/-- Takes an option in, with its value from the next word if it needs one; answers the words that
follow. -/
def takeOption (p : Progress) (key : OptionKey) (name : String) (value : Attached)
    (rest : List Word) : Except Stop (Progress × List Word) := do
  let parts ← (cluster key name value).mapError Stop.usage
  let p := { p with leftovers := p.leftovers ++ parts.leftover.toList }
  match parts.valued with
  | none => return ({ p with arguments := ← switchAll p.arguments parts.switches }, rest)
  | some (key, some value) =>
    let a ← switchAll p.arguments parts.switches
    return ({ p with arguments := ← a.set key value }, rest)
  | some (key, none) =>
    match rest with
    | ⟨value, .operand⟩ :: rest =>
      let a ← switchAll p.arguments parts.switches
      return ({ p with arguments := ← a.set key value }, rest)
    | _ => throw (.usage (.missingValue key))

/-- Is the word an option, known or not? -/
def Word.isOption (w : Word) : Bool :=
  match w.reading with
  | .option .. | .unknownOption => true
  | _ => false

/-- Takes the program file from the head of the words, with a separator on either side of it. -/
def takeProgram (p : Progress) (words : List Word) : Progress × List Word :=
  let named (program : String) : Progress :=
    { p with arguments := { p.arguments with program := some program } }
  if p.arguments.program.isSome then (p, words)
  else
    match words with
    | ⟨program, .operand⟩ :: ⟨_, .separator⟩ :: rest => (named program, rest)
    | ⟨program, .operand⟩ :: rest => (named program, rest)
    | ⟨_, .separator⟩ :: ⟨program, .operand⟩ :: rest => (named program, rest)
    | _ => (p, words)

/-- Gives the words to the program file and the options, from left to right; `fuel` bounds the
number of words. -/
def distribute : (fuel : Nat) → Progress → List Word → Except Stop Progress
  | 0, p, _ => .ok p
  | fuel + 1, p, words =>
    if words.any Word.isOption then
      match words with
      | [] => .ok p
      | ⟨_, .option key name value⟩ :: rest => do
        let (p, rest) ← takeOption p key name value rest
        distribute fuel p rest
      | ⟨text, .unknownOption⟩ :: rest =>
        distribute fuel { p with leftovers := p.leftovers ++ [text] } rest
      | _ =>
        let (q, rest) := takeProgram p words
        if rest.length < words.length then distribute fuel q rest
        else
          let skipped := (words.takeWhile fun w => !w.isOption).map Word.text
          distribute fuel { p with leftovers := p.leftovers ++ skipped }
            (words.dropWhile fun w => !w.isOption)
    else
      let (p, rest) := takeProgram p words
      .ok { p with leftovers := p.leftovers ++ rest.map Word.text }

/-- What a command line says, with the name of the program file. -/
def parse (words : List String) : Except Stop (String × Arguments) := do
  let words ← (readWords words).mapError Stop.usage
  let p ← distribute (words.length + 1) ⟨.empty, []⟩ words
  match p.arguments.program with
  | none => throw (.usage .missingProgram)
  | some program =>
    if p.leftovers.isEmpty then return (program, p.arguments)
    else throw (.usage (.leftovers p.leftovers))

end ChipEight.CommandLine
