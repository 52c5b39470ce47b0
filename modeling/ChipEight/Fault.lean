import ChipEight.Files.Problem
import ChipEight.Number
import ChipEight.Text.Hex
import ChipEight.Text.Quoted

/-!
# Faults

Everything that can go wrong while a machine is built, runs, or is shown and heard through a host.
A fault records its cause; `Fault.message` is its wording. The faults of the machine and of its
hosts form one family (`Fault.isOperational`): they end a run in an orderly way. The others report
an argument that is refused, or a number or a file that cannot be used.
-/

namespace ChipEight

/-- The cause of a failure. -/
inductive Fault where
  /-- A memory access leaves the memory. -/
  | outOfBounds (operation : String) (address length : Int)
  /-- The end of a block write does not fit the 16-bit address space. -/
  | addressOverflow (operation : String) (address length : Int)
  /-- A subroutine returns and there is no call to return from. -/
  | stackUnderflow (pc : Int)
  /-- A call would exceed the limit of the call stack. -/
  | stackOverflow (pc limit : Int)
  /-- The word is no instruction. -/
  | unrecognizedOpcode (opcode : Int) (pc : Option Int)
  /-- The keypad has no such key. -/
  | invalidKey (key : Int) (pc : Option Int)
  /-- A display, an input or a speaker fails. -/
  | hostFailure (reason : String)
  /-- A failure of the family above with no further cause. -/
  | unspecified (reason : String)
  /-- A device was used after it was closed. -/
  | closedDevice (reason : String)
  /-- There is no register with this index. -/
  | noSuchRegister (index : Int)
  /-- A coordinate was to be wrapped on an axis without pixels. -/
  | emptyAxis
  /-- A value to be written does not fit a byte. -/
  | notAByte
  /-- A memory of a negative size was asked for. -/
  | negativeMemory
  /-- A raster with a negative side was asked for. -/
  | negativeRaster
  /-- A picture without pixels cannot be enlarged. -/
  | emptyPicture
  /-- A picture cannot be shrunk. -/
  | zoomTooSmall (zoom : Int)
  /-- The limit of a call stack must be positive. -/
  | badStackLimit (limit : Int)
  /-- The instruction frequency must be positive. -/
  | badFrequency (hertz : Number)
  /-- The timer frequency must be positive. -/
  | badTimerFrequency (hertz : Number)
  /-- There is no backend of this name. -/
  | unknownBackend (name : String)
  /-- A number cannot be brought into the form that is needed. -/
  | number (cause : NumberError)
  /-- The system does not wait for so many nanoseconds. -/
  | waitTooLong (nanos : Int)
  /-- A file cannot be used. -/
  | file (cause : FileError)
deriving DecidableEq, Repr

namespace Fault

/-- The names of the backends, as messages list them. -/
def backendNames : String := "('pygame', 'headless')"

/-- The place of a fault, when it is known. -/
def place : Option Int → String
  | some pc => " at PC=0x" ++ Text.hexNumber 4 pc
  | none => ""

/-- The wording of a fault. -/
def message : Fault → String
  | .outOfBounds operation address length =>
    operation ++ ": out of bounds access at 0x" ++ Text.hexNumber 4 address ++
      s!" (length {length})"
  | .addressOverflow operation address length =>
    operation ++ ": address 0x" ++ Text.hexNumber 4 address ++ s!" + length {length} overflows"
  | .stackUnderflow pc => "return with empty call stack at PC=0x" ++ Text.hexNumber 4 pc
  | .stackOverflow pc limit =>
    "call stack overflow at PC=0x" ++ Text.hexNumber 4 pc ++ s!" (limit {limit} entries)"
  | .unrecognizedOpcode opcode pc =>
    "unrecognized opcode 0x" ++ Text.hexNumber 4 opcode ++ place pc
  | .invalidKey key pc => "invalid key code 0x" ++ Text.hexNumber 2 key ++ place pc
  | .hostFailure reason => reason
  | .unspecified reason => reason
  | .closedDevice reason => reason
  | .noSuchRegister index => s!"no register {index}"
  | .emptyAxis => "integer modulo by zero"
  | .notAByte => "bytes must be in range(0, 256)"
  | .negativeMemory => "negative count"
  | .negativeRaster => "negative dimensions are not allowed"
  | .emptyPicture => "height and width must be > 0"
  | .zoomTooSmall zoom => s!"Zoom must be >= 1, got {zoom}"
  | .badStackLimit limit => s!"Stack limit must be positive, got {limit}"
  | .badFrequency hertz => "Instruction frequency must be positive, got " ++ hertz.text
  | .badTimerFrequency hertz => "Timer frequency must be positive, got " ++ hertz.text
  | .unknownBackend name =>
    "Unknown backend " ++ Text.quoted name ++ " (expected one of " ++ backendNames ++ ")"
  | .number cause => cause.message
  | .waitTooLong _ => "timestamp too large to convert to C _PyTime_t"
  | .file cause => cause.message

/-- The faults of the machine and its hosts, which end a run in an orderly way. -/
def isOperational : Fault → Bool
  | .outOfBounds .. | .addressOverflow .. | .stackUnderflow _ | .stackOverflow .. => true
  | .unrecognizedOpcode .. | .invalidKey .. | .hostFailure _ | .unspecified _ => true
  | _ => false

end Fault

end ChipEight
