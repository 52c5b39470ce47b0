/-!
# The journal

What a program reports while it works: entries in the order in which they were made, each with its
weight and the part of the program that made it. How entries are shown, and which of them, is
decided by the reader of the journal.
-/

namespace ChipEight

/-- The weight of an entry, in increasing order. -/
inductive Level where
  | debug
  | info
  | warning
  | error
deriving DecidableEq, Repr

namespace Level

/-- The name of a level. -/
def name : Level → String
  | .debug => "DEBUG"
  | .info => "INFO"
  | .warning => "WARNING"
  | .error => "ERROR"

/-- The place of a level in the order of weights. -/
def rank : Level → Nat
  | .debug => 0
  | .info => 1
  | .warning => 2
  | .error => 3

end Level

/-- One report. -/
structure Entry where
  level : Level
  source : String
  message : String
deriving DecidableEq, Repr

namespace Entry

/-- The usual form of an entry. -/
def text (e : Entry) : String := "[" ++ e.level.name ++ "] " ++ e.source ++ ": " ++ e.message

/-- The form of an entry before the settings are known. -/
def plainText (e : Entry) : String := e.level.name ++ ":" ++ e.source ++ ":" ++ e.message

end Entry

/-- The entries made so far. -/
structure Journal where
  entries : Array Entry
deriving DecidableEq, Repr

namespace Journal

/-- Nothing was reported yet. -/
def empty : Journal := ⟨#[]⟩

/-- The journal with a further entry. -/
def add (j : Journal) (level : Level) (source message : String) : Journal :=
  ⟨j.entries.push ⟨level, source, message⟩⟩

/-- The entries of at least a given weight, from number `start` on. -/
def since (j : Journal) (start : Nat) (least : Level) : List Entry :=
  (j.entries.toList.drop start).filter fun e => least.rank ≤ e.level.rank

end Journal

end ChipEight
