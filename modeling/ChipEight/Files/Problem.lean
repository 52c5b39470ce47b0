import ChipEight.Text.Quoted

/-!
# Problems with files

A file system refuses what it is asked for a reason that has a number and a text. It is not even
asked about a path with a null character, which is no path.
-/

namespace ChipEight

/-- Why a file system refuses an operation. -/
inductive FileProblem where
  | notFound
  | denied
  | alreadyThere
  | notDirectory
  | isDirectory
  | nameTooLong
  /-- A problem with any other number. -/
  | other (number : Nat) (text : String)
deriving DecidableEq, Repr

namespace FileProblem

/-- The number of a problem. -/
def number : FileProblem → Nat
  | .notFound => 2
  | .denied => 13
  | .alreadyThere => 17
  | .notDirectory => 20
  | .isDirectory => 21
  | .nameTooLong => 36
  | .other number _ => number

/-- The text of a problem. -/
def text : FileProblem → String
  | .notFound => "No such file or directory"
  | .denied => "Permission denied"
  | .alreadyThere => "File exists"
  | .notDirectory => "Not a directory"
  | .isDirectory => "Is a directory"
  | .nameTooLong => "File name too long"
  | .other _ text => text

end FileProblem

/-- Why a path cannot be used. -/
inductive FileError where
  /-- The file system refuses the path. -/
  | refused (problem : FileProblem) (path : String)
  /-- The path has a null character. -/
  | nullByte
deriving DecidableEq, Repr

namespace FileError

/-- The wording of a file error. -/
def message : FileError → String
  | .refused problem path => s!"[Errno {problem.number}] {problem.text}: " ++ Text.quoted path
  | .nullByte => "embedded null byte"

/-- Does the error only say that nothing is there? The numbers are those of a missing name, of a
device that is not open, of a name that is no directory and of links that go round in a circle. -/
def isAbsence : FileError → Bool
  | .refused problem _ => [2, 9, 20, 40].contains problem.number
  | .nullByte => true

/-- Is a name on the way missing, or the last one? -/
def isNotFound : FileError → Bool
  | .refused problem _ => problem.number == FileProblem.notFound.number
  | .nullByte => false

end FileError

end ChipEight
