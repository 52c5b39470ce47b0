/-!
# Paths

A path names a place in a file tree by the names on the way to it, separated by slashes. In its
normal form it has no empty names and no single dots; a path without names is the directory that it
starts from. Two leading slashes are kept apart from one.
-/

namespace ChipEight

/-- A path in normal form: the slashes that it starts with, and the names. -/
structure Path where
  root : String
  parts : List String
deriving DecidableEq, Repr

namespace Path

/-- The pieces of a text between slashes. -/
def splitSlashes : List Char → List (List Char)
  | [] => [[]]
  | c :: rest =>
    if c = '/' then [] :: splitSlashes rest
    else
      match splitSlashes rest with
      | [] => [[c]]
      | piece :: pieces => (c :: piece) :: pieces

/-- The pieces of a text between slashes, as texts. -/
def pieces (text : String) : List String := (splitSlashes text.toList).map String.ofList

/-- The slashes that a path starts with. -/
def rootOf (text : String) : String :=
  match (text.toList.takeWhile (· == '/')).length with
  | 0 => ""
  | 2 => "//"
  | _ => "/"

/-- The normal form of a path. -/
def ofText (text : String) : Path :=
  ⟨rootOf text, (pieces text).filter fun piece => piece != "" && piece != "."⟩

/-- The text of a path. -/
def text (p : Path) : String :=
  if p.root.isEmpty && p.parts.isEmpty then "." else p.root ++ String.intercalate "/" p.parts

/-- The path one name further down. -/
def child (p : Path) (name : String) : Path := { p with parts := p.parts ++ [name] }

/-- The last name of a path. -/
def name (p : Path) : String := p.parts.getLastD ""

end Path

end ChipEight
