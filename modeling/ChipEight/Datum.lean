import ChipEight.Number
import ChipEight.Text.Quoted

/-!
# Data of settings

A setting may be given any value of the JSON data model before it is checked. `Datum` is that model,
integers and binary numbers told apart; a record keeps its fields in order. `Datum.shown` is the
text of a value inside a message. It is made at any depth of nesting and for integers of any length;
where texts are made on a call stack of limited size, or only of integers up to a number of digits,
there is none beyond these limits.
-/

namespace ChipEight

/-- A value of the JSON data model. -/
inductive Datum where
  | null
  | bool (b : Bool)
  | int (n : Int)
  | real (x : Binary64)
  | text (s : String)
  | list (items : List Datum)
  | record (fields : List (String × Datum))
deriving Repr

namespace Datum

mutual

/-- The text of a value inside a message. -/
def shown : Datum → String
  | .null => "None"
  | .bool b => if b then "True" else "False"
  | .int n => toString n
  | .real x => x.text
  | .text s => Text.quoted s
  | .list items => "[" ++ String.intercalate ", " (shownItems items) ++ "]"
  | .record fields => "\x7b" ++ String.intercalate ", " (shownFields fields) ++ "\x7d"

/-- The texts of the items of a list. -/
def shownItems : List Datum → List String
  | [] => []
  | item :: rest => shown item :: shownItems rest

/-- The texts of the fields of a record. -/
def shownFields : List (String × Datum) → List String
  | [] => []
  | (name, value) :: rest => (Text.quoted name ++ ": " ++ shown value) :: shownFields rest

end

/-- A number as a setting. -/
def ofNumber : Number → Datum
  | .int n => .int n
  | .real x => .real x

/-- Is the value true when it is taken for a condition? Empty and zero values are not. -/
def isTruthy : Datum → Bool
  | .null => false
  | .bool b => b
  | .int n => n != 0
  | .real (.finite _ m _) => m != 0
  | .real _ => true
  | .text s => !s.isEmpty
  | .list items => !items.isEmpty
  | .record fields => !fields.isEmpty

end Datum

/-- Sets a field of a record: in place if the record has it, else at the end. -/
def setField (fields : List (String × α)) (name : String) (value : α) : List (String × α) :=
  match fields with
  | [] => [(name, value)]
  | (n, v) :: rest => if n = name then (n, value) :: rest else (n, v) :: setField rest name value

/-- The value of a field of a record. -/
def getField? (fields : List (String × α)) (name : String) : Option α :=
  match fields with
  | [] => none
  | (n, v) :: rest => if n = name then some v else getField? rest name

end ChipEight
