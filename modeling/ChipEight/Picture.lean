import ChipEight.Machine.Raster

/-!
# Pictures of a raster

A picture is a rectangle of coloured pixels in row-major order. A raster is painted in two colours
and enlarged by repeating each pixel `zoom` times in both directions.
-/

namespace ChipEight

/-- A colour by its red, green and blue parts. -/
structure Color where
  red : UInt8
  green : UInt8
  blue : UInt8
deriving DecidableEq, Repr

namespace Color

/-- The colour of lit pixels. -/
def white : Color := ⟨255, 255, 255⟩

/-- The colour of pixels that are off. -/
def black : Color := ⟨0, 0, 0⟩

end Color

/-- A rectangle of coloured pixels in row-major order. -/
structure Picture where
  width : Nat
  height : Nat
  pixels : Array Color
deriving DecidableEq, Repr

namespace Picture

/-- The pixel of a column and a row. -/
def pixel? (p : Picture) (column row : Nat) : Option Color :=
  if column < p.width then p.pixels[row * p.width + column]? else none

/-- A picture in one colour. -/
def filled (width height : Nat) (color : Color) : Picture :=
  ⟨width, height, Array.replicate (width * height) color⟩

/-- A raster painted in two colours. -/
def ofRaster (r : Raster) (on off : Color) : Picture :=
  ⟨r.width, r.height, r.cells.map fun cell => if cell then on else off⟩

/-- Each item of a list `count` times in a row. -/
def repeatEach (count : Nat) (items : List α) : List α :=
  items.flatMap fun item => List.replicate count item

/-- The rows of the picture. -/
def rows (p : Picture) : List (List Color) :=
  (List.range p.height).map fun row =>
    (p.pixels.extract (row * p.width) (row * p.width + p.width)).toList

/-- The picture with every pixel repeated `across` times to the right and `down` times below. -/
def stretch (p : Picture) (across down : Nat) : Picture :=
  ⟨p.width * across, p.height * down,
    (repeatEach down (p.rows.map (repeatEach across))).flatten.toArray⟩

/-- The picture brought to another size; each pixel shows the nearest one above and to the left. -/
def scaled (p : Picture) (width height : Nat) : Picture :=
  let pixel (k : Nat) : Color :=
    p.pixels.getD (k / width * p.height / height * p.width + k % width * p.width / width) .black
  ⟨width, height, Array.ofFn fun k : Fin (width * height) => pixel k.val⟩

/-- The picture of a raster in two colours, enlarged. -/
def render (r : Raster) (zoom : Int) (on off : Color) : Except Fault Picture :=
  if zoom < 1 then .error (.zoomTooSmall zoom)
  else if zoom = 1 then .ok (ofRaster r on off)
  else if (r.width = 0 ∨ r.height = 0) ∧ ¬(r.width = 0 ∧ r.height = 0) then .error .emptyPicture
  else .ok ((ofRaster r on off).stretch zoom.toNat zoom.toNat)

/-- Appends a pixel to a list of runs that is kept with its last run first. -/
def addToRuns (runs : List (Nat × Color)) (color : Color) : List (Nat × Color) :=
  match runs with
  | (n, c) :: rest => if c = color then (n + 1, c) :: rest else (1, color) :: (n, c) :: rest
  | [] => [(1, color)]

/-- The lengths and colours of the runs of equal pixels, in row-major order. -/
def runs (p : Picture) : List (Nat × Color) := (p.pixels.foldl addToRuns []).reverse

end Picture

end ChipEight
