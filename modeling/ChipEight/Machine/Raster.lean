import ChipEight.Fault

/-!
# The raster and the screen

A raster has one bit a pixel. A sprite is a list of rows of eight pixels, the most significant bit
leftmost; drawing it flips the pixels under its set bits one after the other, left to right and top
to bottom, and coordinates wrap around at the edges. A draw collides when it turns a lit pixel off,
also one that the same draw had lit before.

A screen is a raster with a mark for changes since it was last shown: a draw and a clear set the
mark even if they leave every pixel as it was.
-/

namespace ChipEight

def spriteWidth : Nat := 8

/-- A rectangle of pixels in row-major order. -/
structure Raster where
  width : Nat
  height : Nat
  cells : Array Bool
  size_cells : cells.size = width * height
deriving DecidableEq, Repr

namespace Raster

/-- A raster with all pixels off. -/
def blank (width height : Nat) : Raster :=
  ⟨width, height, Array.replicate (width * height) false, by simp⟩

/-- The pixel of a column and a row inside the raster. -/
def lit (r : Raster) (column row : Nat) : Bool := r.cells.getD (row * r.width + column) false

def flip (r : Raster) (column row : Nat) : Raster :=
  { r with
    cells := r.cells.modify (row * r.width + column) not
    size_cells := by rw [Array.size_modify]; exact r.size_cells }

def litCount (r : Raster) : Nat := r.cells.count true

/-- A coordinate brought into an axis of `size` pixels. -/
def wrap (coordinate : Int) (size : Nat) : Nat := (coordinate % size).toNat

/-- The pixel at any coordinates; there is none when an axis has no pixels. -/
def pixel (r : Raster) (x y : Int) : Except Fault Bool :=
  if r.width = 0 ∨ r.height = 0 then .error .emptyAxis
  else .ok (r.lit (wrap x r.width) (wrap y r.height))

/-- The bit for column `column` of a sprite row. -/
def spriteBit (row : UInt8) (column : Nat) : Bool := row.toNat.testBit (spriteWidth - 1 - column)

/-- The columns of the set bits of a sprite row. -/
def setColumns (row : UInt8) : List Nat := (List.range spriteWidth).filter (spriteBit row)

/-- The pixels that a sprite drawn at `x`, `y` turns over, in order. -/
def hits (width height : Nat) (x y : Int) : List UInt8 → List (Nat × Nat)
  | [] => []
  | row :: rest =>
    (setColumns row).map (fun (b : Nat) => (wrap (x + b) width, wrap y height)) ++
      hits width height x (y + 1) rest

/-- Turns a pixel over; the flag tells whether a lit pixel was turned off so far. -/
def strike (state : Raster × Bool) (hit : Nat × Nat) : Raster × Bool :=
  let was := state.1.lit hit.1 hit.2
  (state.1.flip hit.1 hit.2, state.2 || was)

/-- The raster after a sprite was drawn, and whether the draw collided. -/
def draw (r : Raster) (x y : Int) (rows : List UInt8) : Raster × Bool :=
  (hits r.width r.height x y rows).foldl strike (r, false)

/-- Would drawing the rows wrap a coordinate on an axis without pixels? -/
def lacksAxis (r : Raster) (rows : List UInt8) : Bool :=
  (r.height == 0 && !rows.isEmpty) || (r.width == 0 && rows.any (· != 0))

def rows (r : Raster) : List (List Bool) :=
  (List.range r.height).map fun row => (List.range r.width).map fun column => r.lit column row

/-- The text of a row, a cell being either of two texts. -/
def rowText (on off : String) (row : List Bool) : String :=
  String.join (row.map fun cell => if cell then on else off)

/-- The raster as text, one line a row. -/
def text (r : Raster) (on off : String) : String :=
  String.intercalate "\n" (r.rows.map (rowText on off))

end Raster

/-- A raster and whether it changed since it was last shown. -/
structure Screen where
  raster : Raster
  dirty : Bool
deriving DecidableEq, Repr

namespace Screen

def standardWidth : Nat := 64

def standardHeight : Nat := 32

/-- A blank screen, not shown yet. -/
def blank (width height : Nat) : Screen := ⟨.blank width height, true⟩

/-- A blank screen; negative sides are refused. -/
def make (width height : Int) : Except Fault Screen :=
  if width < 0 ∨ height < 0 then .error .negativeRaster
  else .ok (blank width.toNat height.toNat)

def clear (s : Screen) : Screen := ⟨.blank s.raster.width s.raster.height, true⟩

def draw (s : Screen) (x y : Int) (rows : List UInt8) : Except Fault (Screen × Bool) :=
  if s.raster.lacksAxis rows then .error .emptyAxis
  else
    let (raster, collision) := s.raster.draw x y rows
    .ok (⟨raster, true⟩, collision)

end Screen

end ChipEight
