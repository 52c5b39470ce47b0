import ChipEight.Text.Blank

/-!
# Words compared without regard to case

Full case folding, as far as a comparison with a word of ASCII letters needs it: the table holds
every character whose folding contains an ASCII letter, so a character left out of it can only make
the comparison fail, whatever it folds to.
-/

namespace ChipEight.Text

/-- What one character folds to, when that contains an ASCII letter. -/
def foldChar (c : Char) : List Char :=
  match c.toNat with
  | 0xDF | 0x1E9E => ['s', 's']
  | 0x130 => ['i', Char.ofNat 0x307]
  | 0x149 => [Char.ofNat 0x2BC, 'n']
  | 0x17F => ['s']
  | 0x1F0 => ['j', Char.ofNat 0x30C]
  | 0x1E96 => ['h', Char.ofNat 0x331]
  | 0x1E97 => ['t', Char.ofNat 0x308]
  | 0x1E98 => ['w', Char.ofNat 0x30A]
  | 0x1E99 => ['y', Char.ofNat 0x30A]
  | 0x1E9A => ['a', Char.ofNat 0x2BE]
  | 0x212A => ['k']
  | 0xFB00 => ['f', 'f']
  | 0xFB01 => ['f', 'i']
  | 0xFB02 => ['f', 'l']
  | 0xFB03 => ['f', 'f', 'i']
  | 0xFB04 => ['f', 'f', 'l']
  | 0xFB05 | 0xFB06 => ['s', 't']
  | n => if 65 ≤ n ∧ n ≤ 90 then [Char.ofNat (n + 32)] else [c]

/-- The folded form of a text, as far as comparisons with ASCII words can tell. -/
def foldCase (s : List Char) : List Char := s.flatMap foldChar

end ChipEight.Text
