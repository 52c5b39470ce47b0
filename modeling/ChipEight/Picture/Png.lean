import ChipEight.Picture

/-!
# Pictures as PNG files

The plainest form of the format: eight bits a channel, no filter, one data chunk that holds the rows
in stored blocks. It is the encoder that the program brings to its file tree; what the library proves
holds for any.
-/

namespace ChipEight.Picture

/-- A number in four bytes, the highest first. -/
def bigEndian32 (n : Nat) : List UInt8 :=
  [UInt8.ofNat (n / 16777216), UInt8.ofNat (n / 65536), UInt8.ofNat (n / 256), UInt8.ofNat n]

/-- A number in two bytes, the lowest first. -/
def littleEndian16 (n : Nat) : List UInt8 := [UInt8.ofNat n, UInt8.ofNat (n / 256)]

/-- One bit of the cyclic redundancy check. -/
def crcBit (c : UInt32) : UInt32 :=
  if c % 2 = 1 then (c >>> 1) ^^^ 0xEDB88320 else c >>> 1

/-- One byte of the cyclic redundancy check. -/
def crcByte (c : UInt32) (b : UInt8) : UInt32 :=
  (List.range 8).foldl (fun c _ => crcBit c) (c ^^^ b.toUInt32)

/-- The cyclic redundancy check of a byte string. -/
def crc (bytes : List UInt8) : UInt32 := bytes.foldl crcByte 0xFFFFFFFF ^^^ 0xFFFFFFFF

/-- The modulus of the checksum. -/
def adlerBase : Nat := 65521

/-- The checksum of a byte string: its sum, and the sum of the sums of its beginnings. -/
def adler (bytes : List UInt8) : Nat :=
  let sums := bytes.foldl
    (fun (s : Nat × Nat) b =>
      let low := (s.1 + b.toNat) % adlerBase
      (low, (s.2 + low) % adlerBase))
    (1, 0)
  sums.2 * 65536 + sums.1

/-- The greatest length of a stored block. -/
def blockLimit : Nat := 65535

/-- A byte string in stored blocks; `fuel` bounds their number. -/
def storedBlocks : (fuel : Nat) → List UInt8 → List UInt8
  | 0, _ => []
  | fuel + 1, bytes =>
    let block := bytes.take blockLimit
    let rest := bytes.drop blockLimit
    let header (last : UInt8) : List UInt8 :=
      last :: littleEndian16 block.length ++ littleEndian16 (65535 - block.length)
    if rest.isEmpty then header 1 ++ block else header 0 ++ block ++ storedBlocks fuel rest

/-- A byte string in the compressed container, uncompressed. -/
def stored (bytes : List UInt8) : List UInt8 :=
  [0x78, 0x01] ++ storedBlocks (bytes.length / blockLimit + 1) bytes ++ bigEndian32 (adler bytes)

/-- A chunk of the file. -/
def chunk (name : String) (body : List UInt8) : List UInt8 :=
  let named := name.toUTF8.toList ++ body
  bigEndian32 body.length ++ named ++ bigEndian32 (crc named).toNat

/-- The bytes of a row: the filter, then the channels of its pixels. -/
def rowBytes (row : List Color) : List UInt8 :=
  0 :: row.flatMap fun c => [c.red, c.green, c.blue]

/-- The picture as the bytes of a file. -/
def toPng (p : Picture) : List UInt8 :=
  [0x89, 0x50, 0x4E, 0x47, 0x0D, 0x0A, 0x1A, 0x0A] ++
    chunk "IHDR" (bigEndian32 p.width ++ bigEndian32 p.height ++ [8, 2, 0, 0, 0]) ++
    chunk "IDAT" (stored (p.rows.flatMap rowBytes)) ++ chunk "IEND" []

end ChipEight.Picture
