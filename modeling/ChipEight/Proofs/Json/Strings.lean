import ChipEight.Json.Writer

/-!
# Strings are read as the texts that they were written for

Every character of a text has its own way into a string: as itself, behind a backslash, by a letter,
or by one code unit or two in hexadecimal digits. Each way is read back as that character
(`readString_writeChar`), and so is the whole string as the text (`readString_flatMap`). A surrogate
pair is told from two code units by what follows: the text of a character is never the end of the
string.
-/

namespace ChipEight.Json

open ChipEight.Text

/-! ## Code units -/

theorem hexValue?_lowerHexDigit {d : Nat} (small : d < 16) :
    hexValue? (lowerHexDigit d) = some d := by
  have all : ∀ d < 16, hexValue? (lowerHexDigit d) = some d := by decide
  exact all d small

theorem fourHex?_lowerFixedHex {n : Nat} (small : n < 0x10000) (rest : List Char) :
    fourHex? (lowerFixedHex 4 n ++ rest) = some (n, rest) := by
  have digit (k : Nat) : hexValue? (lowerHexDigit (k % 16)) = some (k % 16) :=
    hexValue?_lowerHexDigit (Nat.mod_lt k (by decide))
  simp only [lowerFixedHex, List.nil_append, List.cons_append, fourHex?, digit, Option.bind_eq_bind,
    Option.bind_some, Option.pure_def, Option.some.injEq, Prod.mk.injEq, and_true]
  omega

/-- A character is no half of a surrogate pair. -/
theorem unitChar_toNat (c : Char) : unitChar c.toNat = c := by
  have valid : c.toNat < 0xD800 ∨ 0xDFFF < c.toNat ∧ c.toNat < 0x110000 := c.valid
  rw [unitChar, if_neg (by omega), Char.ofNat_toNat]

/-- A code unit is read as its character. -/
theorem readUnicodeEscape_unit {c : Char} (small : c.toNat < 0x10000) {rest : List Char}
    (further : rest ≠ []) :
    readUnicodeEscape (lowerFixedHex 4 c.toNat ++ rest) = .ok (c, rest) := by
  have valid : c.toNat < 0xD800 ∨ 0xDFFF < c.toNat ∧ c.toNat < 0x110000 := c.valid
  unfold readUnicodeEscape
  rw [fourHex?_lowerFixedHex small]
  cases rest with
  | nil => exact absurd rfl further
  | cons d rest =>
    dsimp only
    rw [if_neg (by omega), unitChar_toNat]

/-- Two code units that are the halves of a surrogate pair are read as one character. -/
theorem readUnicodeEscape_pair {n m : Nat} (first : 0xD800 ≤ n ∧ n < 0xDC00)
    (second : 0xDC00 ≤ m ∧ m < 0xE000) {rest : List Char} (further : rest ≠ []) :
    readUnicodeEscape (lowerFixedHex 4 n ++ (unitEscape m ++ rest)) =
      .ok (Char.ofNat (0x10000 + (n - 0xD800) * 0x400 + (m - 0xDC00)), rest) := by
  have long : 0 < rest.length := List.length_pos_iff.mpr further
  have length : 6 < (unitEscape m ++ rest).length := by
    simp [unitEscape, lowerFixedHex]
    omega
  have escape : unitEscape m ++ rest = '\\' :: 'u' :: (lowerFixedHex 4 m ++ rest) := rfl
  unfold readUnicodeEscape
  rw [fourHex?_lowerFixedHex (by omega)]
  rw [escape] at length ⊢
  simp only [first, second, length, fourHex?_lowerFixedHex (show m < 0x10000 by omega), and_self,
    if_true]

/-! ## Characters and strings -/

variable {opening fuel : Nat} {c : Char} {s rest tail after : List Char}

/-- A character behind a `\u` is the one that its code units stand for. -/
theorem readString_unicode (read : readUnicodeEscape s = .ok (c, rest))
    (further : readString opening fuel rest = .ok (tail, after)) :
    readString opening (fuel + 1) ('\\' :: 'u' :: s) = .ok (c :: tail, after) := by
  rw [readString, if_neg (by decide), if_pos (beq_self_eq_true _)]
  dsimp only
  rw [if_pos (beq_self_eq_true _), read]
  simp only [bind, Except.bind, further]
  rfl

/-- A letter behind a backslash stands for one character. -/
theorem readString_letter {e : Char} (letter : (e == 'u') = false) (stands : escapeChar? e = some c)
    (further : readString opening fuel rest = .ok (tail, after)) :
    readString opening (fuel + 1) ('\\' :: e :: rest) = .ok (c :: tail, after) := by
  rw [readString, if_neg (by decide), if_pos (beq_self_eq_true _)]
  dsimp only
  rw [letter, if_neg Bool.false_ne_true, stands]
  simp only [bind, Except.bind, further]
  rfl

/-- A character that needs no escape stands for itself. -/
theorem readString_plain (unmarked : (c == doubleQuote) = false ∧ (c == '\\') = false)
    (visible : 32 ≤ c.toNat) (further : readString opening fuel rest = .ok (tail, after)) :
    readString opening (fuel + 1) (c :: rest) = .ok (c :: tail, after) := by
  rw [readString.eq_def]
  dsimp only
  rw [unmarked.1, unmarked.2, if_neg Bool.false_ne_true, if_neg Bool.false_ne_true,
    if_neg (by omega)]
  simp only [bind, Except.bind, further]
  rfl

/-- **A character is read as it was written**, unless it is the last of the text. -/
theorem readString_writeChar (c : Char) (nonempty : rest ≠ [])
    (further : readString opening fuel rest = .ok (tail, after)) :
    readString opening (fuel + 1) (writeChar c ++ rest) = .ok (c :: tail, after) := by
  have concrete {n : Nat} (small : n < 0x80) (same : c.toNat = n) : c = Char.ofNat n := by
    rw [← same, Char.ofNat_toNat]
  unfold writeChar
  split
  case isTrue marked =>
    rcases Bool.or_eq_true_iff.mp marked with quote | slash
    · rw [beq_iff_eq.mp quote]
      exact readString_letter rfl rfl further
    · rw [beq_iff_eq.mp slash]
      exact readString_letter rfl rfl further
  case isFalse unmarked =>
    rw [Bool.or_eq_true, not_or, Bool.not_eq_true, Bool.not_eq_true] at unmarked
    split
    case isTrue same => exact beq_iff_eq.mp same ▸ readString_letter rfl rfl further
    split
    case isTrue same => exact beq_iff_eq.mp same ▸ readString_letter rfl rfl further
    split
    case isTrue same => exact beq_iff_eq.mp same ▸ readString_letter rfl rfl further
    split
    case isTrue same => exact concrete (by decide) same ▸ readString_letter rfl rfl further
    split
    case isTrue same => exact concrete (by decide) same ▸ readString_letter rfl rfl further
    split
    case isTrue plain => exact readString_plain unmarked plain.1 further
    split
    case isTrue small => exact readString_unicode (readUnicodeEscape_unit small nonempty) further
    case isFalse large =>
      have valid : c.toNat < 0xD800 ∨ 0xDFFF < c.toNat ∧ c.toNat < 0x110000 := c.valid
      have pair := readUnicodeEscape_pair (n := 0xD800 + (c.toNat - 0x10000) / 0x400)
        (m := 0xDC00 + (c.toNat - 0x10000) % 0x400) (by omega) (by omega) nonempty
      have joined : 0x10000 + (0xD800 + (c.toNat - 0x10000) / 0x400 - 0xD800) * 0x400 +
          (0xDC00 + (c.toNat - 0x10000) % 0x400 - 0xDC00) = c.toNat := by omega
      rw [joined, Char.ofNat_toNat] at pair
      rw [List.append_assoc]
      exact readString_unicode pair further

/-- **A string is read as its text.** -/
theorem readString_flatMap (opening : Nat) {fuel : Nat} {s : List Char} (enough : s.length < fuel)
    (rest : List Char) :
    readString opening fuel (s.flatMap writeChar ++ doubleQuote :: rest) = .ok (s, rest) := by
  induction s generalizing fuel with
  | nil =>
    obtain ⟨fuel, rfl⟩ := Nat.exists_eq_add_of_lt enough
    rfl
  | cons c s ih =>
    obtain ⟨fuel, rfl⟩ : ∃ k, fuel = k + 1 := ⟨fuel - 1, by omega⟩
    have nonempty : s.flatMap writeChar ++ doubleQuote :: rest ≠ [] :=
      List.append_ne_nil_of_right_ne_nil _ (List.cons_ne_nil _ _)
    rw [List.flatMap_cons, List.append_assoc]
    exact readString_writeChar c nonempty (ih (Nat.lt_of_succ_lt_succ enough))

theorem writeChar_ne_nil (c : Char) : writeChar c ≠ [] := by
  have escape (n : Nat) : unitEscape n ≠ [] := List.cons_ne_nil _ _
  unfold writeChar
  repeat' split
  all_goals simp [escape]

/-- A string is as long as its text at least. -/
theorem length_le_length_flatMap (s : List Char) : s.length ≤ (s.flatMap writeChar).length := by
  induction s with
  | nil => exact Nat.le_refl 0
  | cons c s ih =>
    have one := List.length_pos_iff.mpr (writeChar_ne_nil c)
    rw [List.flatMap_cons, List.length_append, List.length_cons]
    omega

end ChipEight.Json
