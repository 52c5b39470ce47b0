import ChipEight.Proofs.Json.RoundTrip
import ChipEight.Text.Utf8

/-!
# Written values are plain text

The text of a value consists of printable ASCII characters and line feeds (`isPlain_writeAt`). Such
a text is the same in UTF-8 and after its line ends were unified, so that a file that holds it is
read as it was written.
-/

namespace ChipEight

namespace Text

/-- A printable ASCII character or a line feed. -/
def IsPlain (c : Char) : Prop := 32 ≤ c.toNat ∧ c.toNat ≤ 126 ∨ c = '\n'

/-- A text of plain characters. -/
def AllPlain (s : List Char) : Prop := ∀ c ∈ s, IsPlain c

variable {c : Char} {s t : List Char}

instance : DecidablePred IsPlain := fun c =>
  inferInstanceAs (Decidable (32 ≤ c.toNat ∧ c.toNat ≤ 126 ∨ c = '\n'))

instance : DecidablePred AllPlain := fun s => List.decidableBAll IsPlain s

theorem IsPlain.toNat_lt (plain : IsPlain c) : c.toNat < 128 := by
  rcases plain with ⟨-, bounded⟩ | rfl
  · omega
  · decide

/-- A byte below 128 is a character. -/
theorem decodeUtf8_cons {a : UInt8} (small : a < 0x80) (position : Nat) (rest : List UInt8) :
    decodeUtf8 position (a :: rest) = (do
      let tail ← decodeUtf8 (position + 1) rest
      return Char.ofNat a.toNat :: tail) := by
  rw [decodeUtf8.eq_def]
  exact if_pos small

/-- A plain text is the same in UTF-8. -/
theorem decodeUtf8_of_allPlain (plain : AllPlain s) (position : Nat) :
    decodeUtf8 position (s.flatMap String.utf8EncodeChar) = .ok s := by
  induction s generalizing position with
  | nil => rfl
  | cons c s ih =>
    have small : c.val.toNat < 128 := (plain c List.mem_cons_self).toNat_lt
    have encoded : String.utf8EncodeChar c = [c.val.toUInt8] := by
      refine String.utf8EncodeChar_eq_singleton (Char.utf8Size_eq_one_iff.mpr ?_)
      rw [UInt32.le_iff_toNat_le]
      exact Nat.le_of_lt_succ small
    have byte : c.val.toUInt8.toNat = c.toNat := by
      rw [UInt32.toNat_toUInt8, Nat.mod_eq_of_lt (by omega)]
      rfl
    have low : c.val.toUInt8 < 0x80 := by
      rw [UInt8.lt_iff_toNat_lt, byte]
      exact small
    rw [List.flatMap_cons, encoded, List.singleton_append, decodeUtf8_cons low,
      ih (fun d among => plain d (List.mem_cons_of_mem c among)), byte, Char.ofNat_toNat]
    rfl

/-- A plain text has one form of line ends only. -/
theorem unifyLineEnds_of_allPlain (plain : AllPlain s) : unifyLineEnds s = s := by
  induction s with
  | nil => rfl
  | cons c s ih =>
    have other : c ≠ '\r' := by
      rintro rfl
      exact absurd (plain '\r' List.mem_cons_self) (by decide)
    have rest := ih fun d among => plain d (List.mem_cons_of_mem c among)
    unfold unifyLineEnds
    split
    case h_1 same => cases same
    case h_2 same => exact absurd (List.cons.inj same).1 other
    case h_3 same => exact absurd (List.cons.inj same).1 other
    case h_4 same =>
      obtain ⟨rfl, rfl⟩ := List.cons.inj same
      rw [rest]

@[simp] theorem allPlain_nil : AllPlain [] := nofun

@[simp] theorem allPlain_cons : AllPlain (c :: s) ↔ IsPlain c ∧ AllPlain s := List.forall_mem_cons

@[simp] theorem allPlain_append : AllPlain (s ++ t) ↔ AllPlain s ∧ AllPlain t :=
  List.forall_mem_append

end Text

namespace Json

open Text Binary64

variable {s : List Char}

theorem isPlain_of_isDigit {c : Char} (digit : c.isDigit = true) : IsPlain c := by
  rw [Char.isDigit, Bool.and_eq_true, decide_eq_true_eq, decide_eq_true_eq, ge_iff_le,
    UInt32.le_iff_toNat_le, UInt32.le_iff_toNat_le] at digit
  have bounds : 48 ≤ c.toNat ∧ c.toNat ≤ 57 := digit
  exact .inl ⟨by omega, by omega⟩

theorem allPlain_of_isDigit (digits : ∀ c ∈ s, c.isDigit = true) : AllPlain s :=
  fun c among => isPlain_of_isDigit (digits c among)

theorem allPlain_signText (negative : Bool) : AllPlain (signText negative) := by
  cases negative <;> decide

/-! ## Numbers -/

theorem allPlain_int (k : Int) : AllPlain (toString k).toList := by
  rw [toList_toString_int, allPlain_append]
  exact ⟨allPlain_signText _, allPlain_of_isDigit fun c => isDigit_of_mem_decimalDigits⟩

theorem Numeral.allPlain_pointPart (digits : ∀ c ∈ s, c.isDigit = true) :
    AllPlain (pointPart s) := by
  unfold pointPart
  split
  · exact allPlain_nil
  · exact allPlain_cons.mpr ⟨by decide, allPlain_of_isDigit digits⟩

theorem Numeral.allPlain_exponentPart (e : Option Int) : AllPlain (exponentPart e) := by
  cases e with
  | none => exact allPlain_nil
  | some e =>
    obtain ⟨digits, spelled, -, all, -⟩ := exponentText_eq e
    rw [exponentPart, spelled, allPlain_cons, allPlain_cons]
    refine ⟨by decide, ?_, allPlain_of_isDigit all⟩
    split <;> decide

theorem Numeral.IsProper.allPlain {n : Numeral} (proper : n.IsProper) : AllPlain n.text := by
  rw [text, allPlain_append, allPlain_append]
  exact ⟨allPlain_of_isDigit proper.whole.all, allPlain_pointPart proper.part,
    allPlain_exponentPart n.exponent⟩

theorem allPlain_writeReal {x : Binary64} (canonical : x.Canonical) : AllPlain (writeReal x) := by
  cases x with
  | nan => decide
  | infinite negative => cases negative <;> decide
  | finite negative m e =>
    obtain ⟨n, proper, text, -, -⟩ := text_eq_numeral canonical
    have spelled : writeReal (finite negative m e) = (finite negative m e).text.toList := rfl
    rw [spelled, text, allPlain_append]
    exact ⟨allPlain_signText negative, proper.allPlain⟩

/-! ## Strings -/

theorem allPlain_unitEscape (n : Nat) : AllPlain (unitEscape n) := by
  have digit : ∀ d < 16, IsPlain (lowerHexDigit d) := by decide
  have low (k : Nat) : IsPlain (lowerHexDigit (k % 16)) := digit _ (Nat.mod_lt k (by decide))
  rw [unitEscape, allPlain_cons, allPlain_cons]
  refine ⟨by decide, by decide, ?_⟩
  simp [lowerFixedHex, low]

theorem allPlain_writeChar (c : Char) : AllPlain (writeChar c) := by
  unfold writeChar
  split
  case isTrue marked =>
    rcases Bool.or_eq_true_iff.mp marked with quote | slash
    · rw [beq_iff_eq.mp quote]
      decide
    · rw [beq_iff_eq.mp slash]
      decide
  case isFalse =>
    split
    case isTrue => decide
    split
    case isTrue => decide
    split
    case isTrue => decide
    split
    case isTrue => decide
    split
    case isTrue => decide
    split
    case isTrue shown => exact List.forall_mem_singleton.mpr (.inl shown)
    split
    case isTrue => exact allPlain_unitEscape _
    case isFalse => exact allPlain_append.mpr ⟨allPlain_unitEscape _, allPlain_unitEscape _⟩

@[simp] theorem allPlain_writeText (s : String) : AllPlain (writeText s) := by
  have characters : AllPlain (s.toList.flatMap writeChar) := by
    intro c among
    obtain ⟨d, -, among⟩ := List.mem_flatMap.mp among
    exact allPlain_writeChar d c among
  simp +decide [writeText, characters]

/-! ## Values -/

@[simp] theorem allPlain_newLine (level : Nat) : AllPlain (newLine level) := by
  rw [newLine, allPlain_cons]
  refine ⟨by decide, fun c among => ?_⟩
  rw [List.eq_of_mem_replicate among]
  decide

theorem allPlain_writeItems {items : List Datum} (level : Nat)
    (all : ∀ item ∈ items, AllPlain (writeAt level item)) : AllPlain (writeItems level items) := by
  induction items with
  | nil => exact allPlain_nil
  | cons item items ih =>
    obtain ⟨first, others⟩ := List.forall_mem_cons.mp all
    simp +decide [writeItems, first, ih others]

theorem allPlain_writeFields {fields : List (String × Datum)} (level : Nat)
    (all : ∀ field ∈ fields, AllPlain (writeAt level field.2)) :
    AllPlain (writeFields level fields) := by
  induction fields with
  | nil => exact allPlain_nil
  | cons field fields ih =>
    obtain ⟨name, value⟩ := field
    obtain ⟨first, others⟩ := List.forall_mem_cons.mp all
    simp +decide [writeFields, first, ih others]

/-- **The text of a value is plain.** -/
theorem allPlain_writeAt {value : Datum} (writable : value.Writable) (level : Nat) :
    AllPlain (writeAt level value) := by
  induction writable generalizing level with
  | null =>
    rw [writeAt]
    decide
  | bool b =>
    rw [writeAt]
    cases b <;> decide
  | int => exact allPlain_int _
  | real canonical => exact allPlain_writeReal canonical
  | text s => exact allPlain_writeText s
  | @list items _ ih =>
    cases items with
    | nil =>
      rw [writeAt]
      decide
    | cons item items =>
      obtain ⟨first, others⟩ := List.forall_mem_cons.mp ih
      have rest := allPlain_writeItems (level + 1) fun item among => others item among (level + 1)
      simp +decide [writeAt, first, rest]
  | @record fields _ _ ih =>
    cases fields with
    | nil =>
      rw [writeAt]
      decide
    | cons field fields =>
      obtain ⟨name, value⟩ := field
      obtain ⟨first, others⟩ := List.forall_mem_cons.mp ih
      have rest := allPlain_writeFields (level + 1) fun field among =>
        others field among (level + 1)
      simp +decide [writeAt, first, rest]

/-- **A file that holds the text of a value holds that value**, after its bytes were read as a text
and its line ends were unified. -/
theorem read_decoded {value : Datum} (writable : value.Writable) :
    ∃ text, decodeUtf8 0 (encodeUtf8 (write value)) = .ok text ∧
      read (unifyLineEnds text) = .ok value := by
  have plain := allPlain_writeAt writable 0
  have read := read_write writable
  rw [write, String.toList_ofList] at read
  refine ⟨writeAt 0 value, ?_, by rwa [unifyLineEnds_of_allPlain plain]⟩
  rw [encodeUtf8, write, String.toList_ofList]
  exact decodeUtf8_of_allPlain plain 0

end Json

end ChipEight
