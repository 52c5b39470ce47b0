import ChipEight.Proofs.Json.Numerals
import ChipEight.Proofs.Json.Reading
import ChipEight.Proofs.Json.Strings

/-!
# What was written is read

A value that can be written is read from its text as the same value, and integers stay integers and
binary numbers binary numbers (`read_write`). A value can be written (`Datum.Writable`) if its
integers are not too long, its binary numbers are numbers of the format, and its records have no
name twice; it may be nested to any depth.

The proof follows the reader. A value is read from its text whatever comes after it, as long as that
does not go on with a numeral, and as long as the fuel is no less than the text (`Reads`). Lists and
records are read item by item; each item takes one step of the fuel and at least two characters of
the text.
-/

namespace ChipEight

/-- **A value that can be written.** -/
inductive Datum.Writable : Datum → Prop
  | null : Writable .null
  | bool (b : Bool) : Writable (.bool b)
  | int {n : Int} (short : Json.isLong (.int n) = false) : Writable (.int n)
  | real {x : Binary64} (canonical : x.Canonical) : Writable (.real x)
  | text (s : String) : Writable (.text s)
  | list {items : List Datum} (all : ∀ item ∈ items, Writable item) : Writable (.list items)
  | record {fields : List (String × Datum)} (distinct : (fields.map Prod.fst).Nodup)
    (all : ∀ field ∈ fields, Writable field.2) : Writable (.record fields)

namespace Json

open Text Binary64

variable {level fuel : Nat} {s rest : List Char}

/-! ## Blanks and first characters -/

/-- The text starts with no blank and no byte-order mark, and does not close a list. -/
def StartsValue (s : List Char) : Prop :=
  ∃ c more, s = c :: more ∧ isSpace c = false ∧ (c == ']') = false ∧
    (c == Char.ofNat 0xFEFF) = false

theorem StartsValue.append (starts : StartsValue s) (rest : List Char) :
    StartsValue (s ++ rest) := by
  obtain ⟨c, more, rfl, first⟩ := starts
  exact ⟨c, more ++ rest, rfl, first⟩

theorem StartsValue.exists_fuel (starts : StartsValue s) (enough : s.length ≤ fuel) :
    ∃ k, fuel = k + 1 := by
  obtain ⟨c, more, rfl, -⟩ := starts
  exact ⟨fuel - 1, by rw [List.length_cons] at enough; omega⟩

theorem skipSpace_of_startsValue (starts : StartsValue s) : skipSpace s = s := by
  obtain ⟨c, more, rfl, shown, -⟩ := starts
  rw [skipSpace, List.dropWhile_cons_of_neg (by rw [shown]; exact Bool.false_ne_true)]

@[simp] theorem skipSpace_newLine (level : Nat) (s : List Char) :
    skipSpace (newLine level ++ s) = skipSpace s := by
  have blank : ∀ c ∈ newLine level, isSpace c = true := by
    intro c among
    rcases List.mem_cons.mp among with rfl | among
    · rfl
    · rw [List.eq_of_mem_replicate among]
      rfl
  rw [skipSpace, List.dropWhile_append_of_pos blank, skipSpace]

theorem skipSpace_colon (s : List Char) : skipSpace (':' :: s) = ':' :: s := rfl

theorem endsNumeral_newLine (level : Nat) (rest : List Char) :
    EndsNumeral (newLine level ++ rest) := by
  rintro _ ⟨⟩
  decide

theorem endsNumeral_comma (rest : List Char) : EndsNumeral (',' :: rest) := by
  rintro _ ⟨⟩
  decide

/-- The text starts with a digit, maybe after a sign. -/
def StartsNumeral (s : List Char) : Prop :=
  ∃ negative d more, s = signText negative ++ d :: more ∧ d.isDigit = true

theorem ne_of_isDigit {c d : Char} (digit : d.isDigit = true) (other : c.isDigit = false) :
    (d == c) = false := by
  rw [beq_eq_false_iff_ne]
  rintro rfl
  cases digit.symm.trans other

theorem StartsNumeral.startsValue (starts : StartsNumeral s) : StartsValue s := by
  obtain ⟨negative, d, more, rfl, digit⟩ := starts
  cases negative with
  | true => exact ⟨'-', d :: more, rfl, rfl, rfl, rfl⟩
  | false =>
    refine ⟨d, more, rfl, ?_, ne_of_isDigit digit rfl, ne_of_isDigit digit rfl⟩
    rw [isSpace, ne_of_isDigit digit rfl, ne_of_isDigit digit rfl, ne_of_isDigit digit rfl,
      ne_of_isDigit digit rfl]
    rfl

theorem StartsNumeral.append (starts : StartsNumeral s) (rest : List Char) :
    StartsNumeral (s ++ rest) := by
  obtain ⟨negative, d, more, rfl, digit⟩ := starts
  exact ⟨negative, d, more ++ rest, List.append_assoc .., digit⟩

/-- What starts like a numeral is no word. -/
theorem readWordOrNumber_of_startsNumeral (starts : StartsNumeral s) :
    readWordOrNumber s = readNumber s := by
  obtain ⟨negative, d, more, rfl, digit⟩ := starts
  have other (c : Char) (plain : c.isDigit = false) : c ≠ d := by
    rintro rfl
    cases digit.symm.trans plain
  have noWord : ∀ entry ∈ namedValues,
      afterWord? entry.1 (signText negative ++ d :: more) = none := by
    cases negative <;>
      simp [namedValues, afterWord?, signText, other 'n' rfl, other 't' rfl, other 'f' rfl,
        other 'N' rfl, other 'I' rfl, other '-' rfl]
  unfold readWordOrNumber
  split
  case h_1 found word =>
    obtain ⟨entry, among, here⟩ := List.exists_of_findSome?_eq_some word
    dsimp only at here
    rw [noWord entry among] at here
    cases here
  case h_2 => rfl

/-- What starts like a numeral is read as a numeral. -/
theorem readValue_of_startsNumeral (starts : StartsNumeral s) (fuel : Nat) :
    readValue (fuel + 1) s = readNumber s := by
  rw [← readWordOrNumber_of_startsNumeral starts]
  obtain ⟨negative, d, more, rfl, digit⟩ := starts
  cases negative with
  | true => rfl
  | false =>
    have shown : signText false ++ d :: more = d :: more := rfl
    rw [shown, readValue, ne_of_isDigit digit rfl, ne_of_isDigit digit rfl, ne_of_isDigit digit rfl]
    rfl

/-! ## Values -/

/-- A value is read from its text, whatever comes after it. -/
def Reads (value : Datum) : Prop :=
  ∀ level fuel rest, (writeAt level value).length ≤ fuel → EndsNumeral rest →
    readValue fuel (writeAt level value ++ rest) = .ok (value, rest)

theorem startsNumeral_int (k : Int) : StartsNumeral (toString k).toList := by
  obtain ⟨d, more, digits⟩ :=
    List.exists_cons_of_ne_nil (Nat.toDigits_ne_nil (b := 10) (n := k.natAbs))
  refine ⟨decide (k < 0), d, more, ?_, isDigit_of_mem_decimalDigits (n := k.natAbs) ?_⟩
  · rw [toList_toString_int, decimalDigits, digits]
  · rw [decimalDigits, digits]
    exact List.mem_cons_self

theorem Numeral.IsProper.startsNumeral {n : Numeral} (proper : n.IsProper) (negative : Bool) :
    StartsNumeral (signText negative ++ n.text) := by
  rcases proper.whole.starts with zero | ⟨first, more, digits, -⟩
  · exact ⟨negative, '0', _, by rw [text, zero]; rfl, rfl⟩
  · refine ⟨negative, first, _, by rw [text, digits]; rfl, proper.whole.all first ?_⟩
    rw [digits]
    exact List.mem_cons_self

theorem startsNumeral_real {negative : Bool} {m : Nat} {e : Int}
    (canonical : (finite negative m e).Canonical) :
    StartsNumeral (finite negative m e).text.toList := by
  obtain ⟨n, proper, text, -, -⟩ := text_eq_numeral canonical
  rw [text]
  exact proper.startsNumeral negative

theorem startsValue_writeAt (level : Nat) {value : Datum} (writable : value.Writable) :
    StartsValue (writeAt level value) := by
  cases writable with
  | null => exact ⟨'n', _, rfl, rfl, rfl, rfl⟩
  | bool b =>
    cases b
    · exact ⟨'f', _, rfl, rfl, rfl, rfl⟩
    · exact ⟨'t', _, rfl, rfl, rfl, rfl⟩
  | int => exact (startsNumeral_int _).startsValue
  | @real x canonical =>
    cases x with
    | nan => exact ⟨'N', _, rfl, rfl, rfl, rfl⟩
    | infinite negative =>
      cases negative
      · exact ⟨'I', _, rfl, rfl, rfl, rfl⟩
      · exact ⟨'-', _, rfl, rfl, rfl, rfl⟩
    | finite negative m e => exact (startsNumeral_real canonical).startsValue
  | text s => exact ⟨doubleQuote, _, rfl, rfl, rfl, rfl⟩
  | @list items _ =>
    cases items
    · exact ⟨'[', _, rfl, rfl, rfl, rfl⟩
    · exact ⟨'[', _, rfl, rfl, rfl, rfl⟩
  | @record fields _ _ =>
    cases fields
    · exact ⟨'\x7b', _, rfl, rfl, rfl, rfl⟩
    · exact ⟨'\x7b', _, rfl, rfl, rfl, rfl⟩

theorem skipSpace_writeAt (level : Nat) {value : Datum} (writable : value.Writable)
    (tail : List Char) :
    skipSpace (' ' :: (writeAt level value ++ tail)) = writeAt level value ++ tail :=
  skipSpace_of_startsValue ((startsValue_writeAt level writable).append tail)

/-- A string is read from its text, as a name or as a value. -/
theorem readString_writeText (t : String) (rest : List Char) :
    ∃ r, writeText t ++ rest = doubleQuote :: r ∧
      readString (r.length + 1) (r.length + 1) r = .ok (t.toList, rest) := by
  refine ⟨t.toList.flatMap writeChar ++ doubleQuote :: rest, ?_, ?_⟩
  · simp [writeText]
  · refine readString_flatMap _ ?_ rest
    have long := length_le_length_flatMap t.toList
    rw [List.length_append]
    omega

theorem reads_text (t : String) : Reads (.text t) := by
  intro level fuel rest enough _
  obtain ⟨fuel, rfl⟩ := (startsValue_writeAt level (.text t)).exists_fuel enough
  obtain ⟨r, spelled, read⟩ := readString_writeText t rest
  rw [writeAt, spelled, readValue, if_pos (beq_self_eq_true _), read]
  exact congrArg (fun t => Except.ok (Datum.text t, rest)) String.ofList_toList

theorem reads_int {k : Int} (short : isLong (.int k) = false) : Reads (.int k) := by
  intro level fuel rest enough ends
  obtain ⟨fuel, rfl⟩ := (startsValue_writeAt level (.int short)).exists_fuel enough
  rw [writeAt, readValue_of_startsNumeral ((startsNumeral_int k).append rest),
    readNumber_int short ends]

theorem reads_real {x : Binary64} (canonical : x.Canonical) : Reads (.real x) := by
  intro level fuel rest enough ends
  obtain ⟨fuel, rfl⟩ := (startsValue_writeAt level (.real canonical)).exists_fuel enough
  cases x with
  | nan => rfl
  | infinite negative => cases negative <;> rfl
  | finite negative m e =>
    rw [writeAt, writeReal, readValue_of_startsNumeral ((startsNumeral_real canonical).append rest),
      readNumber_real canonical ends]
    all_goals nofun

/-! ## Lists -/

section

variable {item : Datum} {items : List Datum} {after next : List Char}

theorem readItems_last (read : readValue fuel s = .ok (item, after))
    (stop : skipSpace after = ']' :: rest) : readItems (fuel + 1) s = .ok (.list [item], rest) := by
  rw [readItems, read]
  simp only [bind, Except.bind, stop]
  rfl

theorem readItems_more (read : readValue fuel s = .ok (item, after))
    (onward : skipSpace after = ',' :: next)
    (others : readItems fuel (skipSpace next) = .ok (.list items, rest)) :
    readItems (fuel + 1) s = .ok (.list (item :: items), rest) := by
  rw [readItems, read]
  simp only [bind, Except.bind, onward, others]
  rfl

/-- The items of a list are read one after the other. -/
theorem readItems_write {closing : Nat} (first : Reads item)
    (all : ∀ item ∈ items, item.Writable ∧ Reads item)
    (enough : (writeAt level item).length + (writeItems level items).length < fuel) :
    readItems fuel (writeAt level item ++
      (writeItems level items ++ (newLine closing ++ ']' :: rest))) =
        .ok (.list (item :: items), rest) := by
  induction items generalizing item fuel with
  | nil =>
    obtain ⟨fuel, rfl⟩ : ∃ k, fuel = k + 1 := ⟨fuel - 1, by omega⟩
    refine readItems_last (first level fuel _ (by omega) (endsNumeral_newLine closing _)) ?_
    rw [writeItems, List.nil_append, skipSpace_newLine]
    rfl
  | cons second items ih =>
    obtain ⟨fuel, rfl⟩ : ∃ k, fuel = k + 1 := ⟨fuel - 1, by omega⟩
    obtain ⟨⟨writable, reads⟩, others⟩ := List.forall_mem_cons.mp all
    rw [writeItems] at enough ⊢
    simp only [List.cons_append, List.append_assoc, List.length_cons, List.length_append]
      at enough ⊢
    refine readItems_more (first level fuel _ (by omega) (endsNumeral_comma _)) rfl ?_
    rw [skipSpace_newLine,
      skipSpace_of_startsValue ((startsValue_writeAt level writable).append _)]
    exact ih reads others (by omega)

end

/-- The first item comes after the bracket. -/
theorem readValue_list (starts : StartsValue s) :
    readValue (fuel + 1) ('[' :: (newLine level ++ s)) = readItems fuel s := by
  have blank : skipSpace (newLine level ++ s) = s := by
    rw [skipSpace_newLine, skipSpace_of_startsValue starts]
  obtain ⟨c, more, rfl, -, opened, -⟩ := starts
  rw [readValue, if_neg (by decide), if_neg (by decide), if_pos (beq_self_eq_true _), blank]
  dsimp only
  rw [opened, if_neg Bool.false_ne_true]

/-! ## Records -/

section

variable {name : String} {value : Datum} {before fields : List (String × Datum)}
  {after next : List Char}

theorem startsValue_writeText (tail : List Char) : StartsValue (writeText name ++ tail) :=
  ⟨doubleQuote, _, rfl, rfl, rfl, rfl⟩

/-- The first name comes after the brace. -/
theorem readValue_record (tail : List Char) :
    readValue (fuel + 1) ('\x7b' :: (newLine level ++ (writeText name ++ tail))) =
      readFields fuel [] (writeText name ++ tail) := by
  rw [readValue, if_neg (by decide), if_pos (beq_self_eq_true _), skipSpace_newLine,
    skipSpace_of_startsValue (startsValue_writeText tail)]
  rfl

/-- A field is read and set; a brace ends the record. -/
theorem readFields_last {tail : List Char} (first : value.Writable ∧ Reads value)
    (enough : (writeAt level value).length ≤ fuel) (ends : EndsNumeral tail)
    (stop : skipSpace tail = '\x7d' :: rest) :
    readFields (fuel + 1) before (writeText name ++ ':' :: ' ' :: (writeAt level value ++ tail)) =
      .ok (.record (setField before name value), rest) := by
  obtain ⟨r, spelled, read⟩ :=
    readString_writeText name (':' :: ' ' :: (writeAt level value ++ tail))
  rw [spelled, readFields, if_pos (beq_self_eq_true _), read]
  simp only [bind, Except.bind, skipSpace_colon, skipSpace_writeAt level first.1,
    first.2 level fuel tail enough ends, String.ofList_toList, stop]
  rfl

/-- A field is read and set; after a comma a further one is read. -/
theorem readFields_more {tail : List Char} (first : value.Writable ∧ Reads value)
    (enough : (writeAt level value).length ≤ fuel) (ends : EndsNumeral tail)
    (onward : skipSpace tail = ',' :: next) :
    readFields (fuel + 1) before (writeText name ++ ':' :: ' ' :: (writeAt level value ++ tail)) =
      readFields fuel (setField before name value) (skipSpace next) := by
  obtain ⟨r, spelled, read⟩ :=
    readString_writeText name (':' :: ' ' :: (writeAt level value ++ tail))
  rw [spelled, readFields, if_pos (beq_self_eq_true _), read]
  simp only [bind, Except.bind, skipSpace_colon, skipSpace_writeAt level first.1,
    first.2 level fuel tail enough ends, String.ofList_toList, onward]

/-- A field with a new name is set at the end. -/
theorem setField_of_notMem (absent : name ∉ fields.map Prod.fst) :
    setField fields name value = fields ++ [(name, value)] := by
  induction fields with
  | nil => rfl
  | cons field fields ih =>
    rw [List.map_cons, List.mem_cons, not_or] at absent
    rw [setField, if_neg fun same => absent.1 same.symm, ih absent.2, List.cons_append]

theorem notMem_of_distinct {more : List (String × Datum)}
    (distinct : ((before ++ (name, value) :: more).map Prod.fst).Nodup) :
    name ∉ before.map Prod.fst := by
  rw [List.map_append, List.map_cons] at distinct
  exact fun among => List.disjoint_of_nodup_append distinct among List.mem_cons_self

/-- The fields of a record are read one after the other, behind those that were read before. -/
theorem readFields_write {closing : Nat} (first : value.Writable ∧ Reads value)
    (all : ∀ field ∈ fields, field.2.Writable ∧ Reads field.2)
    (distinct : ((before ++ (name, value) :: fields).map Prod.fst).Nodup)
    (enough : (writeAt level value).length + (writeFields level fields).length < fuel) :
    readFields fuel before (writeText name ++ ':' :: ' ' :: (writeAt level value ++
      (writeFields level fields ++ (newLine closing ++ '\x7d' :: rest)))) =
        .ok (.record (before ++ (name, value) :: fields), rest) := by
  induction fields generalizing name value before fuel with
  | nil =>
    obtain ⟨fuel, rfl⟩ : ∃ k, fuel = k + 1 := ⟨fuel - 1, by omega⟩
    have stop : skipSpace (newLine closing ++ '\x7d' :: rest) = '\x7d' :: rest := by
      rw [skipSpace_newLine]
      rfl
    rw [writeFields, List.nil_append,
      readFields_last first (by omega) (endsNumeral_newLine closing _) stop,
      setField_of_notMem (notMem_of_distinct distinct)]
  | cons field fields ih =>
    obtain ⟨fuel, rfl⟩ : ∃ k, fuel = k + 1 := ⟨fuel - 1, by omega⟩
    obtain ⟨nextName, nextValue⟩ := field
    obtain ⟨(second : nextValue.Writable ∧ Reads nextValue), others⟩ :=
      List.forall_mem_cons.mp all
    rw [writeFields] at enough ⊢
    simp only [List.cons_append, List.append_assoc, List.length_cons, List.length_append,
      List.nil_append] at enough ⊢
    rw [readFields_more first (by omega) (endsNumeral_comma _) rfl, skipSpace_newLine,
      skipSpace_of_startsValue (startsValue_writeText _),
      setField_of_notMem (notMem_of_distinct distinct)]
    refine (ih second others ?_ (by omega)).trans ?_
    · rwa [List.append_assoc, List.singleton_append]
    · rw [List.append_assoc, List.singleton_append]

end

/-! ## Whole values -/

/-- Every value that can be written is read from its text. -/
theorem reads_of_writable {value : Datum} (writable : value.Writable) : Reads value := by
  induction writable with
  | null =>
    intro level fuel rest enough _
    obtain ⟨fuel, rfl⟩ := (startsValue_writeAt level .null).exists_fuel enough
    rfl
  | bool b =>
    intro level fuel rest enough _
    obtain ⟨fuel, rfl⟩ := (startsValue_writeAt level (.bool b)).exists_fuel enough
    cases b <;> rfl
  | int short => exact reads_int short
  | real canonical => exact reads_real canonical
  | text s => exact reads_text s
  | @list items all ih =>
    intro level fuel rest enough _
    obtain ⟨fuel, rfl⟩ := (startsValue_writeAt level (.list all)).exists_fuel enough
    cases items with
    | nil => rfl
    | cons item items =>
      obtain ⟨first, others⟩ := List.forall_mem_cons.mp fun item among =>
        And.intro (all item among) (ih item among)
      rw [writeAt] at enough ⊢
      simp only [List.cons_append, List.append_assoc, List.length_cons, List.length_append,
        List.nil_append] at enough ⊢
      rw [readValue_list ((startsValue_writeAt (level + 1) first.1).append _)]
      exact readItems_write first.2 others (by omega)
  | @record fields distinct all ih =>
    intro level fuel rest enough _
    obtain ⟨fuel, rfl⟩ := (startsValue_writeAt level (.record distinct all)).exists_fuel enough
    cases fields with
    | nil => rfl
    | cons field fields =>
      obtain ⟨name, value⟩ := field
      obtain ⟨(first : value.Writable ∧ Reads value), others⟩ :=
        List.forall_mem_cons.mp fun field among => And.intro (all field among) (ih field among)
      rw [writeAt] at enough ⊢
      simp only [List.cons_append, List.append_assoc, List.length_cons, List.length_append,
        List.nil_append] at enough ⊢
      rw [readValue_record]
      exact readFields_write first others distinct (by omega)

/-- **What was written is read** as the same value. -/
theorem read_write {value : Datum} (writable : value.Writable) :
    read (write value).toList = .ok value := by
  have starts := startsValue_writeAt 0 writable
  have done := reads_of_writable writable 0 (2 * (writeAt 0 value).length + 2) [] (by omega) nofun
  rw [List.append_nil] at done
  have unmarked : (writeAt 0 value).head? ≠ some (Char.ofNat 0xFEFF) := by
    obtain ⟨c, more, spelled, -, -, other⟩ := starts
    rw [spelled]
    exact fun same => beq_eq_false_iff_ne.mp other (Option.some.inj same)
  rw [write, String.toList_ofList, read, if_neg unmarked, skipSpace_of_startsValue starts, done]
  rfl

end Json

end ChipEight
