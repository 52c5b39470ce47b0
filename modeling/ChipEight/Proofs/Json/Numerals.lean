import ChipEight.Json.Writer
import ChipEight.Proofs.Number.Exactness

/-!
# Numerals are read as the numbers that they were written for

A *numeral* has digits before the point, digits after it, and an exponent; the last two may be
missing (`Numeral`). The reader takes a numeral for what its parts say (`readNumber_numeral`). The
texts of integers and of binary numbers are numerals: that of an integer has no point and no
exponent, that of a binary number has one of the two, in positional as in scientific notation
(`Decimal.exists_numeral`). So an integer is read as that integer, and a binary number as that
binary number.
-/

namespace ChipEight

namespace Binary64

variable {n : Nat}

/-! ## Digits -/

theorem isDigit_of_mem_decimalDigits {c : Char} (among : c ∈ decimalDigits n) : c.isDigit = true :=
  Nat.isDigit_of_mem_toDigits (by decide) (by decide) among

theorem digitsValue_append (front back : List Char) :
    digitsValue (front ++ back) = Nat.ofDigitChars 10 back (digitsValue front) :=
  Nat.ofDigitChars_append 0

@[simp] theorem digitsValue_decimalDigits (n : Nat) : digitsValue (decimalDigits n) = n :=
  Nat.ofDigitChars_toDigits (by decide) (by decide)

theorem digitsValue_zeros_append (zeros : Nat) (digits : List Char) :
    digitsValue (List.replicate zeros '0' ++ digits) = digitsValue digits := by
  rw [digitsValue_append, digitsValue, Nat.ofDigitChars_replicate_zero, Nat.mul_zero]
  rfl

theorem digitsValue_append_zeros (digits : List Char) (zeros : Nat) :
    digitsValue (digits ++ List.replicate zeros '0') = 10 ^ zeros * digitsValue digits := by
  rw [digitsValue_append, Nat.ofDigitChars_replicate_zero]

/-- The digits of a positive number do not start with a zero. -/
theorem decimalDigits_eq_cons (positive : 0 < n) :
    ∃ first rest, decimalDigits n = first :: rest ∧ first ≠ '0' := by
  induction n using Nat.strongRecOn with
  | ind n ih =>
    rcases Nat.lt_or_ge n 10 with small | large
    · have nonzero : ∀ k < 10, 0 < k → Nat.digitChar k ≠ '0' := by decide
      exact ⟨n.digitChar, [], Nat.toDigits_of_lt_base small, nonzero n small positive⟩
    · obtain ⟨first, rest, digits, nonzero⟩ := ih (n / 10) (by omega) (by omega)
      refine ⟨first, rest ++ [(n % 10).digitChar], ?_, nonzero⟩
      rw [decimalDigits, Nat.toDigits_of_base_le (by decide) large]
      exact congrArg (· ++ _) digits

end Binary64

namespace Json

open Binary64

/-! ## The parts of a numeral -/

/-- What follows a numeral does not go on with it. -/
def EndsNumeral (rest : List Char) : Prop :=
  ∀ c ∈ rest.head?, c.isDigit = false ∧ c ≠ '.' ∧ c ≠ 'e' ∧ c ≠ 'E'

/-- What follows does not go on with the digits. -/
def EndsDigits (rest : List Char) : Prop := ∀ c ∈ rest.head?, c.isDigit = false

variable {digits rest : List Char}

theorem EndsNumeral.endsDigits (ends : EndsNumeral rest) : EndsDigits rest := fun c first =>
  (ends c first).1

theorem endsDigits_cons {c : Char} (other : c.isDigit = false) (rest : List Char) :
    EndsDigits (c :: rest) := by
  rintro _ ⟨⟩
  exact other

/-- Digits are split off where they end. -/
theorem splitDigits (all : ∀ c ∈ digits, c.isDigit = true) (ends : EndsDigits rest) :
    (digits ++ rest).takeWhile Char.isDigit = digits ∧
      (digits ++ rest).dropWhile Char.isDigit = rest := by
  rw [List.takeWhile_append_of_pos all, List.dropWhile_append_of_pos all]
  cases rest with
  | nil => exact ⟨List.append_nil _, rfl⟩
  | cons c rest =>
    have other : ¬c.isDigit = true := by
      rw [ends c rfl]
      exact Bool.false_ne_true
    rw [List.takeWhile_cons_of_neg other, List.dropWhile_cons_of_neg other]
    exact ⟨List.append_nil _, rfl⟩

/-- Digits before a point: a zero alone, or digits that do not start with one. -/
structure IsWhole (digits : List Char) : Prop where
  all : ∀ c ∈ digits, c.isDigit = true
  starts : digits = ['0'] ∨ ∃ first more, digits = first :: more ∧ first ≠ '0'

theorem isWhole_zero : IsWhole ['0'] := ⟨List.forall_mem_singleton.mpr rfl, .inl rfl⟩

theorem isWhole_decimalDigits (n : Nat) : IsWhole (decimalDigits n) := by
  refine ⟨fun c => isDigit_of_mem_decimalDigits, ?_⟩
  rcases Nat.eq_zero_or_pos n with rfl | positive
  · exact .inl rfl
  · exact .inr (decimalDigits_eq_cons positive)

theorem splitWhole_append (whole : IsWhole digits) (ends : EndsDigits rest) :
    splitWhole (digits ++ rest) = some (digits, rest) := by
  obtain ⟨taken, dropped⟩ := splitDigits whole.all ends
  rcases whole.starts with rfl | ⟨first, more, rfl, nonzero⟩
  · rfl
  · rw [List.cons_append] at taken dropped ⊢
    rw [splitWhole, if_neg nonzero, if_pos (whole.all first List.mem_cons_self), taken, dropped]

theorem splitFraction_append (all : ∀ c ∈ digits, c.isDigit = true) (some : digits ≠ [])
    (ends : EndsDigits rest) : splitFraction ('.' :: digits ++ rest) = (digits, rest) := by
  obtain ⟨taken, dropped⟩ := splitDigits all ends
  cases digits with
  | nil => exact absurd rfl some
  | cons d more =>
    rw [List.cons_append] at taken dropped
    rw [List.cons_append, List.cons_append, splitFraction, if_pos (all d List.mem_cons_self), taken,
      dropped]

theorem splitFraction_of_ne (other : ∀ c ∈ rest.head?, c ≠ '.') :
    splitFraction rest = ([], rest) := by
  unfold splitFraction
  split
  case h_1 => exact absurd rfl (other '.' rfl)
  case h_2 => rfl

theorem splitExponent_of_ne (other : ∀ c ∈ rest.head?, c ≠ 'e' ∧ c ≠ 'E') :
    splitExponent rest = (none, rest) := by
  cases rest with
  | nil => rfl
  | cons c rest =>
    obtain ⟨lower, upper⟩ := other c rfl
    rw [splitExponent, if_neg (not_or.mpr ⟨lower, upper⟩)]

/-- The digits of an exponent are those of its size, with a zero before a single one. -/
theorem exponentText_eq (e : Int) : ∃ digits : List Char,
    exponentText e = (if e < 0 then '-' else '+') :: digits ∧ digits ≠ [] ∧
      (∀ c ∈ digits, c.isDigit = true) ∧ digitsValue digits = e.natAbs := by
  refine ⟨_, rfl, ?_, ?_, ?_⟩
  · split
    · exact List.cons_ne_nil _ _
    · exact Nat.toDigits_ne_nil
  · split
    · exact List.forall_mem_cons.mpr ⟨rfl, fun c => isDigit_of_mem_decimalDigits⟩
    · exact fun c => isDigit_of_mem_decimalDigits
  · split
    · exact (digitsValue_zeros_append 1 _).trans (digitsValue_decimalDigits _)
    · exact digitsValue_decimalDigits _

theorem splitExponent_append (e : Int) (ends : EndsDigits rest) :
    splitExponent ('e' :: exponentText e ++ rest) = (some e, rest) := by
  obtain ⟨digits, spelled, some, all, value⟩ := exponentText_eq e
  obtain ⟨taken, dropped⟩ := splitDigits all ends
  have filled : digits.isEmpty = false := by
    rw [← Bool.not_eq_true, List.isEmpty_iff]
    exact some
  have signed : splitSign (exponentText e ++ rest) = (decide (e < 0), digits ++ rest) := by
    rw [spelled]
    by_cases negative : e < 0
    · rw [if_pos negative, decide_eq_true negative]
      rfl
    · rw [if_neg negative, decide_eq_false negative]
      rfl
  rw [List.cons_append, splitExponent, if_pos (.inl rfl), signed]
  dsimp only
  rw [taken, dropped, filled, value]
  by_cases negative : e < 0
  · rw [decide_eq_true negative]
    simp only [Bool.false_eq_true, if_false, if_true, Prod.mk.injEq, Option.some.injEq, and_true]
    omega
  · rw [decide_eq_false negative]
    simp only [Bool.false_eq_true, if_false, Prod.mk.injEq, Option.some.injEq, and_true]
    omega

/-! ## Numerals -/

/-- The text of a sign. -/
def signText (negative : Bool) : List Char := if negative then ['-'] else []

/-- Reads the digits of a numeral `s` whose sign is known. -/
def readUnsigned (s : List Char) (negative : Bool) (unsigned : List Char) :
    Except Refusal (Datum × List Char) :=
  match splitWhole unsigned with
  | none => refuse .noValue s
  | some (whole, rest) =>
    let (part, rest) := splitFraction rest
    let (exponent, rest) := splitExponent rest
    if part.isEmpty && exponent.isNone then
      if mostIntegerDigits < whole.length then refuse (.longInteger whole.length) s
      else .ok (.int (if negative then -(digitsValue whole : Int) else digitsValue whole), rest)
    else
      .ok (.real (ofDecimal negative (digitsValue (whole ++ part))
        (exponent.getD 0 - part.length)), rest)

theorem readNumber_eq (negative : Bool) {unsigned : List Char}
    (other : ∀ c ∈ unsigned.head?, c ≠ '-') :
    readNumber (signText negative ++ unsigned) =
      readUnsigned (signText negative ++ unsigned) negative unsigned := by
  cases negative with
  | true => rfl
  | false =>
    unfold readNumber
    split
    case h_1 minus digits signed =>
      split at signed
      case h_1 more here => exact absurd rfl (other '-' (congrArg List.head? here))
      case h_2 =>
        obtain ⟨rfl, rfl⟩ := Prod.mk.inj signed
        rfl

/-- The parts of a numeral without its sign. -/
structure Numeral where
  whole : List Char
  part : List Char
  exponent : Option Int

namespace Numeral

/-- The text of an exponent with its letter. -/
def exponentPart : Option Int → List Char
  | none => []
  | some e => 'e' :: exponentText e

/-- The text of the digits after the point, with the point. -/
def pointPart (part : List Char) : List Char := if part.isEmpty then [] else '.' :: part

theorem pointPart_of_ne_nil {part : List Char} (some : part ≠ []) :
    pointPart part = '.' :: part := by
  rw [pointPart, if_neg (mt List.isEmpty_iff.mp some)]

/-- The text of a numeral. -/
def text (n : Numeral) : List Char := n.whole ++ (pointPart n.part ++ exponentPart n.exponent)

/-- The decimal that a numeral stands for. -/
def decimal (n : Numeral) : Decimal :=
  ⟨digitsValue (n.whole ++ n.part), n.exponent.getD 0 - n.part.length⟩

theorem decimal_eq {n : Numeral} {x : Decimal} (digits : digitsValue (n.whole ++ n.part) = x.digits)
    (exponent : n.exponent.getD 0 - n.part.length = x.exponent) : n.decimal = x := by
  rw [decimal, digits, exponent]

/-- Has the numeral neither a point nor an exponent? -/
def isInteger (n : Numeral) : Bool := n.part.isEmpty && n.exponent.isNone

/-- The digits stand where they may. -/
structure IsProper (n : Numeral) : Prop where
  whole : IsWhole n.whole
  part : ∀ c ∈ n.part, c.isDigit = true

variable {n : Numeral} {part rest : List Char}

theorem ends_exponentPart (e : Option Int) (ends : EndsNumeral rest) :
    ∀ c ∈ (exponentPart e ++ rest).head?, c.isDigit = false ∧ c ≠ '.' := by
  cases e with
  | none => exact fun c first => ⟨(ends c first).1, (ends c first).2.1⟩
  | some e =>
    rintro _ ⟨⟩
    exact ⟨rfl, by decide⟩

theorem splitExponent_exponentPart (e : Option Int) (ends : EndsNumeral rest) :
    splitExponent (exponentPart e ++ rest) = (e, rest) := by
  cases e with
  | none => exact splitExponent_of_ne fun c first => (ends c first).2.2
  | some e => exact splitExponent_append e ends.endsDigits

theorem splitFraction_pointPart (all : ∀ c ∈ part, c.isDigit = true)
    (ends : ∀ c ∈ rest.head?, c.isDigit = false ∧ c ≠ '.') :
    splitFraction (pointPart part ++ rest) = (part, rest) := by
  cases part with
  | nil => exact splitFraction_of_ne fun c first => (ends c first).2
  | cons d more =>
    exact splitFraction_append all (List.cons_ne_nil d more) fun c first => (ends c first).1

theorem endsDigits_pointPart (ends : ∀ c ∈ rest.head?, c.isDigit = false ∧ c ≠ '.') :
    EndsDigits (pointPart part ++ rest) := by
  cases part with
  | nil => exact fun c first => (ends c first).1
  | cons d more => exact endsDigits_cons rfl _

/-- **The reader takes a numeral for what its parts say.** -/
theorem IsProper.readNumber_text (proper : n.IsProper) (negative : Bool) (ends : EndsNumeral rest) :
    readNumber (signText negative ++ (n.text ++ rest)) =
      if n.isInteger then
        if mostIntegerDigits < n.whole.length then
          refuse (.longInteger n.whole.length) (signText negative ++ (n.text ++ rest))
        else
          .ok (.int (if negative then -(digitsValue n.whole : Int) else digitsValue n.whole), rest)
      else .ok (.real (ofDecimal negative n.decimal.digits n.decimal.exponent), rest) := by
  have further := ends_exponentPart n.exponent ends
  have whole : splitWhole (n.text ++ rest) =
      some (n.whole, pointPart n.part ++ (exponentPart n.exponent ++ rest)) := by
    rw [text, List.append_assoc, List.append_assoc]
    exact splitWhole_append proper.whole (endsDigits_pointPart further)
  have unsigned : ∀ c ∈ (n.text ++ rest).head?, c ≠ '-' := by
    rintro c first rfl
    cases spelled : n.text ++ rest with
    | nil =>
      rw [spelled] at first
      cases first
    | cons d more =>
      rw [spelled] at first whole
      cases first
      cases whole
  rw [readNumber_eq negative unsigned]
  unfold readUnsigned
  rw [whole]
  dsimp only
  rw [splitFraction_pointPart proper.part further]
  dsimp only
  rw [splitExponent_exponentPart n.exponent ends]
  rfl

end Numeral

variable {rest : List Char}

/-! ## Integers -/

theorem toList_toString_int (k : Int) :
    (toString k).toList = signText (k < 0) ++ decimalDigits k.natAbs := by
  rw [Int.toString_eq_repr, Int.repr_eq_if]
  split
  case isTrue natural =>
    rw [Nat.repr_eq_ofList_toDigits, String.toList_ofList, decide_eq_false (by omega),
      show k.natAbs = k.toNat by omega]
    rfl
  case isFalse negative =>
    rw [Nat.repr_eq_ofList_toDigits, String.toList_append, String.toList_ofList,
      String.toList_ofList, decide_eq_true (by omega), show k.natAbs = (-k).toNat by omega]
    rfl

/-- **An integer that is not too long is read as that integer.** -/
theorem readNumber_int {k : Int} (short : isLong (.int k) = false) (ends : EndsNumeral rest) :
    readNumber ((toString k).toList ++ rest) = .ok (.int k, rest) := by
  have proper : (Numeral.mk (decimalDigits k.natAbs) [] none).IsProper :=
    ⟨isWhole_decimalDigits _, nofun⟩
  have text : (Numeral.mk (decimalDigits k.natAbs) [] none).text = decimalDigits k.natAbs :=
    List.append_nil _
  have integer : (Numeral.mk (decimalDigits k.natAbs) [] none).isInteger = true := rfl
  have fits : ¬mostIntegerDigits < (decimalDigits k.natAbs).length := of_decide_eq_false short
  have read := proper.readNumber_text (k < 0) ends
  rw [text, integer, if_pos rfl, if_neg fits, digitsValue_decimalDigits] at read
  rw [toList_toString_int, List.append_assoc, read]
  have value : (if decide (k < 0) = true then -(k.natAbs : Int) else k.natAbs) = k := by
    simp only [decide_eq_true_eq]
    omega
  rw [value]

/-! ## Binary numbers -/

namespace Numeral

variable {n place : Nat}

/-- A zero, the point and further zeros before the digits of `n`. -/
def below (zeros n : Nat) : Numeral := ⟨['0'], List.replicate zeros '0' ++ decimalDigits n, none⟩

/-- The digits of `n` and further zeros before the point, and a zero behind it. -/
def above (n zeros : Nat) : Numeral := ⟨decimalDigits n ++ List.replicate zeros '0', ['0'], none⟩

/-- The point behind the first digits of `n`. -/
def within (n place : Nat) (exponent : Option Int) : Numeral :=
  ⟨(decimalDigits n).take place, (decimalDigits n).drop place, exponent⟩

theorem isDigit_of_mem_zeros {zeros : Nat} : ∀ c ∈ List.replicate zeros '0', c.isDigit = true := by
  intro c among
  rw [List.eq_of_mem_replicate among]
  rfl

theorem isProper_below (zeros n : Nat) : (below zeros n).IsProper where
  whole := isWhole_zero
  part := fun c among =>
    (List.mem_append.mp among).elim (isDigit_of_mem_zeros c) isDigit_of_mem_decimalDigits

theorem isProper_above (positive : 0 < n) (zeros : Nat) : (above n zeros).IsProper := by
  refine ⟨⟨fun c among => ?_, .inr ?_⟩, isWhole_zero.all⟩
  · exact (List.mem_append.mp among).elim isDigit_of_mem_decimalDigits (isDigit_of_mem_zeros c)
  · obtain ⟨first, more, digits, nonzero⟩ := decimalDigits_eq_cons positive
    refine ⟨first, more ++ List.replicate zeros '0', ?_, nonzero⟩
    rw [above, digits, List.cons_append]

theorem isProper_within (positive : 0 < n) (some : 0 < place) (exponent : Option Int) :
    (within n place exponent).IsProper := by
  refine ⟨⟨fun c among => ?_, .inr ?_⟩, fun c among => ?_⟩
  · exact isDigit_of_mem_decimalDigits (List.mem_of_mem_take among)
  · obtain ⟨first, more, digits, nonzero⟩ := decimalDigits_eq_cons positive
    obtain ⟨k, rfl⟩ : ∃ k, place = k + 1 := ⟨place - 1, by omega⟩
    exact ⟨first, more.take k, by rw [within, digits, List.take_succ_cons], nonzero⟩
  · exact isDigit_of_mem_decimalDigits (List.mem_of_mem_drop among)

theorem decimal_below (zeros n : Nat) :
    (below zeros n).decimal = ⟨n, -(zeros + (decimalDigits n).length : Int)⟩ := by
  refine decimal_eq ?_ ?_
  · exact (digitsValue_zeros_append (zeros + 1) _).trans (digitsValue_decimalDigits n)
  · simp only [below, Option.getD_none, List.length_append, List.length_replicate]
    omega

theorem value_above (n zeros : Nat) :
    (above n zeros).decimal.value = (Decimal.mk n zeros).value := by
  have digits : digitsValue (decimalDigits n ++ List.replicate zeros '0' ++ ['0']) =
      10 ^ (zeros + 1) * n := by
    rw [List.append_assoc, ← List.replicate_succ', digitsValue_append_zeros,
      digitsValue_decimalDigits]
  rw [above, decimal, Decimal.value, Decimal.value, digits, zpow_natCast]
  simp only [Option.getD_none, List.length_singleton, Nat.cast_one, zero_sub, zpow_neg_one]
  push_cast
  field_simp
  ring

theorem decimal_within (inside : place ≤ (decimalDigits n).length) (exponent : Option Int) :
    (within n place exponent).decimal =
      ⟨n, exponent.getD 0 - ((decimalDigits n).length - place : Int)⟩ := by
  refine decimal_eq ?_ ?_
  · rw [within, List.take_append_drop, digitsValue_decimalDigits]
  · simp only [within, List.length_drop]
    omega

end Numeral

end Json

namespace Binary64

open Json

/-- **The text of a decimal is a numeral of its value**, with a point or an exponent, in positional
and in scientific notation. -/
theorem Decimal.exists_numeral (x : Decimal) (positive : 0 < x.digits) : ∃ n : Numeral,
    n.IsProper ∧ n.text = x.text ∧ n.isInteger = false ∧ n.decimal.value = x.value := by
  have filled : decimalDigits x.digits ≠ [] := Nat.toDigits_ne_nil
  have long : 0 < (decimalDigits x.digits).length := List.length_pos_iff.mpr filled
  have exactly {exponent : Int} (same : exponent = x.exponent) : Decimal.mk x.digits exponent = x :=
    congrArg (Decimal.mk x.digits) same
  unfold Decimal.text
  dsimp only
  split
  case isTrue positional =>
    split
    case isTrue before =>
      refine ⟨.below _ x.digits, Numeral.isProper_below _ _, ?_, ?_, congrArg _ <|
        (Numeral.decimal_below (-((decimalDigits x.digits).length + x.exponent)).toNat _).trans
          (exactly (by omega))⟩
      · simp [Numeral.text, Numeral.below, Numeral.pointPart, Numeral.exponentPart, filled]
      · simp [Numeral.isInteger, Numeral.below, filled]
    case isFalse behind =>
      split
      case isTrue whole =>
        refine ⟨.above x.digits _, Numeral.isProper_above positive _, rfl, rfl, ?_⟩
        rw [Numeral.value_above, exactly (by omega)]
      case isFalse inside =>
        generalize place : ((decimalDigits x.digits).length + x.exponent).toNat = k
        have nonempty : (decimalDigits x.digits).drop k ≠ [] := by
          rw [ne_eq, List.drop_eq_nil_iff]
          omega
        refine ⟨.within x.digits k none, Numeral.isProper_within positive (by omega) _, ?_, ?_,
          congrArg _ <| (Numeral.decimal_within (by omega) none).trans (exactly ?_)⟩
        · simp [Numeral.text, Numeral.within, Numeral.pointPart_of_ne_nil nonempty,
            Numeral.exponentPart]
        · rw [Numeral.isInteger, Bool.and_eq_false_iff]
          exact .inl (by simpa [Numeral.within] using nonempty)
        · rw [Option.getD_none]
          omega
  case isFalse scientific =>
    refine ⟨.within x.digits 1 (some _), Numeral.isProper_within positive one_pos _, ?_,
      Bool.and_false _,
      congrArg _ <| (Numeral.decimal_within long
        (some ((decimalDigits x.digits).length + x.exponent - 1))).trans (exactly ?_)⟩
    · simp [Numeral.text, Numeral.within, Numeral.pointPart, Numeral.exponentPart]
    · rw [Option.getD_some]
      omega

/-- The digits of the shortest decimal of a number other than zero. -/
theorem shortestDecimal_digits_pos {m : Nat} {e : Int} (canonical : (finite false m e).Canonical)
    (nonzero : 0 < m) : 0 < (shortestDecimal m e).digits := by
  refine Nat.pos_of_ne_zero fun none => ?_
  have back := shortestDecimal_reads_back canonical
  rw [none, ofDecimal, if_pos rfl] at back
  cases back
  exact absurd nonzero (Nat.lt_irrefl 0)

/-- The text of a finite number is a numeral with its sign, and the numeral reads back. -/
theorem text_eq_numeral {negative : Bool} {m : Nat} {e : Int}
    (canonical : (finite negative m e).Canonical) : ∃ n : Numeral,
      n.IsProper ∧ (finite negative m e).text.toList = signText negative ++ n.text ∧
      n.isInteger = false ∧
      ofDecimal negative n.decimal.digits n.decimal.exponent = .finite negative m e := by
  cases m with
  | zero =>
    obtain ⟨-, -, -, full⟩ := canonical
    obtain rfl := full.resolve_left (by decide)
    refine ⟨⟨['0'], ['0'], none⟩, ⟨isWhole_zero, isWhole_zero.all⟩, ?_, rfl, rfl⟩
    cases negative <;> rfl
  | succ m =>
    have unsigned : (finite false (m + 1) e).Canonical := canonical
    obtain ⟨n, proper, text, decimal, value⟩ := (shortestDecimal (m + 1) e).exists_numeral
      (shortestDecimal_digits_pos unsigned (Nat.succ_pos m))
    have back := (ofDecimal_congr false value).trans (shortestDecimal_reads_back unsigned)
    refine ⟨n, proper, ?_, decimal, ?_⟩
    · rw [Binary64.text, String.toList_ofList, text]
      rfl
    · cases negative with
      | false => exact back
      | true => rw [ofDecimal_true, back, neg, Bool.not_false]

end Binary64

/-- **A binary number is read as that binary number.** -/
theorem Json.readNumber_real {negative : Bool} {m : Nat} {e : Int} {rest : List Char}
    (canonical : (Binary64.finite negative m e).Canonical) (ends : EndsNumeral rest) :
    readNumber ((Binary64.finite negative m e).text.toList ++ rest) =
      .ok (.real (.finite negative m e), rest) := by
  obtain ⟨n, proper, text, decimal, back⟩ := Binary64.text_eq_numeral canonical
  rw [text, List.append_assoc, proper.readNumber_text negative ends, decimal,
    if_neg Bool.false_ne_true, back]

end ChipEight
