/-!
# Numbers of one hexadecimal digit

Registers, keys and the small operands of instructions are numbered by one hexadecimal digit, and
addresses within instructions have three. Both kinds of numbers have a zero, so that numerals stand
for them.
-/

namespace ChipEight

/-- There are numbers of one digit. -/
instance oneDigit_ne_zero : @NeZero Nat Zero.ofOfNat0 16 := ⟨by decide⟩

instance threeDigits_ne_zero : @NeZero Nat Zero.ofOfNat0 4096 := ⟨by decide⟩

theorem digit_lt (x : Fin 16) : x.val < 16 := x.isLt

/-- An integer in the range of one digit is such a number. -/
theorem toNat_lt_sixteen {n : Int} (h : 0 ≤ n ∧ n < 16) : n.toNat < 16 := by omega

end ChipEight
