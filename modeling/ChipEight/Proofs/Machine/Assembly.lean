import ChipEight.Machine.Instruction
import ChipEight.Text.Hex

/-!
# Assembler notation

The text of an instruction is a verb and its operands: a blank stands before each operand and a
comma between two of them. Neither a verb nor an operand holds a blank or a comma, so that a text
falls into its parts again in one way only (`parts_text`).

The parts can be read back. `Operand.read?` reads an operand, `Instruction.ofParts?` an instruction
from its verb and its operands. So no two instructions have the same text (`text_injective`).
-/

namespace ChipEight

/-! ## Hexadecimal numerals -/

namespace Text

theorem hexValue?_hexDigit : ∀ d < 16, hexValue? (hexDigit d) = some d := by decide

/-- A digit is no mark between the parts of a text. -/
theorem hexDigit_ne : ∀ d < 16, hexDigit d ≠ ' ' ∧ hexDigit d ≠ ',' := by decide

/-- A closed text is looked through for marks by evaluation. -/
theorem ne_of_all {text : List Char} (plain : text.all fun c => c != ' ' && c != ',') :
    ∀ c ∈ text, c ≠ ' ' ∧ c ≠ ',' := by
  intro c among
  simpa using List.all_eq_true.mp plain c among

/-- The number that hexadecimal digits stand for. -/
def numeral (digits : List Char) : Nat :=
  digits.foldl (fun n c => 16 * n + (hexValue? c).getD 0) 0

theorem numeral_fixedHex_succ (width n : Nat) :
    numeral (fixedHex (width + 1) n) = 16 * numeral (fixedHex width (n / 16)) + n % 16 := by
  have last := hexValue?_hexDigit (n % 16) (Nat.mod_lt n (by decide))
  rw [numeral, numeral, fixedHex, List.foldl_append, List.foldl_cons, List.foldl_nil, last,
    Option.getD_some]

theorem length_fixedHex (width n : Nat) : (fixedHex width n).length = width := by
  induction width generalizing n with
  | zero => rfl
  | succ width ih => rw [fixedHex, List.length_append, ih, List.length_singleton]

theorem fixedHex_ne {width n : Nat} {c : Char} (among : c ∈ fixedHex width n) :
    c ≠ ' ' ∧ c ≠ ',' := by
  induction width generalizing n with
  | zero => cases among
  | succ width ih =>
    rcases List.mem_append.mp among with high | low
    · exact ih high
    · rw [List.mem_singleton.mp low]
      exact hexDigit_ne (n % 16) (Nat.mod_lt n (by decide))

end Text

/-! ## Operands -/

/-- An operand of an instruction: a number of some size, or a part of the machine. -/
inductive Operand where
  | register (x : Fin 16)
  | byte (value : UInt8)
  | address (a : Fin 4096)
  | count (n : Fin 16)
  | delayTimer
  | soundTimer
  | key
  | index
  | glyph
  | decimal
  | block
deriving DecidableEq, Repr

namespace Operand

open Text

/-- An operand as it is written. -/
def spelling : Operand → List Char
  | .register x => ['V', hexDigit x.val]
  | .byte value => '0' :: 'x' :: fixedHex 2 value.toNat
  | .address a => '0' :: 'x' :: fixedHex 3 a.val
  | .count n => (toString n.val).toList
  | .delayTimer => ['D', 'T']
  | .soundTimer => ['S', 'T']
  | .key => ['K']
  | .index => ['I']
  | .glyph => ['F']
  | .decimal => ['B']
  | .block => ['[', 'I', ']']

/-- Reads an operand. -/
def read? : List Char → Option Operand
  | ['V', digit] => some (.register (Fin.ofNat 16 (numeral [digit])))
  | ['0', 'x', high, low] => some (.byte (UInt8.ofNat (numeral [high, low])))
  | ['0', 'x', high, middle, low] =>
    some (.address (Fin.ofNat 4096 (numeral [high, middle, low])))
  | ['D', 'T'] => some .delayTimer
  | ['S', 'T'] => some .soundTimer
  | ['K'] => some .key
  | ['I'] => some .index
  | ['F'] => some .glyph
  | ['B'] => some .decimal
  | ['[', 'I', ']'] => some .block
  | digits =>
    ((List.finRange 16).find? fun n => (toString n.val).toList == digits).map .count

theorem read?_count : ∀ n : Fin 16, read? (spelling (.count n)) = some (.count n) := by decide

theorem read?_register : ∀ x : Fin 16, read? (spelling (.register x)) = some (.register x) := by
  decide

/-- What is written for an operand is read as that operand. -/
theorem read?_spelling (o : Operand) : read? o.spelling = some o := by
  cases o with
  | register x => exact read?_register x
  | count n => exact read?_count n
  | byte value =>
    have below := value.toNat_lt
    have whole : numeral (fixedHex 2 value.toNat) = value.toNat := by
      rw [numeral_fixedHex_succ, numeral_fixedHex_succ, fixedHex, numeral, List.foldl_nil]
      omega
    change some (Operand.byte (UInt8.ofNat (numeral (fixedHex 2 value.toNat)))) = _
    rw [whole, UInt8.ofNat_toNat]
  | address a =>
    have below := a.isLt
    have whole : numeral (fixedHex 3 a.val) = a.val := by
      rw [numeral_fixedHex_succ, numeral_fixedHex_succ, numeral_fixedHex_succ, fixedHex, numeral,
        List.foldl_nil]
      omega
    change some (Operand.address (Fin.ofNat 4096 (numeral (fixedHex 3 a.val)))) = _
    rw [whole]
    exact congrArg (fun a => some (Operand.address a)) (Fin.ext (Nat.mod_eq_of_lt a.isLt))
  | _ => rfl

theorem count_ne (n : Fin 16) : ∀ c ∈ spelling (.count n), c ≠ ' ' ∧ c ≠ ',' := by
  refine ne_of_all ?_
  revert n
  decide

/-- What is written for an operand holds no mark between the parts of a text. -/
theorem spelling_ne (o : Operand) : ∀ c ∈ o.spelling, c ≠ ' ' ∧ c ≠ ',' := by
  cases o with
  | register x =>
    intro c among
    rcases List.mem_cons.mp among with rfl | digit
    · decide
    · rw [List.mem_singleton.mp digit]
      exact hexDigit_ne x.val x.isLt
  | count n => exact count_ne n
  | byte value | address a =>
    intro c among
    rcases List.mem_cons.mp among with rfl | among
    · decide
    · rcases List.mem_cons.mp among with rfl | digit
      · decide
      · exact fixedHex_ne digit
  | _ => exact ne_of_all (by decide)

end Operand

/-! ## Instructions -/

namespace Instruction

/-- The assembler word of a register-to-register instruction. -/
def arithmeticName : Arithmetic → String
  | .copy => "LD"
  | .bitOr => "OR"
  | .bitAnd => "AND"
  | .bitXor => "XOR"
  | .sum => "ADD"
  | .difference => "SUB"
  | .reverseDifference => "SUBN"

/-- The assembler word of an instruction. -/
def verb : Instruction → String
  | .clearScreen => "CLS"
  | .returnFromCall => "RET"
  | .jump _ | .jumpPlus _ => "JP"
  | .call _ => "CALL"
  | .skipIfByte .. | .skipIfSame .. => "SE"
  | .skipUnlessByte .. | .skipUnlessSame .. => "SNE"
  | .addByte .. | .addToIndex _ => "ADD"
  | .arithmetic operation .. => arithmeticName operation
  | .shiftRight _ => "SHR"
  | .shiftLeft _ => "SHL"
  | .random .. => "RND"
  | .draw .. => "DRW"
  | .skipIfPressed _ => "SKP"
  | .skipUnlessPressed _ => "SKNP"
  | .setByte .. | .setIndex _ | .readDelay _ | .waitForKey _ | .setDelay _ | .setSound _ => "LD"
  | .indexGlyph _ | .storeDecimal _ | .storeRegisters _ | .loadRegisters _ => "LD"

/-- The operands of an instruction in the order in which they are written. -/
def operands : Instruction → List Operand
  | .clearScreen | .returnFromCall => []
  | .jump target | .call target => [.address target]
  | .jumpPlus base => [.register 0, .address base]
  | .skipIfByte x value | .skipUnlessByte x value | .setByte x value | .addByte x value
  | .random x value => [.register x, .byte value]
  | .skipIfSame x y | .skipUnlessSame x y | .arithmetic _ x y => [.register x, .register y]
  | .shiftRight x | .shiftLeft x | .skipIfPressed x | .skipUnlessPressed x => [.register x]
  | .setIndex address => [.index, .address address]
  | .draw x y rows => [.register x, .register y, .count rows]
  | .readDelay x => [.register x, .delayTimer]
  | .waitForKey x => [.register x, .key]
  | .setDelay x => [.delayTimer, .register x]
  | .setSound x => [.soundTimer, .register x]
  | .addToIndex x => [.index, .register x]
  | .indexGlyph x => [.glyph, .register x]
  | .storeDecimal x => [.decimal, .register x]
  | .storeRegisters x => [.block, .register x]
  | .loadRegisters x => [.register x, .block]

/-- Operands as they are written after a verb. -/
def written : List Operand → List Char
  | [] => []
  | [o] => ' ' :: o.spelling
  | o :: rest => ' ' :: o.spelling ++ ',' :: written rest

/-- An instruction in assembler notation. -/
def text (i : Instruction) : String := i.verb ++ String.ofList (written i.operands)

/-- Reads an instruction from its parts. -/
def ofParts? (verb : String) (operands : List Operand) : Option Instruction :=
  match verb, operands with
  | "CLS", [] => some .clearScreen
  | "RET", [] => some .returnFromCall
  | "JP", [.address target] => some (.jump target)
  | "JP", [.register 0, .address base] => some (.jumpPlus base)
  | "CALL", [.address target] => some (.call target)
  | "SE", [.register x, .byte value] => some (.skipIfByte x value)
  | "SE", [.register x, .register y] => some (.skipIfSame x y)
  | "SNE", [.register x, .byte value] => some (.skipUnlessByte x value)
  | "SNE", [.register x, .register y] => some (.skipUnlessSame x y)
  | "LD", [.register x, .byte value] => some (.setByte x value)
  | "LD", [.register x, .register y] => some (.arithmetic .copy x y)
  | "LD", [.register x, .delayTimer] => some (.readDelay x)
  | "LD", [.register x, .key] => some (.waitForKey x)
  | "LD", [.register x, .block] => some (.loadRegisters x)
  | "LD", [.delayTimer, .register x] => some (.setDelay x)
  | "LD", [.soundTimer, .register x] => some (.setSound x)
  | "LD", [.index, .address address] => some (.setIndex address)
  | "LD", [.glyph, .register x] => some (.indexGlyph x)
  | "LD", [.decimal, .register x] => some (.storeDecimal x)
  | "LD", [.block, .register x] => some (.storeRegisters x)
  | "ADD", [.register x, .byte value] => some (.addByte x value)
  | "ADD", [.register x, .register y] => some (.arithmetic .sum x y)
  | "ADD", [.index, .register x] => some (.addToIndex x)
  | "OR", [.register x, .register y] => some (.arithmetic .bitOr x y)
  | "AND", [.register x, .register y] => some (.arithmetic .bitAnd x y)
  | "XOR", [.register x, .register y] => some (.arithmetic .bitXor x y)
  | "SUB", [.register x, .register y] => some (.arithmetic .difference x y)
  | "SUBN", [.register x, .register y] => some (.arithmetic .reverseDifference x y)
  | "SHR", [.register x] => some (.shiftRight x)
  | "SHL", [.register x] => some (.shiftLeft x)
  | "RND", [.register x, .byte mask] => some (.random x mask)
  | "DRW", [.register x, .register y, .count rows] => some (.draw x y rows)
  | "SKP", [.register x] => some (.skipIfPressed x)
  | "SKNP", [.register x] => some (.skipUnlessPressed x)
  | _, _ => none

/-- An instruction is read from its own parts. -/
theorem ofParts?_parts (i : Instruction) : ofParts? i.verb i.operands = some i := by
  cases i with
  | arithmetic operation x y => cases operation <;> rfl
  | _ => rfl

theorem text_toList (i : Instruction) : i.text.toList = i.verb.toList ++ written i.operands := by
  rw [text, String.toList_append, String.toList_ofList]

/-- The words that are verbs. -/
def verbs : List String :=
  ["CLS", "RET", "JP", "CALL", "SE", "SNE", "LD", "OR", "AND", "XOR", "ADD", "SUB", "SUBN", "SHR",
    "SHL", "RND", "DRW", "SKP", "SKNP"]

theorem verb_mem (i : Instruction) : i.verb ∈ verbs := by
  cases i with
  | arithmetic operation x y => cases operation <;> simp [verb, arithmeticName, verbs]
  | _ => simp [verb, verbs]

/-- A verb holds no mark between the parts of a text. -/
theorem verb_ne : ∀ v ∈ verbs, ∀ c ∈ v.toList, c ≠ ' ' ∧ c ≠ ',' := by
  have plain : ∀ v ∈ verbs, v.toList.all fun c => c != ' ' && c != ',' := by decide
  exact fun v among => Text.ne_of_all (plain v among)

/-- No verb begins like the word for data. -/
theorem take_verb_ne : ∀ v ∈ verbs, 2 ≤ v.toList.length ∧ v.toList.take 2 ≠ ['D', 'W'] := by decide

/-! ## A text falls into its parts -/

/-- The parts of a text: the pieces between its blanks, without commas. -/
def parts (text : List Char) : List (List Char) := (text.filter (· != ',')).splitOn ' '

theorem filter_written (os : List Operand) :
    (written os).filter (· != ',') = os.flatMap fun o => ' ' :: o.spelling := by
  have kept (o : Operand) : o.spelling.filter (· != ',') = o.spelling :=
    List.filter_eq_self.mpr fun c among => bne_iff_ne.mpr (o.spelling_ne c among).2
  induction os with
  | nil => rfl
  | cons o rest ih =>
    cases rest with
    | nil => simpa [written] using kept o
    | cons next rest =>
      rw [List.flatMap_cons, ← ih]
      simp [written, kept o]

theorem intercalate_blank (first : List Char) (pieces : List (List Char)) :
    [' '].intercalate (first :: pieces) = first ++ pieces.flatMap (' ' :: ·) := by
  induction pieces generalizing first with
  | nil => simp [List.intercalate]
  | cons piece rest ih =>
    rw [List.flatMap_cons, List.cons_append, ← ih piece]
    simp [List.intercalate]

/-- **A text falls into the verb and the operands that it was written from.** -/
theorem parts_text (i : Instruction) :
    parts i.text.toList = i.verb.toList :: i.operands.map Operand.spelling := by
  have verb : i.verb.toList.filter (· != ',') = i.verb.toList :=
    List.filter_eq_self.mpr fun c among => bne_iff_ne.mpr (verb_ne i.verb i.verb_mem c among).2
  have joined : i.text.toList.filter (· != ',') =
      [' '].intercalate (i.verb.toList :: i.operands.map Operand.spelling) := by
    rw [text_toList, List.filter_append, verb, filter_written, intercalate_blank,
      List.flatMap_map]
  rw [parts, joined]
  refine List.splitOn_intercalate ' ' (fun piece among blank => ?_) (List.cons_ne_nil _ _)
  rcases List.mem_cons.mp among with rfl | among
  · exact (verb_ne i.verb i.verb_mem ' ' blank).1 rfl
  · obtain ⟨o, -, rfl⟩ := List.mem_map.mp among
    exact (o.spelling_ne ' ' blank).1 rfl

/-- Operands are told apart by what is written for them. -/
theorem operands_of_spellings {os os' : List Operand}
    (h : os.map Operand.spelling = os'.map Operand.spelling) : os = os' := by
  have read (os : List Operand) :
      (os.map Operand.spelling).map Operand.read? = os.map some := by
    rw [List.map_map]
    exact List.map_congr_left fun o _ => o.read?_spelling
  have same := read os
  rw [h, read os'] at same
  exact (List.map_inj_right fun _ _ => Option.some.inj).mp same.symm

/-- **No two instructions have the same text.** -/
theorem text_injective {i j : Instruction} (h : i.text = j.text) : i = j := by
  have same := congrArg (fun text => parts text.toList) h
  simp only [parts_text] at same
  obtain ⟨verb, operands⟩ := List.cons.inj same
  have whole := ofParts?_parts i
  rw [String.toList_inj.mp verb, operands_of_spellings operands, ofParts?_parts] at whole
  exact (Option.some.inj whole).symm

/-- What begins like no verb is the text of no instruction. -/
theorem text_ne_of_take {n : Nat} {s : String}
    (begins : ∀ v ∈ verbs, n ≤ v.toList.length ∧ v.toList.take n ≠ s.toList.take n)
    (i : Instruction) : i.text ≠ s := by
  rintro rfl
  obtain ⟨long, other⟩ := begins i.verb i.verb_mem
  refine other ?_
  rw [text_toList, List.take_append_of_le_length long]

/-- No instruction is written like a word that is listed as data. -/
theorem text_ne_data (i : Instruction) (digits : String) : i.text ≠ "DW 0x" ++ digits := by
  have start : ("DW 0x" ++ digits).toList.take 2 = ['D', 'W'] := by
    rw [String.toList_append]
    rfl
  exact text_ne_of_take (n := 2) (fun v among => start ▸ take_verb_ne v among) i

end Instruction

end ChipEight
