import ChipEight.Config.Layers
import Mathlib.Data.List.Forall2

/-!
# The words of the environment

The environment says things in words, with blank space around them and with capitals or small
letters. This module tells what a text says by the characters that it consists of: what is left of
it without blank space (`Stripped`), which words mean no (`MeansNo`), and which ones spell a name
(`InEitherCase`). Trimming, folding and lower case, by which the settings are read, come to the same
(`stripped_iff`, `foldCase_iff`, `lowerCase_iff`).
-/

namespace ChipEight.Text

variable {c x : Char} {s core text word : List Char}

theorem eq_ofNat_of_toNat {n : Nat} (same : c.toNat = n) : c = Char.ofNat n := by
  rw [← same, Char.ofNat_toNat]

/-! ## Blank space -/

/-- The code points of blank space. -/
def spaces : List Nat := [
  0x9, 0xA, 0xB, 0xC, 0xD, 0x1C, 0x1D, 0x1E, 0x1F, 0x20, 0x85, 0xA0, 0x1680, 0x2000, 0x2001, 0x2002,
  0x2003, 0x2004, 0x2005, 0x2006, 0x2007, 0x2008, 0x2009, 0x200A, 0x2028, 0x2029, 0x202F, 0x205F,
  0x3000]

theorem isBlank_iff : isBlank c = true ↔ c.toNat ∈ spaces := by
  have blank : c = ' ' ↔ c.toNat = 0x20 := ⟨fun same => same ▸ rfl, eq_ofNat_of_toNat⟩
  simp only [isBlank, isNumberBlank, isAsciiBlank, isWideBlank, spaces, Bool.or_eq_true,
    Bool.and_eq_true, decide_eq_true_eq, beq_iff_eq, blank, List.mem_cons, List.not_mem_nil,
    or_false]
  omega

/-- **A text without the blank space around it.** -/
structure Stripped (text core : List Char) : Prop where
  around : ∃ before after, text = before ++ core ++ after ∧
    (∀ c ∈ before, c.toNat ∈ spaces) ∧ ∀ c ∈ after, c.toNat ∈ spaces
  first : ∀ c ∈ core.head?, c.toNat ∉ spaces
  last : ∀ c ∈ core.getLast?, c.toNat ∉ spaces

/-- The first character that is left is not blank. -/
theorem head?_dropWhile_isBlank (s : List Char) :
    ∀ c ∈ (s.dropWhile isBlank).head?, c.toNat ∉ spaces := by
  intro c first space
  have kept := List.head?_dropWhile_not isBlank s
  rw [Option.mem_def.mp first] at kept
  exact Bool.noConfusion (kept.symm.trans (isBlank_iff.mpr space))

/-- Blank space is dropped up to a character that is none. -/
theorem dropWhile_isBlank_append {before rest : List Char}
    (blank : ∀ c ∈ before, c.toNat ∈ spaces) (first : ∀ c ∈ rest.head?, c.toNat ∉ spaces) :
    (before ++ rest).dropWhile isBlank = rest := by
  rw [List.dropWhile_append_of_pos fun c among => isBlank_iff.mpr (blank c among)]
  cases rest with
  | nil => rfl
  | cons c rest => exact List.dropWhile_cons_of_neg fun space => first c rfl (isBlank_iff.mp space)

/-- **Trimming takes away the blank space around a text**, and nothing else. -/
theorem stripped_iff : Stripped text core ↔ core = trimBoth isBlank text := by
  constructor
  · rintro ⟨⟨before, after, rfl, blank, blank'⟩, first, last⟩
    have back : ∀ c ∈ after.reverse, c.toNat ∈ spaces := fun c among =>
      blank' c (List.mem_reverse.mp among)
    have turned : ∀ c ∈ core.reverse.head?, c.toNat ∉ spaces := by
      rwa [List.head?_reverse]
    unfold trimBoth
    cases core with
    | nil =>
      have all : ∀ c ∈ before ++ [] ++ after, c.toNat ∈ spaces := by
        simpa [or_imp, forall_and] using ⟨blank, blank'⟩
      have dropped : (before ++ [] ++ after ++ []).dropWhile isBlank = [] :=
        dropWhile_isBlank_append all fun _ => nofun
      rw [List.append_nil] at dropped
      rw [dropped]
      rfl
    | cons c rest =>
      have front : (before ++ (c :: rest ++ after)).dropWhile isBlank = c :: rest ++ after :=
        dropWhile_isBlank_append blank first
      rw [List.append_assoc, front, List.reverse_append, dropWhile_isBlank_append back turned,
        List.reverse_reverse]
  · rintro rfl
    let rest := text.dropWhile isBlank
    let after := (rest.reverse.takeWhile isBlank).reverse
    have split : rest = trimBoth isBlank text ++ after := by
      rw [← List.reverse_inj, List.reverse_append, List.reverse_reverse, trimBoth,
        List.reverse_reverse, List.takeWhile_append_dropWhile]
    have blank (s : List Char) : ∀ c ∈ s.takeWhile isBlank, c.toNat ∈ spaces :=
      fun c among => isBlank_iff.mp (List.all_eq_true.mp List.all_takeWhile c among)
    refine ⟨⟨text.takeWhile isBlank, after, ?_, blank text, ?_⟩, ?_, ?_⟩
    · rw [List.append_assoc, ← split, List.takeWhile_append_dropWhile]
    · exact fun c among => blank rest.reverse c (List.mem_reverse.mp among)
    · intro c first
      refine head?_dropWhile_isBlank text c ?_
      rw [show text.dropWhile isBlank = _ from split, List.head?_append, Option.mem_def.mp first]
      rfl
    · rw [trimBoth, List.getLast?_reverse]
      exact head?_dropWhile_isBlank _

/-! ## Words for no -/

/-- **A word that means no**: nothing, a zero, or one of two words in capitals or small letters. A
long s stands for an s, and a ligature for two letters f. -/
inductive MeansNo : List Char → Prop
  | nothing : MeansNo []
  | zero : MeansNo ['0']
  | false {f a l s e : Char} (f_ : f ∈ ['f', 'F']) (a_ : a ∈ ['a', 'A']) (l_ : l ∈ ['l', 'L'])
    (s_ : s ∈ ['s', 'S', Char.ofNat 0x17F]) (e_ : e ∈ ['e', 'E']) : MeansNo [f, a, l, s, e]
  | off {o f f' : Char} (o_ : o ∈ ['o', 'O']) (f_ : f ∈ ['f', 'F']) (f'_ : f' ∈ ['f', 'F']) :
    MeansNo [o, f, f']
  | ligature {o : Char} (o_ : o ∈ ['o', 'O']) : MeansNo [o, Char.ofNat 0xFB00]

/-- The characters that fold to something else, and what they fold to. -/
def foldings : List (Char × List Char) :=
  (List.range 26).map (fun n => (Char.ofNat (65 + n), [Char.ofNat (97 + n)])) ++
  ([0xDF, 0x1E9E, 0x130, 0x149, 0x17F, 0x1F0, 0x1E96, 0x1E97, 0x1E98, 0x1E99, 0x1E9A, 0x212A, 0xFB00,
    0xFB01, 0xFB02, 0xFB03, 0xFB04, 0xFB05, 0xFB06].map fun n => (Char.ofNat n, foldChar (.ofNat n)))

theorem mem_foldings {folded : List Char} (folds : foldChar c = folded) :
    folded = [c] ∨ (c, folded) ∈ foldings := by
  unfold foldChar at folds
  split at folds
  case h_20 =>
    split at folds
    case isTrue capital =>
      refine .inr (List.mem_append_left _ (List.mem_map.mpr ⟨c.toNat - 65, ?_, ?_⟩))
      · rw [List.mem_range]
        omega
      · rw [← folds, Nat.add_sub_cancel' capital.1, Char.ofNat_toNat,
          show 97 + (c.toNat - 65) = c.toNat + 32 by omega]
    case isFalse => exact .inl folds.symm
  all_goals
    rename_i same
    rw [← folds, eq_ofNat_of_toNat same]
    exact .inr (by decide)

/-- The characters whose folding begins with a character, and these foldings. -/
def readings (x : Char) : List (Char × List Char) :=
  (x, [x]) :: foldings.filter fun entry => entry.2.head? = some x

/-- The characters that fold to one character. -/
def letters (x : Char) : List Char :=
  ((readings x).filter fun entry => entry.2 = [x]).map Prod.fst

theorem mem_readings {more : List Char} (folds : foldChar c = x :: more) :
    (c, x :: more) ∈ readings x := by
  rcases mem_foldings folds with same | listed
  · cases same
    exact List.mem_cons_self
  · exact List.mem_cons_of_mem _ (List.mem_filter.mpr ⟨listed, by simp⟩)

/-- A character that is listed for a letter folds to that letter. -/
theorem foldChar_of_mem_letters (small : foldChar x = [x]) (listed : c ∈ letters x) :
    foldChar c = [x] := by
  have folds : ∀ entry ∈ foldings, foldChar entry.1 = entry.2 := by decide
  obtain ⟨⟨_, folded⟩, read, rfl⟩ := List.mem_map.mp listed
  obtain ⟨read, alone⟩ := List.mem_filter.mp read
  have same : folded = [x] := of_decide_eq_true alone
  rcases List.mem_cons.mp read with itself | other
  · cases itself
    exact small
  · rw [folds _ (List.mem_filter.mp other).1, same]

theorem foldChar_ne_nil (c : Char) : foldChar c ≠ [] := by
  intro folds
  rcases mem_foldings folds with same | listed
  · cases same
  · have filled : ∀ entry ∈ foldings, entry.2 ≠ [] := by decide
    exact filled _ listed rfl

theorem foldCase_eq_nil_iff : foldCase s = [] ↔ s = [] := by
  cases s with
  | nil => simp [foldCase]
  | cons c s => simp [foldCase, foldChar_ne_nil c]

/-- The first character of a text whose folding is not empty. -/
theorem exists_of_foldCase {rest : List Char} (folds : foldCase s = x :: rest) :
    ∃ c s' more, s = c :: s' ∧ (c, x :: more) ∈ readings x ∧ more ++ foldCase s' = rest := by
  cases s with
  | nil => cases folds
  | cons c s' =>
    rw [foldCase, List.flatMap_cons] at folds
    cases folded : foldChar c with
    | nil => exact absurd folded (foldChar_ne_nil c)
    | cons y more =>
      rw [folded] at folds
      cases folds
      exact ⟨c, s', more, rfl, mem_readings folded, rfl⟩

/-- The first character of such a text, if no longer folding fits. -/
theorem exists_letter_of_foldCase {rest : List Char} (folds : foldCase s = x :: rest)
    (alone : ∀ entry ∈ readings x, entry.2.tail <+: rest → entry.2 = [x]) :
    ∃ c ∈ letters x, ∃ s', s = c :: s' ∧ foldCase s' = rest := by
  obtain ⟨c, s', more, rfl, read, rfl⟩ := exists_of_foldCase folds
  cases alone _ read (List.prefix_append more _)
  exact ⟨c, List.mem_map.mpr ⟨_, List.mem_filter.mpr ⟨read, by simp⟩, rfl⟩, s', rfl, rfl⟩

theorem meansNo_of_false (folds : foldCase s = ['f', 'a', 'l', 's', 'e']) : MeansNo s := by
  obtain ⟨f, f_, s₁, rfl, folds₁⟩ := exists_letter_of_foldCase folds (by decide)
  obtain ⟨a, a_, s₂, rfl, folds₂⟩ := exists_letter_of_foldCase folds₁ (by decide)
  obtain ⟨l, l_, s₃, rfl, folds₃⟩ := exists_letter_of_foldCase folds₂ (by decide)
  obtain ⟨s, s_, s₄, rfl, folds₄⟩ := exists_letter_of_foldCase folds₃ (by decide)
  obtain ⟨e, e_, s₅, rfl, folds₅⟩ := exists_letter_of_foldCase folds₄ (by decide)
  rw [foldCase_eq_nil_iff.mp folds₅]
  exact .false f_ a_ l_ s_ e_

theorem meansNo_of_off (folds : foldCase s = ['o', 'f', 'f']) : MeansNo s := by
  obtain ⟨o, o_, s₁, rfl, folds₁⟩ := exists_letter_of_foldCase folds (by decide)
  obtain ⟨f, s₂, more, rfl, read, folds₂⟩ := exists_of_foldCase folds₁
  have either : ∀ entry ∈ readings 'f', entry.2.tail <+: ['f'] →
      entry.2 = ['f'] ∧ entry.1 ∈ letters 'f' ∨ entry = (Char.ofNat 0xFB00, ['f', 'f']) := by
    decide
  rcases either _ read ⟨_, folds₂⟩ with ⟨alone, f_⟩ | ligature
  · cases alone
    obtain ⟨f', f'_, s₃, rfl, folds₃⟩ := exists_letter_of_foldCase folds₂ (by decide)
    rw [foldCase_eq_nil_iff.mp folds₃]
    exact .off o_ f_ f'_
  · cases ligature
    rw [foldCase_eq_nil_iff.mp (List.cons.inj folds₂).2]
    exact .ligature o_

theorem meansNo_of_zero (folds : foldCase s = ['0']) : MeansNo s := by
  obtain ⟨c, zero, s₁, rfl, folds₁⟩ := exists_letter_of_foldCase folds (by decide)
  cases List.mem_singleton.mp zero
  rw [foldCase_eq_nil_iff.mp folds₁]
  exact .zero

/-- A text of given characters is among words if the characters are those of one of them. -/
theorem ofList_mem_iff {words : List String} :
    String.ofList s ∈ words ↔ s ∈ words.map String.toList := by
  constructor
  · intro listed
    exact List.mem_map.mpr ⟨_, listed, String.toList_ofList⟩
  · intro spelled
    obtain ⟨word, listed, rfl⟩ := List.mem_map.mp spelled
    rwa [String.ofList_toList]

/-- **The words that fold to a word for no are those that mean no.** -/
theorem foldCase_iff : String.ofList (foldCase s) ∈ Config.noWords ↔ MeansNo s := by
  have words : Config.noWords.map String.toList =
      [['0'], ['f', 'a', 'l', 's', 'e'], ['o', 'f', 'f'], []] := by decide
  rw [ofList_mem_iff, words]
  constructor
  · intro listed
    simp only [List.mem_cons, List.not_mem_nil, or_false] at listed
    rcases listed with zero | false | off | nothing
    · exact meansNo_of_zero zero
    · exact meansNo_of_false false
    · exact meansNo_of_off off
    · rw [foldCase_eq_nil_iff.mp nothing]
      exact .nothing
  · intro no
    cases no with
    | nothing | zero => decide
    | false f_ a_ l_ s_ e_ =>
      have fold_f := foldChar_of_mem_letters (by decide : foldChar 'f' = ['f']) f_
      have fold_a := foldChar_of_mem_letters (by decide : foldChar 'a' = ['a']) a_
      have fold_l := foldChar_of_mem_letters (by decide : foldChar 'l' = ['l']) l_
      have fold_s := foldChar_of_mem_letters (by decide : foldChar 's' = ['s']) s_
      have fold_e := foldChar_of_mem_letters (by decide : foldChar 'e' = ['e']) e_
      simp [foldCase, fold_f, fold_a, fold_l, fold_s, fold_e]
    | off o_ f_ f'_ =>
      have fold_o := foldChar_of_mem_letters (by decide : foldChar 'o' = ['o']) o_
      have fold_f := foldChar_of_mem_letters (by decide : foldChar 'f' = ['f']) f_
      have fold_f' := foldChar_of_mem_letters (by decide : foldChar 'f' = ['f']) f'_
      simp [foldCase, fold_o, fold_f, fold_f']
    | ligature o_ =>
      have fold_o := foldChar_of_mem_letters (by decide : foldChar 'o' = ['o']) o_
      have ligature : foldChar (Char.ofNat 0xFB00) = ['f', 'f'] := by decide
      simp [foldCase, fold_o, ligature]

/-! ## Names in capitals or small letters -/

/-- The characters are those of a word of small letters, each of them small or capital. -/
def InEitherCase (s word : List Char) : Prop :=
  List.Forall₂ (fun c x => c = x ∨ c.toNat + 32 = x.toNat) s word

/-- The letters that a single character goes to in lower case only if it is one of their two. -/
def IsSteady (x : Char) : Prop := 97 ≤ x.toNat ∧ x.toNat ≤ 122 ∧ x ≠ 'i' ∧ x ≠ 'k'

instance : DecidablePred IsSteady := fun x => by unfold IsSteady; infer_instance

/-- The runs of letters with a lower case: the capitals of ASCII, and letters outside ASCII whose
lower case is outside ASCII, too, but for the sign of a unit. -/
theorem lowerRuns_cases : ∀ r ∈ lowerRuns.toList,
    r.first = 65 ∧ r.last = 90 ∧ r.shift = 32 ∨
      128 ≤ r.first ∧
        (128 ≤ r.first + r.shift ∨ r.first = r.last ∧ r.first + r.shift = 107) := by
  decide +kernel

/-- What a code point is shifted by to lower case. -/
theorem lowerShift_cases (n : Nat) :
    65 ≤ n ∧ n ≤ 90 ∧ lowerShift n = 32 ∨ ¬(65 ≤ n ∧ n ≤ 90) ∧ lowerShift n = 0 ∨
      128 ≤ n ∧ (128 ≤ n + lowerShift n ∨ n + lowerShift n = 107) := by
  have capitals : ∀ k < 26, lowerShift (65 + k) = 32 := by decide +kernel
  by_cases capital : 65 ≤ n ∧ n ≤ 90
  · have shift := capitals (n - 65) (by omega)
    rw [Nat.add_sub_cancel' capital.1] at shift
    exact .inl ⟨capital.1, capital.2, shift⟩
  · unfold lowerShift
    split
    case h_1 r found =>
      have within := Array.find?_some found
      simp only [Bool.and_eq_true, decide_eq_true_eq, beq_iff_eq] at within
      have listed := Array.mem_toList_iff.mpr (Array.mem_of_find?_eq_some found)
      rcases lowerRuns_cases r listed with ⟨first, last, -⟩ | ⟨wide, stays⟩
      · omega
      · omega
    case h_2 => exact .inr (.inl ⟨capital, rfl⟩)

theorem ofNat_eq_iff {n : Nat} (steady : IsSteady x) : Char.ofNat n = x ↔ n = x.toNat := by
  obtain ⟨least, -⟩ := steady
  constructor
  · rintro rfl
    by_cases valid : n.isValidChar
    · rw [Char.ofNat, dif_pos valid]
      rfl
    · rw [Char.ofNat, dif_neg valid] at least
      exact absurd least (by decide)
  · rintro rfl
    exact Char.ofNat_toNat x

/-- A character goes to a small letter if it is that letter or its capital. -/
theorem lowerChar_cases (steady : IsSteady x) (before after : List Char) (c : Char) :
    lowerChar before c after = ['i', Char.ofNat 0x307] ∧ c.toNat = 0x130 ∨
      ∃ y, lowerChar before c after = [y] ∧ (y = x ↔ c = x ∨ c.toNat + 32 = x.toNat) := by
  obtain ⟨least, most, -, unit⟩ := id steady
  have other : x.toNat ≠ 107 := fun same => unit (eq_ofNat_of_toNat same)
  have same : c = x ↔ c.toNat = x.toNat := Char.toNat_inj.symm
  unfold lowerChar
  by_cases dotted : c.toNat = 0x130
  · rw [if_pos dotted]
    exact .inl ⟨rfl, dotted⟩
  · rw [if_neg dotted]
    right
    by_cases sigma : c.toNat = 0x3A3
    · rw [if_pos sigma]
      refine ⟨_, rfl, ?_⟩
      rw [ofNat_eq_iff steady, same]
      split <;> omega
    · rw [if_neg sigma]
      refine ⟨_, rfl, ?_⟩
      rw [ofNat_eq_iff steady, same]
      rcases lowerShift_cases c.toNat with ⟨low, high, shift⟩ | ⟨small, shift⟩ | ⟨wide, stays⟩
      · rw [shift]
        omega
      · rw [shift]
        omega
      · omega

theorem lowerChar_ne_nil (before after : List Char) (c : Char) : lowerChar before c after ≠ [] := by
  unfold lowerChar
  split
  · exact List.cons_ne_nil _ _
  · split <;> exact List.cons_ne_nil _ _

theorem lowerFrom_eq_iff {before : List Char} (steady : ∀ x ∈ word, IsSteady x) :
    lowerFrom before s = word ↔ InEitherCase s word := by
  induction s generalizing before word with
  | nil =>
    cases word with
    | nil => exact iff_of_true rfl .nil
    | cons x word => exact iff_of_false nofun nofun
  | cons c s ih =>
    rw [lowerFrom]
    cases word with
    | nil =>
      refine iff_of_false (fun empty => ?_) nofun
      exact lowerChar_ne_nil before s c (List.append_eq_nil_iff.mp empty).1
    | cons x word =>
      obtain ⟨first, rest⟩ := List.forall_mem_cons.mp steady
      rw [InEitherCase, List.forall₂_cons, ← InEitherCase, ← ih rest]
      rcases lowerChar_cases first before s c with ⟨dotted, wide⟩ | ⟨y, one, letter⟩
      · obtain ⟨-, most, other, -⟩ := first
        refine iff_of_false (fun spelled => ?_) (fun spelled => ?_)
        · rw [dotted] at spelled
          exact other (List.cons.inj spelled).1.symm
        · rcases spelled.1 with rfl | capital
          · omega
          · omega
      · rw [one, ← letter, List.singleton_append, List.cons.injEq]

/-- **The texts whose lower case is a word are those that spell it in capitals or small letters.** -/
theorem lowerCase_iff (steady : ∀ x ∈ word, IsSteady x) :
    lowerCase (String.ofList s) = String.ofList word ↔ InEitherCase s word := by
  rw [lowerCase, String.toList_ofList, ← lowerFrom_eq_iff steady]
  exact ⟨fun same => by simpa using congrArg String.toList same, fun same => by rw [same]⟩

end ChipEight.Text
