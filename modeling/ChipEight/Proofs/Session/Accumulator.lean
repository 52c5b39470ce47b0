import ChipEight.Session.TickAccumulator
import Mathlib.Algebra.Order.BigOperators.Group.List
import Mathlib.Data.Rat.Floor

/-!
# Exact ticks

What the accumulator answers over any number of stretches of time. `exactTicks` is the number of
ticks in a time, a rational number, and `counted` is the part of a stretch that counts. Nothing is
lost between the stretches: all ticks together are the exact ticks of the time that counts, rounded
down once (`Sound.sum_advances`), and the ticks of one stretch are its own exact ticks, rounded down
or up. Both follow from one law (`advance_conserves`): ticks and remainder afterwards are worth the
remainder before and the stretch.

The total depends on the sum of what counts and on nothing else, so the order of the stretches makes
no difference (`sum_advances_perm`). Neither does it matter how a stretch is split, as long as every
part counts in full or none does (`sum_advances_split`). A stretch above the cap is cut and its
parts may not be, so that this is not true of all splits.
-/

namespace ChipEight

/-- The ticks of a number of nanoseconds, with their fraction. -/
def exactTicks (hertz nanos : Int) : ℚ := hertz * nanos / 1000000000

/-- The part of a stretch that counts: none below zero, and the cap above it. -/
def counted (cap stretch : Int) : Int := max 0 (min stretch (max 0 cap))

theorem exactTicks_eq (hertz nanos : Int) :
    exactTicks hertz nanos = ((hertz * nanos : Int) : ℚ) / ((1000000000 : Nat) : ℚ) := by
  rw [exactTicks, Int.cast_mul, Nat.cast_ofNat]

theorem floor_exactTicks (hertz nanos : Int) :
    ⌊exactTicks hertz nanos⌋ = hertz * nanos / 1000000000 := by
  rw [exactTicks_eq, Rat.floor_intCast_div_natCast, Nat.cast_ofNat]

theorem ceil_exactTicks (hertz nanos : Int) :
    ⌈exactTicks hertz nanos⌉ = -(-(hertz * nanos) / 1000000000) := by
  rw [exactTicks_eq, Rat.ceil_intCast_div_natCast, Nat.cast_ofNat]

theorem exactTicks_mono {hertz nanos nanos' : Int} (positive : 0 ≤ hertz) (le : nanos ≤ nanos') :
    exactTicks hertz nanos ≤ exactTicks hertz nanos' := by
  unfold exactTicks
  gcongr

theorem counted_le (cap stretch : Int) : counted cap stretch ≤ max 0 cap := by
  unfold counted
  omega

namespace TickAccumulator

/-- A new accumulator with an integral frequency and an integral cap. -/
theorem make_int {hertz : Int} (positive : 0 < hertz) (capMillis : Int) :
    make (.int hertz) (.int capMillis) = .ok ⟨hertz, capMillis * nanosPerMilli, 0⟩ := by
  have above : (Number.int hertz).le (.int 0) = false := by
    simpa [Number.le, Number.toExtended, Extended.le] using positive
  simp only [make, above]
  rfl

/-! ## One stretch -/

theorem clamp_eq_counted (a : TickAccumulator) (stretch : Int) :
    a.clamp stretch = counted a.cap stretch := by
  unfold clamp counted
  omega

/-- **Ticks and remainder are worth what was there before and what counts of the stretch.** -/
theorem advance_conserves (a : TickAccumulator) (stretch : Int) :
    (a.advance stretch).1 * nanosPerSecond + (a.advance stretch).2.remainder =
      a.remainder + a.hertz * counted a.cap stretch := by
  rw [← clamp_eq_counted, Int.mul_comm a.hertz]
  exact Int.ediv_mul_add_emod _ _

/-- An accumulator whose remainder is less than a tick. -/
structure Sound (a : TickAccumulator) : Prop where
  hertz : 0 ≤ a.hertz
  remainder_nonneg : 0 ≤ a.remainder
  remainder_lt : a.remainder < nanosPerSecond

theorem sound_reset {a : TickAccumulator} (hertz : 0 ≤ a.hertz) : a.reset.Sound :=
  have second : (0 : Int) < nanosPerSecond := by decide
  ⟨hertz, Int.le_refl 0, second⟩

theorem Sound.advance {a : TickAccumulator} (sound : a.Sound) (stretch : Int) :
    0 ≤ (a.advance stretch).1 ∧ (a.advance stretch).2.Sound := by
  have second : (0 : Int) < nanosPerSecond := by decide
  have counted : 0 ≤ a.clamp stretch * a.hertz :=
    Int.mul_nonneg (Int.le_max_left _ _) sound.hertz
  refine ⟨Int.ediv_nonneg (Int.add_nonneg sound.remainder_nonneg counted) (Int.le_of_lt second),
    sound.hertz, Int.emod_nonneg _ (Int.ne_of_gt second), Int.emod_lt_of_pos _ second⟩

/-- **The ticks of one stretch** are its exact ticks, rounded down or up. -/
theorem Sound.advance_eq {a : TickAccumulator} (sound : a.Sound) (stretch : Int) :
    (a.advance stretch).1 = ⌊exactTicks a.hertz (counted a.cap stretch)⌋ ∨
      (a.advance stretch).1 = ⌈exactTicks a.hertz (counted a.cap stretch)⌉ := by
  have worth := a.advance_conserves stretch
  obtain ⟨-, before', below'⟩ := (sound.advance stretch).2
  obtain ⟨-, before, below⟩ := sound
  rw [floor_exactTicks, ceil_exactTicks]
  unfold nanosPerSecond at *
  omega

/-- One stretch gives no more ticks than the cap does, rounded up. -/
theorem Sound.advance_le {a : TickAccumulator} (sound : a.Sound) (stretch : Int) :
    (a.advance stretch).1 ≤ ⌈exactTicks a.hertz (max 0 a.cap)⌉ := by
  have capped : exactTicks a.hertz (counted a.cap stretch) ≤ exactTicks a.hertz (max 0 a.cap) :=
    exactTicks_mono sound.hertz (counted_le _ _)
  rcases sound.advance_eq stretch with down | up
  · rw [down]
    exact (Int.floor_le_ceil _).trans (Int.ceil_le_ceil capped)
  · rw [up]
    exact Int.ceil_le_ceil capped

/-! ## Any number of stretches -/

/-- The ticks after each of a list of stretches, and the accumulator after all of them. -/
def advances (a : TickAccumulator) : List Int → List Int × TickAccumulator
  | [] => ([], a)
  | stretch :: rest =>
    let (ticks, a) := a.advance stretch
    let (more, a) := a.advances rest
    (ticks :: more, a)

theorem advances_cons (a : TickAccumulator) (stretch : Int) (rest : List Int) :
    a.advances (stretch :: rest) =
      ((a.advance stretch).1 :: ((a.advance stretch).2.advances rest).1,
        ((a.advance stretch).2.advances rest).2) := rfl

/-- Only the remainder of an accumulator changes. -/
theorem advances_eq (a : TickAccumulator) (stretches : List Int) :
    (a.advances stretches).2 = { a with remainder := (a.advances stretches).2.remainder } := by
  induction stretches generalizing a with
  | nil => rfl
  | cons stretch rest ih => exact ih (a.advance stretch).2

theorem Sound.advances {a : TickAccumulator} (sound : a.Sound) (stretches : List Int) :
    (a.advances stretches).2.Sound := by
  induction stretches generalizing a with
  | nil => exact sound
  | cons stretch rest ih => exact ih (sound.advance stretch).2

/-- Nothing is lost between the stretches. -/
theorem advances_conserve (a : TickAccumulator) (stretches : List Int) :
    (a.advances stretches).1.sum * nanosPerSecond + (a.advances stretches).2.remainder =
      a.remainder + a.hertz * (stretches.map (counted a.cap)).sum := by
  induction stretches generalizing a with
  | nil => simp [TickAccumulator.advances]
  | cons stretch rest ih =>
    have first := a.advance_conserves stretch
    have later : _ = _ + a.hertz * (rest.map (counted a.cap)).sum := ih (a.advance stretch).2
    simp only [advances_cons, List.map_cons, List.sum_cons, Int.add_mul, Int.mul_add]
    omega

/-- **All ticks together** are the exact ticks of the time that counts, rounded down once. -/
theorem sum_advances {a : TickAccumulator} (sound : a.Sound) (empty : a.remainder = 0)
    (stretches : List Int) :
    (a.advances stretches).1.sum =
      ⌊exactTicks a.hertz (stretches.map (counted a.cap)).sum⌋ := by
  have worth := a.advances_conserve stretches
  obtain ⟨-, before, below⟩ := sound.advances stretches
  rw [floor_exactTicks]
  unfold nanosPerSecond at *
  omega

/-- What is true of every stretch with its ticks. -/
theorem Sound.forall₂_advances {a : TickAccumulator} (sound : a.Sound) (stretches : List Int) :
    List.Forall₂ (fun stretch ticks =>
        (ticks = ⌊exactTicks a.hertz (counted a.cap stretch)⌋ ∨
          ticks = ⌈exactTicks a.hertz (counted a.cap stretch)⌉) ∧
        0 ≤ ticks ∧ ticks ≤ ⌈exactTicks a.hertz (max 0 a.cap)⌉)
      stretches (a.advances stretches).1 := by
  induction stretches generalizing a with
  | nil => exact .nil
  | cons stretch rest ih =>
    obtain ⟨nonneg, advanced⟩ := sound.advance stretch
    exact .cons ⟨sound.advance_eq stretch, nonneg, sound.advance_le stretch⟩ (ih advanced)

/-- **The order of the stretches makes no difference.** -/
theorem sum_advances_perm {a : TickAccumulator} (sound : a.Sound) (empty : a.remainder = 0)
    {stretches stretches' : List Int} (perm : stretches.Perm stretches') :
    (a.advances stretches').1.sum = (a.advances stretches).1.sum := by
  rw [sum_advances sound empty, sum_advances sound empty, (perm.map _).sum_eq]

/-! ## Splits -/

/-- Parts that are neither below zero nor above the cap count in full. -/
theorem sum_counted_of_nonneg {cap : Int} {parts : List Int}
    (uncut : ∀ part ∈ parts, part ≤ max 0 cap) (nonneg : ∀ part ∈ parts, 0 ≤ part) :
    (parts.map (counted cap)).sum = parts.sum := by
  have whole (part : Int) (among : part ∈ parts) : counted cap part = id part := by
    have low := nonneg part among
    have high := uncut part among
    rw [counted, min_eq_left high, max_eq_right low, id]
  rw [List.map_congr_left whole, List.map_id]

/-- Parts that are not above zero do not count. -/
theorem sum_counted_of_nonpos {cap : Int} {parts : List Int} (nonpos : ∀ part ∈ parts, part ≤ 0) :
    (parts.map (counted cap)).sum = 0 := by
  refine List.sum_eq_zero fun time among => ?_
  obtain ⟨part, member, rfl⟩ := List.mem_map.mp among
  have high := nonpos part member
  unfold counted
  omega

/-- **How a stretch is split makes no difference**, as long as the parts are of one sign and none is
above the cap. -/
theorem sum_advances_split {a : TickAccumulator} (sound : a.Sound) (empty : a.remainder = 0)
    {before parts parts' after : List Int} (same : parts'.sum = parts.sum)
    (uncut : ∀ part ∈ parts ++ parts', part ≤ max 0 a.cap)
    (signed : (∀ part ∈ parts ++ parts', 0 ≤ part) ∨ ∀ part ∈ parts ++ parts', part ≤ 0) :
    (a.advances (before ++ parts' ++ after)).1.sum =
      (a.advances (before ++ parts ++ after)).1.sum := by
  have count : (parts'.map (counted a.cap)).sum = (parts.map (counted a.cap)).sum := by
    simp only [List.forall_mem_append] at uncut signed
    rcases signed with ⟨nonneg, nonneg'⟩ | ⟨nonpos, nonpos'⟩
    · rw [sum_counted_of_nonneg uncut.2 nonneg', sum_counted_of_nonneg uncut.1 nonneg, same]
    · rw [sum_counted_of_nonpos nonpos', sum_counted_of_nonpos nonpos]
  simp only [sum_advances sound empty, List.map_append, List.sum_append, count]

/-- **The ticks are exact.** For every positive frequency and every cap, an accumulator that is new
or was reset answers to any stretches of time with the exact ticks of the time that counts, rounded
down once. The remainder stays less than a tick. The ticks of each stretch are its own exact ticks,
rounded down or up, and never more than those of the cap, rounded up. The order of the stretches
makes no difference, and neither does the way a stretch is split into parts of one sign, none above
the cap; a stretch that is not above the cap is such a split of itself. -/
theorem ticks_are_exact {hertz : Int} (positive : 0 < hertz) (capMillis : Int) :
    ∃ fresh : TickAccumulator, make (.int hertz) (.int capMillis) = .ok fresh ∧
      fresh.cap = capMillis * 1000000 ∧
      (∀ stretches,
        (fresh.advances stretches).2.reset = fresh ∧
        (fresh.advances stretches).1.sum =
          ⌊exactTicks hertz (stretches.map (counted fresh.cap)).sum⌋ ∧
        0 ≤ (fresh.advances stretches).2.remainder ∧
        (fresh.advances stretches).2.remainder < 1000000000 ∧
        List.Forall₂ (fun stretch ticks =>
            (ticks = ⌊exactTicks hertz (counted fresh.cap stretch)⌋ ∨
              ticks = ⌈exactTicks hertz (counted fresh.cap stretch)⌉) ∧
            0 ≤ ticks ∧ ticks ≤ ⌈exactTicks hertz (max 0 fresh.cap)⌉)
          stretches (fresh.advances stretches).1) ∧
      (∀ stretches stretches', stretches.Perm stretches' →
        (fresh.advances stretches').1.sum = (fresh.advances stretches).1.sum) ∧
      ∀ before parts parts' after, parts'.sum = parts.sum →
        (∀ part ∈ parts ++ parts', part ≤ max 0 fresh.cap) →
        ((∀ part ∈ parts ++ parts', 0 ≤ part) ∨ ∀ part ∈ parts ++ parts', part ≤ 0) →
        (fresh.advances (before ++ parts' ++ after)).1.sum =
          (fresh.advances (before ++ parts ++ after)).1.sum := by
  have made := make_int positive capMillis
  have sound : Sound ⟨hertz, capMillis * nanosPerMilli, 0⟩ :=
    sound_reset (a := ⟨hertz, capMillis * nanosPerMilli, 0⟩) (Int.le_of_lt positive)
  refine ⟨_, made, rfl, fun stretches => ?_, fun _ _ => sum_advances_perm sound rfl,
    fun _ _ _ _ => sum_advances_split sound rfl⟩
  have left := sound.advances stretches
  refine ⟨?_, sum_advances sound rfl stretches, left.remainder_nonneg, left.remainder_lt,
    sound.forall₂_advances stretches⟩
  rw [advances_eq]
  rfl

/-- A stretch below zero between others does not count, and one above the cap is cut. -/
theorem ticks_are_exact_uneven :
    (0 : Int) < 60 ∧ ∃ fresh : TickAccumulator, make (.int 60) (.int 3000) = .ok fresh ∧
      (fresh.advances [7000000, -5000000000, 13000000, 4000000000]).1.sum = 181 := by
  have positive : (0 : Int) < 60 := by decide
  obtain ⟨fresh, made, cap, exact, -⟩ := ticks_are_exact positive 3000
  refine ⟨positive, fresh, made, ?_⟩
  rw [(exact _).2.1, cap, floor_exactTicks]
  rfl

/-- **Not every split leaves the ticks as they are.** Four seconds are cut to three where the cap is
three seconds, and two times two seconds are not; one second does not count less for a second that
is taken back. -/
theorem splits_of_cut_stretch :
    ∃ fresh : TickAccumulator, make (.int 60) (.int 3000) = .ok fresh ∧
      fresh.cap = 3000000000 ∧
      (fresh.advances [4000000000]).1.sum = 180 ∧
      (fresh.advances [2000000000, 2000000000]).1.sum = 240 ∧
      (fresh.advances [1000000000]).1.sum = 60 ∧
      (fresh.advances [2000000000, -1000000000]).1.sum = 120 :=
  ⟨⟨60, 3000000000, 0⟩, make_int (by decide) 3000, rfl, rfl, rfl, rfl, rfl⟩

end TickAccumulator

end ChipEight
