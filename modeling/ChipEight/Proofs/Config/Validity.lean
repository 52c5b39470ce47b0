import ChipEight.Config.Layers
import ChipEight.Proofs.Failure
import ChipEight.Proofs.Number.Value

/-!
# Valid settings

Settings that were accepted have values within their ranges: `Config.Valid` names these, and the
check of the ranges accepts exactly the settings that have them (`Draft.checkRanges_eq_ok_iff`). So
all settings from a check, and from a layer over them, are valid.
-/

namespace ChipEight

/-- **Settings within their ranges.** -/
structure Config.Valid (c : Config) : Prop where
  /-- The frequency is a number, and no infinity. -/
  finite : c.hertz.IsFinite
  hertz : 0 < c.hertz.value ∧ c.hertz.value < Draft.hertzBound
  width : 0 < c.windowWidth ∧ c.windowWidth < Draft.sideBound
  height : 0 < c.windowHeight ∧ c.windowHeight < Draft.sideBound
  stackLimit : ∀ limit ∈ c.stackLimit, 0 < limit
  timerHertz : 0 < c.timerHertz
  maxCatchup : 0 < c.maxCatchup

namespace Draft

variable {c c' : Config} {d : Draft}

/-- A condition that is required has to hold before anything else is done. -/
theorem require_bind_eq_ok_iff {condition : Bool} {setting : String} {value : Datum}
    {f : Unit → Except ConfigError Config} :
    require condition setting value >>= f = .ok c ↔ condition = true ∧ f () = .ok c := by
  unfold require
  cases condition <;> simp [bind, Except.bind]

/-- **The check of the ranges accepts what is valid**, and answers it. -/
theorem checkRanges_eq_ok_iff : checkRanges c = .ok c' ↔ c = c' ∧ c.Valid := by
  have limits : (∀ limit ∈ c.stackLimit, 0 < limit) ↔
      c.stackLimit.all (fun limit => decide (0 < limit)) = true := by
    cases c.stackLimit <;> simp
  have accepted : checkRanges c = .ok c' ↔
      (Number.lt (.int 0) c.hertz && c.hertz.lt (.int hertzBound)) = true ∧
      (decide (0 < c.windowWidth) && decide (c.windowWidth < sideBound)) = true ∧
      (decide (0 < c.windowHeight) && decide (c.windowHeight < sideBound)) = true ∧
      c.stackLimit.all (fun limit => decide (0 < limit)) = true ∧
      decide (0 < c.timerHertz) = true ∧ decide (0 < c.maxCatchup) = true ∧ c = c' := by
    unfold checkRanges
    cases c.stackLimit <;>
      simp only [require_bind_eq_ok_iff, Option.all_none, Option.all_some, true_and, pure,
        Except.pure, Except.ok.injEq]
  rw [accepted, ← limits, Number.between_iff]
  simp only [Bool.and_eq_true, decide_eq_true_eq]
  constructor
  · rintro ⟨⟨finite, low, high⟩, width, height, stackLimit, timerHertz, maxCatchup, same⟩
    exact ⟨same, finite, ⟨by exact_mod_cast low, high⟩, width, height, stackLimit, timerHertz,
      maxCatchup⟩
  · rintro ⟨same, valid⟩
    exact ⟨⟨valid.finite, by exact_mod_cast valid.hertz.1, valid.hertz.2⟩, valid.width,
      valid.height, valid.stackLimit, valid.timerHertz, valid.maxCatchup, same⟩

/-- **Settings that were accepted are valid.** -/
theorem valid_of_check (accepted : d.check = .ok c) : c.Valid := by
  simp only [check, bind_eq_ok_iff] at accepted
  obtain ⟨_, -, _, -, _, -, _, -, _, -, _, -, _, -, _, -, _, -, inside⟩ := accepted
  obtain ⟨rfl, valid⟩ := checkRanges_eq_ok_iff.mp inside
  exact valid

end Draft

namespace Config

/-- A layer over settings leaves them valid. -/
theorem valid_of_withOverrides {c c' : Config} {fields : List (String × Datum)}
    (accepted : c.withOverrides fields = .ok c') : c'.Valid := by
  unfold withOverrides at accepted
  dsimp only at accepted
  split at accepted
  · cases accepted
  · exact Draft.valid_of_check accepted

/-- The usual settings are valid. -/
theorem standard_valid : standard.Valid := by
  have hertz : (Number.lt (.int 0) standard.hertz &&
      standard.hertz.lt (.int Draft.hertzBound)) = true := by decide +kernel
  obtain ⟨finite, low, high⟩ := (Number.between_iff 0 Draft.hertzBound).mp hertz
  exact {
    finite := finite
    hertz := ⟨by exact_mod_cast low, high⟩
    width := by decide
    height := by decide
    stackLimit := by decide
    timerHertz := by decide
    maxCatchup := by decide }

end Config

end ChipEight
