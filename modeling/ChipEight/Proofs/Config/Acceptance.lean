import ChipEight.Proofs.Config.Settings
import ChipEight.Proofs.Config.Validity

/-!
# Settings that are accepted

A draft may have any value for any setting. `Draft.Acceptable` names, setting by setting, the kind
and the range that its value must have: a truth value is no number, and what is no number or an
infinity lies in no range. The check accepts exactly these drafts (`Draft.exists_check_iff`),
answers them unchanged (`Draft.check_eq_ok_iff`), and refuses all others for a value
(`Draft.check_fails`).

Settings come from the check only, whichever way they are made: from values, from a record or a
file, from the environment, and by laying files and values over settings that were made before
(`Config.Obtained`).
-/

namespace ChipEight

/-- What is refused for a value. -/
def ConfigError.OfValue (e : ConfigError) : Prop := e.family = .value

namespace Draft

/-! ## Kinds -/

section

variable {setting : String} {v : Datum}

theorem optionalText_eq_ok_iff {s : Option String} :
    optionalText setting v = .ok s ↔ (s.map Datum.text).getD .null = v := by
  cases v <;> cases s <;> simp [optionalText, eq_comm]

theorem truth_eq_ok_iff {b : Bool} : truth setting v = .ok b ↔ .bool b = v := by
  cases v <;> simp [truth, eq_comm]

theorem number_eq_ok_iff {x : Number} : number setting v = .ok x ↔ .ofNumber x = v := by
  cases v <;> cases x <;> simp [number, Datum.ofNumber, eq_comm]

theorem integer_eq_ok_iff {n : Int} : integer setting v = .ok n ↔ .int n = v := by
  cases v <;> simp [integer, eq_comm]

theorem optionalInteger_eq_ok_iff {n : Option Int} :
    optionalInteger setting v = .ok n ↔ (n.map Datum.int).getD .null = v := by
  cases v <;> cases n <;> simp [optionalInteger, eq_comm]

theorem backendNamed_eq_ok_iff {b : Backend} : backendNamed v = .ok b ↔ .text b.name = v := by
  cases v with
  | text name =>
    rw [backendNamed, Datum.text.injEq]
    unfold Backend.ofName?
    cases b <;> grind [Backend.name]
  | _ => simp [backendNamed]

theorem optionalText_fails (setting : String) (v : Datum) :
    FailsOnly ConfigError.OfValue (optionalText setting v) := by
  intro e failed
  cases v <;> cases failed <;> rfl

theorem truth_fails (setting : String) (v : Datum) :
    FailsOnly ConfigError.OfValue (truth setting v) := by
  intro e failed
  cases v <;> cases failed <;> rfl

theorem number_fails (setting : String) (v : Datum) :
    FailsOnly ConfigError.OfValue (number setting v) := by
  intro e failed
  cases v <;> cases failed <;> rfl

theorem integer_fails (setting : String) (v : Datum) :
    FailsOnly ConfigError.OfValue (integer setting v) := by
  intro e failed
  cases v <;> cases failed <;> rfl

theorem optionalInteger_fails (setting : String) (v : Datum) :
    FailsOnly ConfigError.OfValue (optionalInteger setting v) := by
  intro e failed
  cases v <;> cases failed <;> rfl

theorem backendNamed_fails (v : Datum) : FailsOnly ConfigError.OfValue (backendNamed v) := by
  cases v with
  | text name =>
    rw [backendNamed]
    cases Backend.ofName? name with
    | some backend => exact .ok _
    | none => exact .error rfl
  | _ => exact .error rfl

theorem require_fails (condition : Bool) (setting : String) (v : Datum) :
    FailsOnly ConfigError.OfValue (require condition setting v) := by
  cases condition
  · exact .error rfl
  · exact .ok _

end

/-! ## The check -/

variable {c : Config} {d : Draft}

/-- **The check answers what it is given**, if that is valid. -/
theorem check_eq_ok_iff : d.check = .ok c ↔ c.toDraft = d ∧ c.Valid := by
  simp only [check, bind_eq_ok_iff, optionalText_eq_ok_iff, truth_eq_ok_iff, number_eq_ok_iff,
    integer_eq_ok_iff, optionalInteger_eq_ok_iff, backendNamed_eq_ok_iff, checkRanges_eq_ok_iff]
  constructor
  · rintro ⟨rom, r, debug, g, hertz, h, width, w, height, v, timer, t, cap, m, limit, l, backend, b,
      rfl, valid⟩
    refine ⟨?_, valid⟩
    cases d
    simp only [Config.toDraft, mk.injEq]
    exact ⟨r, g, b, h, w, v, l, t, m⟩
  · rintro ⟨rfl, valid⟩
    exact ⟨_, rfl, _, rfl, _, rfl, _, rfl, _, rfl, _, rfl, _, rfl, _, rfl, _, rfl, rfl, valid⟩

theorem checkRanges_fails (c : Config) : FailsOnly ConfigError.OfValue (checkRanges c) := by
  unfold checkRanges
  refine .bind (require_fails _ _ _) fun _ _ => .bind (require_fails _ _ _) fun _ _ =>
    .bind (require_fails _ _ _) fun _ _ => ?_
  have last : FailsOnly ConfigError.OfValue (do
      require (0 < c.timerHertz) "timer frequency" (.int c.timerHertz)
      require (0 < c.maxCatchup) "catch-up cap" (.int c.maxCatchup)
      return c) :=
    .bind (require_fails _ _ _) fun _ _ => .bind (require_fails _ _ _) fun _ _ => .ok _
  cases c.stackLimit with
  | none => exact last
  | some limit => exact .bind (require_fails _ _ _) fun _ _ => last

/-- What the check refuses is refused for a value. -/
theorem check_fails (d : Draft) : FailsOnly ConfigError.OfValue d.check := by
  unfold check
  exact .bind (optionalText_fails _ _) fun _ _ => .bind (truth_fails _ _) fun _ _ =>
    .bind (number_fails _ _) fun _ _ => .bind (integer_fails _ _) fun _ _ =>
    .bind (integer_fails _ _) fun _ _ => .bind (integer_fails _ _) fun _ _ =>
    .bind (integer_fails _ _) fun _ _ => .bind (optionalInteger_fails _ _) fun _ _ =>
    .bind (backendNamed_fails _) fun _ _ => checkRanges_fails _

/-- **Values of the right kinds within their ranges.** -/
structure Acceptable (d : Draft) : Prop where
  rom : d.rom = .null ∨ ∃ path, d.rom = .text path
  debug : ∃ b, d.debug = .bool b
  backend : d.backend = .text "pygame" ∨ d.backend = .text "headless"
  hertz : ∃ x : Number, d.hertz = .ofNumber x ∧ x.IsFinite ∧ 0 < x.value ∧ x.value < 100000
  windowWidth : ∃ n : Int, d.windowWidth = .int n ∧ 1 ≤ n ∧ n ≤ 9999
  windowHeight : ∃ n : Int, d.windowHeight = .int n ∧ 1 ≤ n ∧ n ≤ 9999
  stackLimit : d.stackLimit = .null ∨ ∃ n : Int, d.stackLimit = .int n ∧ 1 ≤ n
  timerHertz : ∃ n : Int, d.timerHertz = .int n ∧ 1 ≤ n
  maxCatchup : ∃ n : Int, d.maxCatchup = .int n ∧ 1 ≤ n

/-- Valid settings have acceptable values. -/
theorem acceptable_of_valid (valid : c.Valid) : c.toDraft.Acceptable where
  rom := by
    cases rom : c.rom with
    | none => exact .inl (by rw [Config.toDraft, rom]; rfl)
    | some path => exact .inr ⟨path, by rw [Config.toDraft, rom]; rfl⟩
  debug := ⟨c.debug, rfl⟩
  backend := by
    cases backend : c.backend with
    | window => exact .inl (by rw [Config.toDraft, backend]; rfl)
    | headless => exact .inr (by rw [Config.toDraft, backend]; rfl)
  hertz := ⟨c.hertz, rfl, valid.finite, valid.hertz.1, by
    exact_mod_cast valid.hertz.2⟩
  windowWidth := ⟨c.windowWidth, rfl, valid.width.1, Int.le_of_lt_add_one valid.width.2⟩
  windowHeight := ⟨c.windowHeight, rfl, valid.height.1, Int.le_of_lt_add_one valid.height.2⟩
  stackLimit := by
    cases limit : c.stackLimit with
    | none => exact .inl (by rw [Config.toDraft, limit]; rfl)
    | some n =>
      exact .inr ⟨n, by rw [Config.toDraft, limit]; rfl, valid.stackLimit n (by rw [limit]; rfl)⟩
  timerHertz := ⟨c.timerHertz, rfl, valid.timerHertz⟩
  maxCatchup := ⟨c.maxCatchup, rfl, valid.maxCatchup⟩

/-- Acceptable values are those of valid settings. -/
theorem Acceptable.exists_valid (acceptable : d.Acceptable) :
    ∃ c : Config, c.toDraft = d ∧ c.Valid := by
  obtain ⟨rom, romSaid⟩ : ∃ rom : Option String, (rom.map Datum.text).getD .null = d.rom := by
    rcases acceptable.rom with empty | ⟨path, said⟩
    · exact ⟨none, empty.symm⟩
    · exact ⟨some path, said.symm⟩
  obtain ⟨debug, debugSaid⟩ := acceptable.debug
  obtain ⟨backend, backendSaid⟩ : ∃ backend : Backend, .text backend.name = d.backend := by
    rcases acceptable.backend with said | said
    · exact ⟨.window, said.symm⟩
    · exact ⟨.headless, said.symm⟩
  obtain ⟨hertz, hertzSaid, finite, positive, small⟩ := acceptable.hertz
  obtain ⟨windowWidth, widthSaid, width⟩ := acceptable.windowWidth
  obtain ⟨windowHeight, heightSaid, height⟩ := acceptable.windowHeight
  obtain ⟨stackLimit, limitSaid, limits⟩ : ∃ stackLimit : Option Int,
      (stackLimit.map Datum.int).getD .null = d.stackLimit ∧ ∀ limit ∈ stackLimit, 0 < limit := by
    rcases acceptable.stackLimit with empty | ⟨n, said, least⟩
    · exact ⟨none, empty.symm, nofun⟩
    · exact ⟨some n, said.symm, fun limit same => Option.some.inj same ▸ least⟩
  obtain ⟨timerHertz, timerSaid, timer⟩ := acceptable.timerHertz
  obtain ⟨maxCatchup, capSaid, cap⟩ := acceptable.maxCatchup
  refine ⟨⟨rom, debug, backend, hertz, windowWidth, windowHeight, stackLimit, timerHertz,
    maxCatchup⟩, ?_, ⟨finite, ⟨positive, by exact_mod_cast small⟩,
    ⟨width.1, Int.lt_add_one_of_le width.2⟩, ⟨height.1, Int.lt_add_one_of_le height.2⟩, limits,
    timer, cap⟩⟩
  cases d
  simp only [Config.toDraft, mk.injEq]
  exact ⟨romSaid, debugSaid.symm, backendSaid, hertzSaid.symm, widthSaid.symm, heightSaid.symm,
    limitSaid, timerSaid.symm, capSaid.symm⟩

/-- **The check accepts what is acceptable.** -/
theorem exists_check_iff : (∃ c, d.check = .ok c) ↔ d.Acceptable := by
  constructor
  · rintro ⟨c, accepted⟩
    obtain ⟨rfl, valid⟩ := check_eq_ok_iff.mp accepted
    exact acceptable_of_valid valid
  · intro acceptable
    obtain ⟨c, same, valid⟩ := acceptable.exists_valid
    exact ⟨c, check_eq_ok_iff.mpr ⟨same, valid⟩⟩

theorem acceptable_of_check (accepted : d.check = .ok c) : d.Acceptable :=
  exists_check_iff.mp ⟨c, accepted⟩

theorem toDraft_of_check (accepted : d.check = .ok c) : c.toDraft = d :=
  (check_eq_ok_iff.mp accepted).1

end Draft

/-! ## The ways to settings -/

namespace Config

/-- Settings that are made one way or another, in any number of steps. -/
inductive Obtained : Config → Prop
  /-- From values with names, over the usual settings. -/
  | arguments {c : Config} {fields : List (String × Datum)}
    (made : ofArguments fields = .ok c) : Obtained c
  | record {c : Config} {fields : List (String × Datum)}
    (made : ofRecord fields = .ok c) : Obtained c
  | file {c : Config} {files : FileTree} {path : String}
    (made : load files path = .ok c) : Obtained c
  /-- From the environment, over the usual settings. -/
  | fromEnvironment {c : Config} {environment : Environment}
    (made : standard.withEnvironment environment = .ok c) : Obtained c
  | overEnvironment {c c' : Config} {environment : Environment} (base : Obtained c)
    (made : c.withEnvironment environment = .ok c') : Obtained c'
  | merged {c c' : Config} {files : FileTree} {path : String} (base : Obtained c)
    (made : c.mergeFile files path = .ok c') : Obtained c'
  | overridden {c c' : Config} {fields : List (String × Datum)} (base : Obtained c)
    (made : c.withOverrides fields = .ok c') : Obtained c'

variable {c c' : Config}

/-- What is made by replacing settings was checked. -/
theorem valid_of_replace {fields : List (String × Datum)} (made : c.replace fields = .ok c') :
    c'.Valid :=
  (Draft.check_eq_ok_iff.mp made).2

theorem valid_of_ofArguments {fields : List (String × Datum)}
    (made : ofArguments fields = .ok c) : c.Valid := by
  unfold ofArguments at made
  split at made
  · cases made
  · exact (Draft.check_eq_ok_iff.mp made).2

theorem valid_of_ofRecord {fields : List (String × Datum)} (made : ofRecord fields = .ok c) :
    c.Valid := by
  obtain ⟨_, -, made⟩ := bind_eq_ok_iff.mp made
  exact valid_of_ofArguments made

theorem valid_of_withEnvironment {environment : Environment}
    (made : c.withEnvironment environment = .ok c') : c'.Valid := by
  obtain ⟨_, -, made⟩ := bind_eq_ok_iff.mp made
  exact valid_of_replace made

/-- **All settings are valid**, however they are made. -/
theorem Obtained.valid (obtained : Obtained c) : c.Valid := by
  cases obtained with
  | arguments made => exact valid_of_ofArguments made
  | record made => exact valid_of_ofRecord made
  | file made =>
    obtain ⟨_, -, made⟩ := bind_eq_ok_iff.mp made
    exact valid_of_ofRecord made
  | fromEnvironment made => exact valid_of_withEnvironment made
  | overEnvironment _ made => exact valid_of_withEnvironment made
  | merged _ made =>
    obtain ⟨_, -, made⟩ := bind_eq_ok_iff.mp made
    obtain ⟨_, -, made⟩ := bind_eq_ok_iff.mp made
    exact valid_of_replace made
  | overridden _ made => exact valid_of_withOverrides made

/-- Values for all settings are checked as they are. -/
theorem ofArguments_fields (d : Draft) : ofArguments d.fields = d.check := by
  have known : (d.fields.find? fun field => !isName field.1) = none :=
    Setting.find?_unknown fun _ => Layer.isName_of_mem_fields
  rw [ofArguments, known]
  dsimp only
  rw [completed_fields]

/-- **Settings are accepted exactly if they are acceptable.** Any values that are given for the nine
settings make settings with these values if each has the right kind and lies within its range, and
are refused for a value otherwise; and all settings, however they are made, have acceptable
values. -/
theorem settings_accepted_iff :
    (∀ d : Draft, ((∃ c, ofArguments d.fields = .ok c) ↔ d.Acceptable) ∧
      (∀ c, ofArguments d.fields = .ok c → c.toDraft = d) ∧
      ∀ e, ofArguments d.fields = .error e → e.family = .value) ∧
    ∀ c, Obtained c → c.toDraft.Acceptable := by
  refine ⟨fun d => ?_, fun c obtained => Draft.acceptable_of_valid obtained.valid⟩
  rw [ofArguments_fields]
  exact ⟨Draft.exists_check_iff, fun c => Draft.toDraft_of_check, Draft.check_fails d⟩

/-- Values at the edges of their ranges are accepted, and settings with them are acceptable; a truth
value is refused as a frequency, though it counts as a number elsewhere. -/
theorem settings_accepted_iff_edges :
    let d : Draft := { standard.toDraft with
      hertz := .int 99999, windowWidth := .int 9999, windowHeight := .int 1, stackLimit := .null }
    (∃ c, ofArguments d.fields = .ok c ∧ c.toDraft = d ∧ c.toDraft.Acceptable) ∧
      ∃ e, ofArguments { d with hertz := .bool true }.fields = .error e ∧ e.family = .value := by
  obtain ⟨accepts, acceptable⟩ := settings_accepted_iff
  intro d
  constructor
  · obtain ⟨c, made⟩ : ∃ c, ofArguments d.fields = .ok c := by
      refine (accepts d).1.mpr ?_
      exact {
        rom := .inl rfl
        debug := ⟨false, rfl⟩
        backend := .inl rfl
        hertz := ⟨.int 99999, rfl, trivial, by norm_num [Number.value], by norm_num [Number.value]⟩
        windowWidth := ⟨9999, rfl, by decide, by decide⟩
        windowHeight := ⟨1, rfl, by decide, by decide⟩
        stackLimit := .inl rfl
        timerHertz := ⟨60, rfl, by decide⟩
        maxCatchup := ⟨3000, rfl, by decide⟩ }
    exact ⟨c, made, (accepts d).2.1 c made, acceptable c (.arguments made)⟩
  · have refused : ofArguments { d with hertz := .bool true }.fields =
        .error (.badSetting "hertz value" (.bool true)) := rfl
    exact ⟨_, refused, (accepts _).2.2 _ refused⟩

end Config

end ChipEight
