import ChipEight.CommandLine.Launch
import ChipEight.Proofs.Config.Sources

/-!
# Settings in layers

A launch takes each setting from the first place that says something of it: the command line, the
file of settings, the environment, and the usual settings (`settings_come_in_layers`). The command
line says what it has an option for (`commandLayer`).

There are settings exactly if the texts can be read and every layer leaves acceptable values behind:
a value that is overruled by a later layer has to be acceptable all the same.
-/

namespace ChipEight

namespace CommandLine

open Config

variable {program : String} {a : Arguments} {environment : Environment} {files : FileTree}
  {c c' : Config}

/-- **What the command line says of the settings.** -/
def commandLayer (program : String) (a : Arguments) : Layer
  | .rom => some (.text program)
  | .debug => if a.debug then some (.bool true) else none
  | .backend => a.library.map fun b => .text b.name
  | .hertz => a.hertz.map .real
  | .windowWidth => a.width.map .int
  | .windowHeight => a.height.map .int
  | .stackLimit => a.stackLimit.map .int
  | .timerHertz | .maxCatchup => none

/-- What is not said is empty among the values that are given, and the rest is what is said. -/
theorem overrides_given (program : String) (a : Arguments) :
    ((overrides program a).filter fun field => !isNull field.2) =
      (commandLayer program a).fields := by
  obtain ⟨_, debug, library, hertz, width, height, stackLimit, _, _, _⟩ := a
  simp only [Layer.fields, Setting.all, List.filterMap_cons, List.filterMap_nil, commandLayer,
    overrides, List.filter_cons, List.filter_nil]
  cases debug <;> cases library <;> cases hertz <;> cases width <;> cases height <;>
    cases stackLimit <;> rfl

theorem resolve_eq (program : String) (a : Arguments) (environment : Environment)
    (files : FileTree) : resolve program a environment files = (do
      let first ← standard.withEnvironment environment
      let second ← first.overFile files a.config
      second.withOverrides (overrides program a)) := by
  refine congrArg (bind _) (funext fun first => ?_)
  unfold overFile
  cases a.config.filter fun path => !path.isEmpty <;> rfl

/-- The settings of a launch are made by laying the three layers over the usual settings, one after
the other. -/
theorem resolve_eq_ok_iff : resolve program a environment files = .ok c ↔
    HertzReads environment ∧
      ∃ first, (standard.toDraft.overlaid (environmentLayer environment)).check = .ok first ∧
      ∃ file, FileSays files a.config file ∧
      ∃ second, (first.toDraft.overlaid file).check = .ok second ∧
        (second.toDraft.overlaid (commandLayer program a)).check = .ok c := by
  simp only [resolve_eq, bind_eq_ok_iff, withEnvironment_eq_ok_iff,
    withOverrides_eq (overrides_given program a)]
  constructor
  · rintro ⟨first, ⟨reads, made⟩, second, merged, last⟩
    obtain ⟨file, tells, merged⟩ := (overFile_eq_ok_iff (Draft.valid_of_check made)).mp merged
    exact ⟨reads, first, made, file, tells, second, merged, last⟩
  · rintro ⟨reads, first, made, file, tells, second, merged, last⟩
    exact ⟨first, ⟨reads, made⟩, second,
      (overFile_eq_ok_iff (Draft.valid_of_check made)).mpr ⟨file, tells, merged⟩, last⟩

theorem resolve_fails (program : String) (a : Arguments) (environment : Environment)
    (files : FileTree) :
    FailsOnly ConfigError.OfValueOrFile (resolve program a environment files) := by
  rw [resolve_eq]
  refine .bind ((withEnvironment_fails _ _).mono ConfigError.OfValue.orFile) fun first _ => ?_
  refine .bind (overFile_fails first files a.config) fun second _ => ?_
  rw [withOverrides_eq (overrides_given program a)]
  exact (Draft.check_fails _).mono ConfigError.OfValue.orFile

/-- **Settings come in layers.** A launch has settings exactly if the environment and the file say
layers of settings, and each layer over those before it leaves acceptable values. Each setting then
has the value that is said first, in the order command line, file, environment, usual settings.
Otherwise the launch is refused for a value or for a file. -/
theorem settings_come_in_layers (program : String) (a : Arguments) (environment : Environment)
    (files : FileTree) :
    ((∃ c, resolve program a environment files = .ok c) ↔
      ∃ env file, EnvironmentSays environment env ∧ FileSays files a.config file ∧
        (standard.toDraft.overlaid env).Acceptable ∧
        ((standard.toDraft.overlaid env).overlaid file).Acceptable ∧
        (((standard.toDraft.overlaid env).overlaid file).overlaid
          (commandLayer program a)).Acceptable) ∧
    (∀ c, resolve program a environment files = .ok c →
      ∃ env file, EnvironmentSays environment env ∧ FileSays files a.config file ∧
        ∀ s, c.toDraft.get s =
          ((commandLayer program a s).or ((file s).or (env s))).getD (standard.toDraft.get s)) ∧
    ∀ e, resolve program a environment files = .error e → e.family = .value ∨ e.family = .file := by
  refine ⟨?_, fun c made => ?_, resolve_fails program a environment files⟩
  · simp only [resolve_eq_ok_iff]
    constructor
    · rintro ⟨c, reads, first, env, file, tells, second, merged, last⟩
      have firstValues := Draft.toDraft_of_check env
      have secondValues := Draft.toDraft_of_check merged
      rw [secondValues] at last
      rw [firstValues] at merged last
      exact ⟨_, file, environmentSays_layer reads, tells, Draft.acceptable_of_check env,
        Draft.acceptable_of_check merged, Draft.acceptable_of_check last⟩
    · rintro ⟨layer, file, told, tells, env, merged, last⟩
      have read := told.eq_layer env
      rw [read] at env merged last
      obtain ⟨first, env⟩ := Draft.exists_check_iff.mpr env
      obtain ⟨second, merged⟩ := Draft.exists_check_iff.mpr merged
      obtain ⟨c, last⟩ := Draft.exists_check_iff.mpr last
      refine ⟨c, told.reads, first, env, file, tells, second, ?_, ?_⟩
      · rwa [Draft.toDraft_of_check env]
      · rwa [Draft.toDraft_of_check merged]
  · obtain ⟨reads, first, env, file, tells, second, merged, last⟩ := resolve_eq_ok_iff.mp made
    refine ⟨_, file, environmentSays_layer reads, tells, fun s => ?_⟩
    rw [Draft.toDraft_of_check last, Draft.get_overlaid, Draft.toDraft_of_check merged,
      Draft.get_overlaid, Draft.toDraft_of_check env, Draft.get_overlaid]
    cases commandLayer program a s <;> cases file s <;> rfl

/-- A word for no turns tracing off, a name in mixed letters names a backend, and an empty text says
nothing of the backend or the frequency. A frequency on the command line is heard before the one in
the environment, but it does not save the launch from a frequency there that is none. -/
theorem settings_come_in_layers_overruled :
    let a : Arguments := { Arguments.empty with hertz := some (.ofInt 300) }
    let spoken : Environment :=
      [("CHIP8VM_DEBUG", " Off "), ("CHIP8VM_BACKEND", " HeadLess "), ("CHIP8VM_HERTZ", "100")]
    let silent : Environment :=
      [("CHIP8VM_DEBUG", "1"), ("CHIP8VM_BACKEND", ""), ("CHIP8VM_HERTZ", "")]
    (∃ c, resolve "game.ch8" .empty spoken .empty = .ok c ∧ c.toDraft.get .debug = .bool false ∧
      c.toDraft.get .backend = .text "headless" ∧ c.toDraft.get .hertz = .real (.ofInt 100)) ∧
    (∃ c, resolve "game.ch8" .empty silent .empty = .ok c ∧ c.toDraft.get .debug = .bool true ∧
      c.toDraft.get .backend = .text "pygame" ∧
      c.toDraft.get .hertz = standard.toDraft.get .hertz) ∧
    (∃ c, resolve "game.ch8" a spoken .empty = .ok c ∧
      c.toDraft.get .hertz = .real (.ofInt 300)) ∧
    ¬∃ c, resolve "game.ch8" a [("CHIP8VM_HERTZ", "0")] .empty = .ok c := by
  intro a spoken silent
  refine ⟨?_, ?_, ?_, ?_⟩
  · obtain ⟨-, values, -⟩ := settings_come_in_layers "game.ch8" .empty spoken .empty
    have accepted : (resolve "game.ch8" .empty spoken .empty).toBool = true := by decide +kernel
    obtain ⟨c, made⟩ := exists_of_toBool accepted
    obtain ⟨env, file, told, tells, heard⟩ := values c made
    cases tells
    have debug : env .debug = some (.bool false) := by
      have off : isOn (some " Off ") false = false := by decide +kernel
      exact (debugSaid_iff.mp told.debug).trans (congrArg (some <| Datum.bool ·) off)
    have backend : env .backend = some (.text "headless") := by
      have read : Text.lowerCase (String.ofList (Text.trimBoth Text.isBlank " HeadLess ".toList)) =
          Backend.headless.name := by decide +kernel
      have named : BackendSaid (some " HeadLess ") (env .backend) := told.backend
      generalize text : " HeadLess " = said at named read
      generalize env .backend = value at named
      cases named with
      | empty => exact absurd text (by decide)
      | named given stripped spelled =>
        rw [← Text.stripped_iff.mp stripped, lowerCase_eq_name_iff, ← spelled] at read
        exact congrArg (some <| Datum.text ·) read
    have hertz : env .hertz = some (.real (.ofInt 100)) := by
      have number : Binary64.readFloat? "100".toList = some (.ofInt 100) := by decide +kernel
      exact (hertzSaid_iff.mp told.hertz).2.trans (congrArg (Option.map Datum.real) number)
    refine ⟨c, made, ?_, ?_, ?_⟩
    · rw [heard, debug]
      rfl
    · rw [heard, backend]
      rfl
    · rw [heard, hertz]
      rfl
  · obtain ⟨-, values, -⟩ := settings_come_in_layers "game.ch8" .empty silent .empty
    have accepted : (resolve "game.ch8" .empty silent .empty).toBool = true := by decide +kernel
    obtain ⟨c, made⟩ := exists_of_toBool accepted
    obtain ⟨env, file, told, tells, heard⟩ := values c made
    cases tells
    have debug : env .debug = some (.bool true) := by
      have on : isOn (some "1") false = true := by decide +kernel
      exact (debugSaid_iff.mp told.debug).trans (congrArg (some <| Datum.bool ·) on)
    have backend : env .backend = none := by
      have named : BackendSaid (some "") (env .backend) := told.backend
      generalize env .backend = value at named
      cases named with
      | empty => rfl
      | named given => exact absurd rfl given
    have hertz : env .hertz = none := (hertzSaid_iff.mp told.hertz).2
    refine ⟨c, made, ?_, ?_, ?_⟩
    · rw [heard, debug]
      rfl
    · rw [heard, backend]
      rfl
    · rw [heard, hertz]
      rfl
  · obtain ⟨-, values, -⟩ := settings_come_in_layers "game.ch8" a spoken .empty
    have accepted : (resolve "game.ch8" a spoken .empty).toBool = true := by decide +kernel
    obtain ⟨c, made⟩ := exists_of_toBool accepted
    obtain ⟨env, file, -, -, heard⟩ := values c made
    exact ⟨c, made, heard .hertz⟩
  · obtain ⟨layers, -, -⟩ := settings_come_in_layers "game.ch8" a [("CHIP8VM_HERTZ", "0")] .empty
    rw [layers]
    rintro ⟨env, file, told, -, accepted, -, -⟩
    have zero : env .hertz = some (.real (.zero false)) := by
      have number : Binary64.readFloat? "0".toList = some (.zero false) := by decide +kernel
      exact (hertzSaid_iff.mp told.hertz).2.trans (congrArg (Option.map Datum.real) number)
    obtain ⟨x, value, -, positive, -⟩ := accepted.hertz
    have said : Datum.ofNumber x = .real (.zero false) := by
      rw [← value]
      exact congrArg (Option.getD · standard.toDraft.hertz) zero
    cases x with
    | int n => cases said
    | real x =>
      cases said
      exact absurd positive (by norm_num [Number.value, Binary64.value, Binary64.zero])

/-- Each place says something, and the first one that says something of a setting is heard. -/
example :
    (resolve "game.ch8"
      { Arguments.empty with
        hertz := some (.ofInt 300), stackLimit := some 4, config := some "vm.json" }
      [("CHIP8VM_HERTZ", "100"), ("CHIP8VM_BACKEND", " Headless ")]
      { entries := [(["vm.json"],
        .file (Text.encodeUtf8 "\x7b\"hertz\": 200, \"window_width\": 320\x7d"))] }).toOption =
    some { standard with
      rom := some "game.ch8", backend := .headless, hertz := .real (.ofInt 300),
      windowWidth := 320, stackLimit := some 4 } := by
  decide +kernel

end CommandLine

end ChipEight
