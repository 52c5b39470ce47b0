import ChipEight.Proofs.Config.Acceptance
import ChipEight.Proofs.Config.Words
import ChipEight.Proofs.Json.Reading

/-!
# What the environment and files say of settings

The environment and a file of settings are layers over the settings before them. The environment
says whether tracing is on by any text of a variable, and names a backend and a frequency by a text
that is not empty (`Config.EnvironmentSays`). A file says something of a setting by a field of its
name, be it the empty value (`Config.FileSays`).

What a variable says is told by the characters of its text. The layer that is read from the
environment (`Config.environmentLayer`) is the only one that the environment says and that leaves
acceptable values behind (`Config.EnvironmentSays.eq_layer`).
-/

namespace ChipEight

/-- What is refused for a value or for a file. -/
def ConfigError.OfValueOrFile (e : ConfigError) : Prop := e.family = .value ∨ e.family = .file

theorem ConfigError.OfValue.orFile (e : ConfigError) (ofValue : e.OfValue) : e.OfValueOrFile :=
  .inl ofValue

namespace Config

variable {environment : Environment} {fields : List (String × Datum)} {c c' : Config}
  {files : FileTree} {path : String} {layer : Layer}

/-- Replacing settings lays what the fields say over them. -/
theorem replace_eq (c : Config) (fields : List (String × Datum)) :
    c.replace fields = (c.toDraft.overlaid (.ofFields fields)).check := by
  rw [replace, Draft.setAll_eq_overlaid]

theorem replace_fields (c : Config) (layer : Layer) :
    c.replace layer.fields = (c.toDraft.overlaid layer).check := by
  rw [replace_eq, Layer.ofFields_fields]

/-- What the check answers is fixed by the values. -/
theorem eq_of_check {d : Draft} (first : d.check = .ok c) (second : d.check = .ok c') : c = c' :=
  Except.ok.inj (first.symm.trans second)

/-! ## The environment -/

/-- The settings that are read from the environment, as a layer. -/
def environmentLayer (environment : Environment) : Layer
  | .debug => (getField? environment debugVariable).map fun text => .bool (isOn (some text) false)
  | .backend => (nonEmpty environment backendVariable).map fun text =>
    .text (Text.lowerCase (String.ofList (Text.trimBoth Text.isBlank text.toList)))
  | .hertz => (nonEmpty environment ConfigError.hertzVariable).bind fun text =>
    (Binary64.readFloat? text.toList).map .real
  | _ => none

/-- The frequency in the environment, if there is any, is a number. -/
def HertzReads (environment : Environment) : Prop :=
  ∀ text ∈ nonEmpty environment ConfigError.hertzVariable,
    ∃ x, Binary64.readFloat? text.toList = some x

/-- What the variable for tracing says: no by a word that means no, and yes by any other text, blank
space around it left out of account. -/
inductive DebugSaid : Option String → Option Datum → Prop
  | unsaid : DebugSaid none none
  | on {text : String} {core : List Char} (stripped : Text.Stripped text.toList core)
    (yes : ¬Text.MeansNo core) : DebugSaid (some text) (some (.bool true))
  | off {text : String} {core : List Char} (stripped : Text.Stripped text.toList core)
    (no : Text.MeansNo core) : DebugSaid (some text) (some (.bool false))

/-- What the variable for the backend says: the name that its text spells in capitals or small
letters, blank space around it left out of account. -/
inductive BackendSaid : Option String → Option Datum → Prop
  | unsaid : BackendSaid none none
  | empty : BackendSaid (some "") none
  | named {text name : String} {core : List Char} (given : text ≠ "")
    (stripped : Text.Stripped text.toList core)
    (spelled : ∀ b : Backend, name = b.name ↔ Text.InEitherCase core b.name.toList) :
    BackendSaid (some text) (some (.text name))

/-- What the variable for the frequency says: the number that its text is read as. -/
inductive HertzSaid : Option String → Option Datum → Prop
  | unsaid : HertzSaid none none
  | empty : HertzSaid (some "") none
  | number {text : String} {x : Binary64} (given : text ≠ "")
    (reads : Binary64.readFloat? text.toList = some x) : HertzSaid (some text) (some (.real x))

/-- **What the environment says of the settings.** It says no layer at all if it has a frequency that
is not a number. -/
structure EnvironmentSays (environment : Environment) (layer : Layer) : Prop where
  debug : DebugSaid (getField? environment "CHIP8VM_DEBUG") (layer .debug)
  backend : BackendSaid (getField? environment "CHIP8VM_BACKEND") (layer .backend)
  hertz : HertzSaid (getField? environment "CHIP8VM_HERTZ") (layer .hertz)
  silent : ∀ s, s ≠ .debug → s ≠ .backend → s ≠ .hertz → layer s = none

/-- A text is on exactly if it means no no. -/
theorem isOn_iff {text : String} {core : List Char} (stripped : Text.Stripped text.toList core) :
    isOn (some text) false = true ↔ ¬Text.MeansNo core := by
  rw [← Text.foldCase_iff, Text.stripped_iff.mp stripped, isOn, Bool.not_eq_true',
    ← Bool.not_eq_true, List.contains_iff_mem]

/-- What is said of tracing is what is read. -/
theorem debugSaid_iff {said : Option String} {value : Option Datum} :
    DebugSaid said value ↔ value = said.map fun text => .bool (isOn (some text) false) := by
  constructor
  · rintro (_ | ⟨stripped, yes⟩ | ⟨stripped, no⟩)
    · rfl
    · rw [Option.map_some, (isOn_iff stripped).mpr yes]
    · have off := mt (isOn_iff stripped).mp (not_not.mpr no)
      rw [Option.map_some, Bool.eq_false_iff.mpr off]
  · rintro rfl
    cases said with
    | none => exact .unsaid
    | some text =>
      have stripped := Text.stripped_iff.mpr (Eq.refl (Text.trimBoth Text.isBlank text.toList))
      rw [Option.map_some]
      cases read : isOn (some text) false with
      | true => exact .on stripped ((isOn_iff stripped).mp read)
      | false =>
        exact .off stripped (not_not.mp (mt (isOn_iff stripped).mpr (Bool.eq_false_iff.mp read)))

/-- The text of a variable, unless it is empty. -/
def unlessEmpty (said : Option String) : Option String := said.filter fun text => !text.isEmpty

theorem unlessEmpty_some {text : String} (given : text ≠ "") :
    unlessEmpty (some text) = some text :=
  Option.filter_some_pos (by simpa using given)

/-- A text spells the name of a backend exactly if its lower case is that name. -/
theorem lowerCase_eq_name_iff (core : List Char) (b : Backend) :
    Text.lowerCase (String.ofList core) = b.name ↔ Text.InEitherCase core b.name.toList := by
  have steady : b.name.toList.all (Text.IsSteady ·) = true := by
    cases b <;> decide
  have letters : ∀ x ∈ b.name.toList, Text.IsSteady x := fun x among =>
    of_decide_eq_true (List.all_eq_true.mp steady x among)
  rw [← Text.lowerCase_iff letters, String.ofList_toList]

/-- The name that a text is read as. -/
def backendRead (text : String) : Datum :=
  .text (Text.lowerCase (String.ofList (Text.trimBoth Text.isBlank text.toList)))

theorem backendSaid_read (said : Option String) :
    BackendSaid said ((unlessEmpty said).map backendRead) := by
  cases said with
  | none => exact .unsaid
  | some text =>
    by_cases given : text = ""
    · subst given
      exact .empty
    · rw [unlessEmpty_some given]
      exact .named given (Text.stripped_iff.mpr rfl) (lowerCase_eq_name_iff _)

/-- What is said of the backend is what is read, if it is the name of a backend. -/
theorem BackendSaid.eq_read {said : Option String} {value : Option Datum}
    (told : BackendSaid said value) (named : ∀ v ∈ value, ∃ b : Backend, v = .text b.name) :
    value = (unlessEmpty said).map backendRead := by
  cases told with
  | unsaid | empty => rfl
  | named given stripped spelled =>
    obtain ⟨b, same⟩ := named _ rfl
    cases same
    rw [unlessEmpty_some given, Option.map_some, backendRead, ← Text.stripped_iff.mp stripped,
      (lowerCase_eq_name_iff _ b).mpr ((spelled b).mp rfl)]

/-- What is said of the frequency is what is read, and the frequency has to be a number. -/
theorem hertzSaid_iff {said : Option String} {value : Option Datum} : HertzSaid said value ↔
    (∀ text ∈ unlessEmpty said, ∃ x, Binary64.readFloat? text.toList = some x) ∧
      value = (unlessEmpty said).bind fun text =>
        (Binary64.readFloat? text.toList).map .real := by
  constructor
  · rintro (_ | _ | ⟨given, reads⟩)
    · exact ⟨nofun, rfl⟩
    · exact ⟨nofun, rfl⟩
    · rw [unlessEmpty_some given, Option.bind_some, reads]
      exact ⟨by rintro _ ⟨⟩; exact ⟨_, reads⟩, rfl⟩
  · rintro ⟨numbers, rfl⟩
    cases said with
    | none => exact .unsaid
    | some text =>
      by_cases given : text = ""
      · subst given
        exact .empty
      · rw [unlessEmpty_some given] at numbers ⊢
        obtain ⟨x, reads⟩ := numbers text rfl
        rw [Option.bind_some, reads]
        exact .number given reads

/-- The layer that is read from the environment is one that the environment told. -/
theorem environmentSays_layer (reads : HertzReads environment) :
    EnvironmentSays environment (environmentLayer environment) where
  debug := debugSaid_iff.mpr rfl
  backend := backendSaid_read _
  hertz := hertzSaid_iff.mpr ⟨reads, rfl⟩
  silent s := by cases s <;> simp [environmentLayer]

theorem EnvironmentSays.reads (told : EnvironmentSays environment layer) :
    HertzReads environment :=
  (hertzSaid_iff.mp told.hertz).1

/-- **The environment says one acceptable layer**, the one that is read. -/
theorem EnvironmentSays.eq_layer {d : Draft} (told : EnvironmentSays environment layer)
    (accepted : (d.overlaid layer).Acceptable) : layer = environmentLayer environment := by
  have named : ∀ v ∈ layer .backend, ∃ b : Backend, v = .text b.name := by
    intro v said
    have value : (d.overlaid layer).get .backend = v := by
      rw [Draft.get_overlaid, Option.mem_def.mp said]
      rfl
    rcases accepted.backend with window | headless
    · exact ⟨.window, value.symm.trans window⟩
    · exact ⟨.headless, value.symm.trans headless⟩
  have backend := told.backend.eq_read named
  funext s
  cases s with
  | debug => exact debugSaid_iff.mp told.debug
  | backend => exact backend
  | hertz => exact (hertzSaid_iff.mp told.hertz).2
  | _ => exact told.silent _ nofun nofun nofun

/-- The fields of the environment come in the order of the settings. -/
theorem fields_environmentLayer (environment : Environment) :
    (environmentLayer environment).fields =
      ((environmentLayer environment .debug).map fun value => ("debug", value)).toList ++
      ((environmentLayer environment .backend).map fun value => ("backend", value)).toList ++
      ((environmentLayer environment .hertz).map fun value => ("hertz", value)).toList := by
  have silent : ∀ s, s ≠ .debug → s ≠ .backend → s ≠ .hertz →
      environmentLayer environment s = none := by
    intro s
    cases s <;> simp [environmentLayer]
  generalize environmentLayer environment = layer at silent ⊢
  simp only [Layer.fields, Setting.all, List.filterMap_cons, List.filterMap_nil, Option.map_none,
    silent .rom, silent .windowWidth, silent .windowHeight, silent .stackLimit, silent .timerHertz,
    silent .maxCatchup, ne_eq, reduceCtorEq, not_false_eq_true]
  cases layer .debug <;> cases layer .backend <;> cases layer .hertz <;> rfl

/-- The settings that the environment names are those of its layer. -/
theorem environmentFields_eq_ok_iff : environmentFields environment = .ok fields ↔
    HertzReads environment ∧ fields = (environmentLayer environment).fields := by
  rw [fields_environmentLayer]
  unfold environmentFields HertzReads environmentLayer
  rw [Option.map_map, Option.map_map]
  cases nonEmpty environment ConfigError.hertzVariable with
  | none => simp [bind, Except.bind, pure, Except.pure, Function.comp_def, eq_comm]
  | some text =>
    cases number : Binary64.readFloat? text.toList with
    | none => simp [number, bind, Except.bind, throw, throwThe, MonadExceptOf.throw]
    | some x => simp [number, bind, Except.bind, pure, Except.pure, Function.comp_def, eq_comm]

theorem withEnvironment_eq_ok_iff : c.withEnvironment environment = .ok c' ↔
    HertzReads environment ∧
      (c.toDraft.overlaid (environmentLayer environment)).check = .ok c' := by
  simp only [withEnvironment, bind_eq_ok_iff, environmentFields_eq_ok_iff]
  constructor
  · rintro ⟨_, ⟨reads, rfl⟩, made⟩
    exact ⟨reads, by rwa [replace_fields] at made⟩
  · rintro ⟨reads, made⟩
    exact ⟨_, ⟨reads, rfl⟩, by rwa [replace_fields]⟩

theorem withEnvironment_fails (c : Config) (environment : Environment) :
    FailsOnly ConfigError.OfValue (c.withEnvironment environment) := by
  refine .bind ?_ fun fields _ => Draft.check_fails _
  unfold environmentFields
  dsimp only
  cases nonEmpty environment ConfigError.hertzVariable with
  | none => exact .ok _
  | some text =>
    dsimp only
    cases Binary64.readFloat? text.toList with
    | none => exact .error rfl
    | some x => exact .ok _

/-! ## A file -/

/-- A file holds a record: its bytes are a text, and the text is that of a record. -/
def HoldsRecord (files : FileTree) (path : String) (fields : List (String × Datum)) : Prop :=
  ∃ bytes text, files.read path = .ok bytes ∧ Text.decodeUtf8 0 bytes = .ok text ∧
    Json.read (Text.unifyLineEnds text) = .ok (.record fields)

/-- **A file holds a record of settings**: all names in the record are names of settings. -/
structure HoldsSettings (files : FileTree) (path : String) (fields : List (String × Datum)) :
    Prop where
  holds : HoldsRecord files path fields
  known : ∀ field ∈ fields, isName field.1 = true

theorem fileFields_eq_ok_iff :
    fileFields files path = .ok fields ↔ HoldsRecord files path fields := by
  simp only [fileFields, bind_eq_ok_iff, mapError_eq_ok_iff]
  constructor
  · rintro ⟨bytes, read, text, decoded, value, parsed, made⟩
    cases value with
    | record _ =>
      cases made
      exact ⟨bytes, text, read, decoded, parsed⟩
    | _ => cases made
  · rintro ⟨bytes, text, read, decoded, parsed⟩
    exact ⟨bytes, read, text, decoded, _, parsed, rfl⟩

theorem fileFields_fails (files : FileTree) (path : String) :
    FailsOnly ConfigError.OfValueOrFile (fileFields files path) := by
  refine .bind (.mapError (fun _ => .inr rfl) _) fun bytes _ => ?_
  refine .bind (.mapError (fun _ => .inl rfl) _) fun text _ => ?_
  refine .bind (.mapError (fun _ => .inl rfl) _) fun value _ => ?_
  cases value with
  | record fields => exact .ok _
  | _ => exact .error (.inl rfl)

theorem checkKeys_eq_ok_iff :
    checkKeys fields = .ok () ↔ ∀ field ∈ fields, isName field.1 = true := by
  have known : ((fields.map Prod.fst).filter fun name => !isName name).isEmpty = true ↔
      ∀ field ∈ fields, isName field.1 = true := by
    simp [List.filter_eq_nil_iff]
  unfold checkKeys
  dsimp only
  rw [← known]
  split
  case isTrue none => exact iff_of_true rfl none
  case isFalse some => exact iff_of_false nofun some

theorem checkKeys_fails (fields : List (String × Datum)) :
    FailsOnly ConfigError.OfValue (checkKeys fields) := by
  unfold checkKeys
  dsimp only
  split
  · exact .ok _
  · exact .error rfl

/-- A file is laid over settings. -/
theorem mergeFile_eq_ok_iff : c.mergeFile files path = .ok c' ↔
    ∃ fields, HoldsSettings files path fields ∧
      (c.toDraft.overlaid (.ofFields fields)).check = .ok c' := by
  simp only [mergeFile, bind_eq_ok_iff, replace_eq]
  constructor
  · rintro ⟨fields, held, ⟨⟩, known, made⟩
    exact ⟨fields, ⟨fileFields_eq_ok_iff.mp held, checkKeys_eq_ok_iff.mp known⟩, made⟩
  · rintro ⟨fields, ⟨held, known⟩, made⟩
    exact ⟨fields, fileFields_eq_ok_iff.mpr held, (), checkKeys_eq_ok_iff.mpr known, made⟩

/-- The names in a record that a file holds are different. -/
theorem HoldsRecord.distinct (holds : HoldsRecord files path fields) :
    (fields.map Prod.fst).Nodup := by
  obtain ⟨_, _, -, -, parsed⟩ := holds
  exact Json.distinct_of_read parsed

theorem HoldsSettings.distinct (holds : HoldsSettings files path fields) :
    (fields.map Prod.fst).Nodup :=
  holds.holds.distinct

/-- Completing a record by the standard settings is replacing these by it. Names that are none of
settings are refused in both. -/
theorem ofRecord_eq (distinct : (fields.map Prod.fst).Nodup) :
    ofRecord fields = (do checkKeys fields; standard.replace fields) := by
  refine bind_congr_of_ok fun _ known => ?_
  rw [ofArguments, Setting.find?_unknown (checkKeys_eq_ok_iff.mp known), replace_eq,
    ← completed_eq distinct]

/-- **A file that is loaded is laid over the standard settings**, also when it is refused. -/
theorem load_eq_mergeFile (files : FileTree) (path : String) :
    load files path = standard.mergeFile files path :=
  bind_congr_of_ok fun _ held => ofRecord_eq (fileFields_eq_ok_iff.mp held).distinct

theorem load_eq_ok_iff : load files path = .ok c ↔
    ∃ fields, HoldsSettings files path fields ∧
      (standard.toDraft.overlaid (.ofFields fields)).check = .ok c := by
  rw [load_eq_mergeFile]
  exact mergeFile_eq_ok_iff

theorem mergeFile_fails (c : Config) (files : FileTree) (path : String) :
    FailsOnly ConfigError.OfValueOrFile (c.mergeFile files path) := by
  refine .bind (fileFields_fails files path) fun fields _ => ?_
  refine .bind ((checkKeys_fails fields).mono ConfigError.OfValue.orFile) fun _ _ => ?_
  exact (Draft.check_fails _).mono ConfigError.OfValue.orFile

/-- **What a file of settings says**: of a setting that it has a field for, the value of the field.
If no file is named, or it is named by the empty text, nothing is said. -/
inductive FileSays (files : FileTree) : Option String → Layer → Prop
  | unnamed : FileSays files none .nothing
  | emptyName : FileSays files (some "") .nothing
  | record {path : String} {fields : List (String × Datum)} {layer : Layer} (named : path ≠ "")
    (holds : HoldsSettings files path fields) (agrees : ∀ s, layer s = getField? fields s.name) :
    FileSays files (some path) layer

/-- The settings under the file, if there is one. -/
def overFile (c : Config) (files : FileTree) (file : Option String) : Except ConfigError Config :=
  match file.filter fun path => !path.isEmpty with
  | none => .ok c
  | some path => c.mergeFile files path

theorem overFile_eq_ok_iff {file : Option String} (valid : c.Valid) :
    c.overFile files file = .ok c' ↔
      ∃ layer, FileSays files file layer ∧ (c.toDraft.overlaid layer).check = .ok c' := by
  have unchanged : c.toDraft.check = .ok c := Draft.check_eq_ok_iff.mpr ⟨rfl, valid⟩
  cases file with
  | none =>
    constructor
    · rintro ⟨⟩
      exact ⟨.nothing, .unnamed, unchanged⟩
    · rintro ⟨_, ⟨⟩, made⟩
      exact congrArg _ (eq_of_check unchanged made)
  | some path =>
    by_cases empty : path = ""
    · subst empty
      constructor
      · rintro ⟨⟩
        exact ⟨.nothing, .emptyName, unchanged⟩
      · rintro ⟨_, _ | _ | ⟨named, -, -⟩, made⟩
        · exact congrArg _ (eq_of_check unchanged made)
        · exact absurd rfl named
    · rw [overFile, Option.filter_some_pos (by simpa using empty)]
      dsimp only
      rw [mergeFile_eq_ok_iff]
      constructor
      · rintro ⟨fields, holds, made⟩
        exact ⟨_, .record empty holds fun s => lastField?_eq_getField? holds.distinct s.name, made⟩
      · rintro ⟨layer, _ | _ | ⟨-, holds, agrees⟩, made⟩
        · exact absurd rfl empty
        · refine ⟨_, holds, ?_⟩
          have same : layer = .ofFields _ := funext fun s =>
            (agrees s).trans (lastField?_eq_getField? holds.distinct s.name).symm
          rwa [← same]

theorem overFile_fails (c : Config) (files : FileTree) (file : Option String) :
    FailsOnly ConfigError.OfValueOrFile (c.overFile files file) := by
  unfold overFile
  split
  · exact .ok _
  · exact mergeFile_fails c files _

/-! ## Values that are given -/

/-- Values that are given are laid over settings; the empty ones are passed over. -/
theorem withOverrides_eq (given : (fields.filter fun field => !isNull field.2) = layer.fields) :
    c.withOverrides fields = (c.toDraft.overlaid layer).check := by
  have known : (layer.fields.find? fun field => !isName field.1) = none :=
    Setting.find?_unknown fun _ => Layer.isName_of_mem_fields
  rw [withOverrides, given, known]
  exact replace_fields c layer

end Config

end ChipEight
