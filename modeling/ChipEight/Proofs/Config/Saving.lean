import ChipEight.Proofs.Config.Sources
import ChipEight.Proofs.Host.Files
import ChipEight.Proofs.Json.Plainness
import Mathlib.Data.List.TakeWhile

/-!
# Settings that were saved return

Settings are saved as a record with all nine settings. Its text is plain and is read as the same
record, so the file gives back the settings, alone and over any other settings, and saving them
again changes nothing (`saved_settings_return`). An integer frequency returns as an integer and a
binary one as a binary one; a setting that is empty returns as empty.

Settings are saved if the file can be written and no setting is an integer of more digits than are
read (`save_eq_ok_iff`).
-/

namespace ChipEight

/-- A binary number is a number of the format. -/
def Number.Canonical : Number → Prop
  | .int _ => True
  | .real x => x.Canonical

namespace Config

variable {c : Config} {path : String} {files files' : FileTree}

/-- No setting is an integer of too many digits. -/
def IsShort (c : Config) : Prop := ∀ field ∈ c.fields, Json.isLong field.2 = false

/-! ## Saving -/

theorem writeText_eq_ok_iff {text : String} : writeText path text files = .ok () files' ↔
    files.write path (.file (Text.encodeUtf8 text)) = .ok files' := by
  unfold writeText
  cases files.write path (.file (Text.encodeUtf8 text)) with
  | error e => exact iff_of_false nofun nofun
  | ok t => simp

/-- **When settings are saved**, and what is left then. -/
theorem save_eq_ok_iff : c.save path files = .ok () files' ↔
    c.IsShort ∧ files.write path (.file (Text.encodeUtf8 c.saveText)) = .ok files' := by
  have short : c.IsShort ↔ (c.fields.dropWhile fun field => !Json.isLong field.2) = [] := by
    simp [IsShort, List.dropWhile_eq_nil_iff]
  rw [short, ← writeText_eq_ok_iff]
  unfold save
  rw [List.span_eq_takeWhile_dropWhile]
  cases c.fields.dropWhile fun field => !Json.isLong field.2 with
  | nil => exact (and_iff_right rfl).symm
  | cons field rest =>
    -- The text before the first such integer is written, and then the saving fails.
    refine iff_of_false ?_ fun saved => List.cons_ne_nil _ _ saved.1
    dsimp only [bind, EStateM.bind]
    cases writeText path (Json.writeOpen (c.fields.takeWhile _) field.1) files <;> nofun

/-! ## What was saved is read -/

theorem mem_fields {d : Draft} {field : String × Datum} (among : field ∈ d.fields) :
    ∃ s : Setting, field = (s.name, d.get s) := by
  obtain ⟨s, -, same⟩ := List.mem_filterMap.mp among
  exact ⟨s, (Option.some.inj same).symm⟩

/-- Settings can be written as a record, unless an integer is too long. -/
theorem writable_fields (canonical : c.hertz.Canonical) (short : c.IsShort) :
    (Datum.record c.fields).Writable := by
  refine .record c.toDraft.layer.nodup_fields fun field among => ?_
  have fits := short field among
  obtain ⟨s, rfl⟩ := mem_fields among
  obtain ⟨rom, _, _, hertz, _, _, stackLimit, _, _⟩ := c
  cases s with
  | rom =>
    cases rom with
    | none => exact .null
    | some path => exact .text path
  | debug => exact .bool _
  | backend => exact .text _
  | hertz =>
    cases hertz with
    | int n => exact .int fits
    | real x => exact .real canonical
  | stackLimit =>
    cases stackLimit with
    | none => exact .null
    | some limit => exact .int fits
  | windowWidth | windowHeight | timerHertz | maxCatchup => exact .int fits

/-- A file that settings were saved in holds them as a record. -/
theorem holdsSettings_of_save (canonical : c.hertz.Canonical)
    (saved : c.save path files = .ok () files') : HoldsSettings files' path c.fields := by
  obtain ⟨short, written⟩ := save_eq_ok_iff.mp saved
  obtain ⟨text, decoded, read⟩ := Json.read_decoded (writable_fields canonical short)
  exact {
    holds := ⟨_, text, FileTree.read_of_write written, decoded, read⟩
    known := fun _ (among : _ ∈ c.toDraft.layer.fields) => Layer.isName_of_mem_fields among }

/-- All settings in a file replace all settings before it. -/
theorem overlaid_fields (d : Draft) : d.overlaid (.ofFields c.fields) = c.toDraft := by
  rw [fields_eq, Draft.fields, Layer.ofFields_fields, Draft.overlaid_layer]

/-- **Settings that were saved return.** Settings are saved exactly if the file can be written and
no setting is an integer of more digits than are read. Then the file gives them back, alone and over
any other settings, and saving what it gives back changes nothing. -/
theorem saved_settings_return (valid : c.Valid) (canonical : c.hertz.Canonical) (path : String)
    (files : FileTree) :
    ((∃ files', c.save path files = .ok () files') ↔
      c.IsShort ∧
        ∃ files', files.write path (.file (Text.encodeUtf8 c.saveText)) = .ok files') ∧
    ∀ files', c.save path files = .ok () files' →
      load files' path = .ok c ∧ (∀ other : Config, other.mergeFile files' path = .ok c) ∧
      ∀ loaded, load files' path = .ok loaded → loaded.save path files' = .ok () files' := by
  refine ⟨by simp only [save_eq_ok_iff, exists_and_left], fun files' saved => ?_⟩
  have checked : c.toDraft.check = .ok c := Draft.check_eq_ok_iff.mpr ⟨rfl, valid⟩
  have holds := holdsSettings_of_save canonical saved
  have loads : load files' path = .ok c := by
    rw [load_eq_ok_iff]
    exact ⟨c.fields, holds, by rwa [overlaid_fields]⟩
  refine ⟨loads, fun other => ?_, fun loaded again => ?_⟩
  · exact mergeFile_eq_ok_iff.mpr ⟨c.fields, holds, by rwa [overlaid_fields]⟩
  · obtain rfl := Except.ok.inj (loads.symm.trans again)
    obtain ⟨short, written⟩ := save_eq_ok_iff.mp saved
    exact save_eq_ok_iff.mpr ⟨short, FileTree.write_write nofun written⟩

/-- A path with quotes, an accent and a character outside the first plane returns, and so do a
frequency of 53 bits and an empty limit of the stack. -/
theorem saved_settings_return_escaped :
    let c : Config := { standard with
      rom := some "roms/\"é\" 😀.ch8", hertz := .real (.finite false (2 ^ 52 + 1) (-43)),
      stackLimit := none }
    ∃ files', c.save "vm.json" .empty = .ok () files' ∧ load files' "vm.json" = .ok c ∧
      standard.mergeFile files' "vm.json" = .ok c := by
  intro c
  have canonical : c.hertz.Canonical := ⟨by decide, by decide, by decide, .inl (by decide)⟩
  have between : (Number.lt (.int 0) c.hertz && c.hertz.lt (.int Draft.hertzBound)) = true := by
    decide +kernel
  obtain ⟨finite, low, high⟩ := (Number.between_iff 0 Draft.hertzBound).mp between
  have valid : c.Valid := { standard_valid with
    finite := finite
    hertz := ⟨by exact_mod_cast low, high⟩
    stackLimit := nofun }
  have short : c.IsShort := by
    unfold IsShort
    decide +kernel
  obtain ⟨saves, returns⟩ := saved_settings_return valid canonical "vm.json" .empty
  have located : FileTree.empty.locate "vm.json" = .ok ["vm.json"] := by decide +kernel
  have free : FileTree.empty.node? ["vm.json"] ≠ some .directory := by decide +kernel
  obtain ⟨files', saved⟩ :=
    saves.mpr ⟨short, _, FileTree.write_eq_ok_iff.mpr ⟨["vm.json"], located, free, rfl, rfl⟩⟩
  obtain ⟨loads, merges, -⟩ := returns files' saved
  exact ⟨files', saved, loads, merges standard⟩

end Config

end ChipEight
