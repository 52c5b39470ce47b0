import ChipEight.Proofs.Config.Sources
import ChipEight.Proofs.Host.Files
import ChipEight.Proofs.Json.Plainness
import Mathlib.Data.String.Basic

/-!
# Files over settings

A file is laid over settings, or it is loaded, that is, laid over the usual settings. `FileGives`
tells what comes of it from what the file holds: settings in which each value is the one in the
file, or else the one before, or a refusal. A file may have many faults, and the first one in a
fixed order is reported: the file cannot be read, is no text, no JSON or no record, has fields that
are no settings, or leaves a value behind that is not acceptable.

Both ways to read a file give what `FileGives` says (`files_are_read_alike`).
-/

namespace ChipEight

namespace Config

variable {files : FileTree} {path : String} {fields : List (String × Datum)} {names : List String}
  {c c' : Config} {d filled : Draft}

/-- A file holds a text. -/
def HoldsText (files : FileTree) (path : String) (text : List Char) : Prop :=
  ∃ bytes, files.read path = .ok bytes ∧ Text.decodeUtf8 0 bytes = .ok text

/-- The names of fields that are no settings, in increasing order. -/
structure UnknownNames (fields : List (String × Datum)) (names : List String) : Prop where
  some : names ≠ []
  increasing : names.Pairwise (· < ·)
  unknown : ∀ name, name ∈ names ↔ name ∈ fields.map Prod.fst ∧ isName name = false

/-- The values of settings under a record: those of its fields, and otherwise those before. -/
def Fills (fields : List (String × Datum)) (d filled : Draft) : Prop :=
  ∀ s, filled.get s = (getField? fields s.name).getD (d.get s)

/-- **What comes of a file that is laid over values of settings.** -/
inductive FileGives (files : FileTree) (path : String) (d : Draft) :
    Except ConfigError Config → Prop
  | unreadable {cause : FileError} (unread : files.read path = .error cause) :
    FileGives files path d (.error (.unreadable cause))
  | notText {bytes : List UInt8} {cause : Text.Utf8Error} (read : files.read path = .ok bytes)
    (broken : Text.decodeUtf8 0 bytes = .error cause) :
    FileGives files path d (.error (.notText cause))
  | notJson {text : List Char} {cause : Json.SyntaxError} (holds : HoldsText files path text)
    (broken : Json.read (Text.unifyLineEnds text) = .error cause) :
    FileGives files path d (.error (.notJson cause))
  | notARecord {text : List Char} {value : Datum} (holds : HoldsText files path text)
    (parsed : Json.read (Text.unifyLineEnds text) = .ok value)
    (other : ∀ fields, value ≠ .record fields) :
    FileGives files path d (.error (.notARecord path))
  | unknownKeys {fields : List (String × Datum)} {names : List String}
    (holds : HoldsRecord files path fields) (unknown : UnknownNames fields names) :
    FileGives files path d (.error (.unknownKeys names))
  /-- The values are checked in the end, and the first complaint of the check is the refusal. -/
  | checked {fields : List (String × Datum)} {filled : Draft} {outcome : Except ConfigError Config}
    (holds : HoldsSettings files path fields) (fills : Fills fields d filled)
    (checks : filled.check = outcome) : FileGives files path d outcome

/-! ## The names of fields -/

/-- Names that are sorted stand in increasing order, if they are different. -/
theorem increasing_mergeSort (distinct : names.Nodup) :
    (names.mergeSort fun a b => !decide (b < a)).Pairwise (· < ·) := by
  have le (a b : String) : (!decide (b < a)) = true ↔ a ≤ b := by
    rw [Bool.not_eq_true', decide_eq_false_iff_not, not_lt]
  have sorted : (names.mergeSort fun a b => !decide (b < a)).Pairwise fun a b => !decide (b < a) :=
    List.pairwise_mergeSort
      (fun a b c first second => (le a c).mpr (((le a b).mp first).trans ((le b c).mp second)))
      (fun a b => by
        rw [Bool.or_eq_true, le, le]
        exact le_total a b) names
  have apart : (names.mergeSort fun a b => !decide (b < a)).Nodup :=
    (List.mergeSort_perm ..).nodup_iff.mpr distinct
  exact (sorted.and apart).imp fun ⟨less, other⟩ => lt_of_le_of_ne ((le _ _).mp less) other

/-- There is one way to put names in increasing order. -/
theorem eq_of_increasing {names' : List String} (increasing : names.Pairwise (· < ·))
    (increasing' : names'.Pairwise (· < ·)) (same : ∀ name, name ∈ names ↔ name ∈ names') :
    names = names' := by
  have distinct {l : List String} (increasing : l.Pairwise (· < ·)) : l.Nodup :=
    increasing.imp ne_of_lt
  exact ((List.perm_ext_iff_of_nodup (distinct increasing) (distinct increasing')).mpr
    fun name => same name).eq_of_pairwise
      (fun a b _ _ less more => absurd less more.not_gt) increasing increasing'

/-- **Fields of other names are refused**, and their names are reported in increasing order. -/
theorem checkKeys_eq_error_iff {e : ConfigError} (distinct : (fields.map Prod.fst).Nodup) :
    checkKeys fields = .error e ↔ ∃ names, UnknownNames fields names ∧ e = .unknownKeys names := by
  unfold checkKeys
  dsimp only
  generalize unnamed : ((fields.map Prod.fst).filter fun name => !isName name) = other
  have increasing : (other.mergeSort fun a b => !decide (b < a)).Pairwise (· < ·) :=
    increasing_mergeSort (unnamed ▸ distinct.filter _)
  have unknown (name : String) : name ∈ other.mergeSort (fun a b => !decide (b < a)) ↔
      name ∈ fields.map Prod.fst ∧ isName name = false := by
    rw [List.mem_mergeSort, ← unnamed, List.mem_filter, Bool.not_eq_true']
  have none : other.mergeSort (fun a b => !decide (b < a)) = [] ↔ other = [] := by
    rw [← List.length_eq_zero_iff, List.length_mergeSort, List.length_eq_zero_iff]
  split
  case isTrue empty =>
    refine iff_of_false nofun ?_
    rintro ⟨names, listed, -⟩
    refine listed.some (List.eq_nil_iff_forall_not_mem.mpr fun name among => ?_)
    have also := (unknown name).mpr ((listed.unknown name).mp among)
    rw [none.mpr (List.isEmpty_iff.mp empty)] at also
    cases also
  case isFalse some =>
    rw [Except.error.injEq]
    constructor
    · rintro rfl
      exact ⟨_, ⟨fun empty => some (List.isEmpty_iff.mpr (none.mp empty)), increasing, unknown⟩,
        rfl⟩
    · rintro ⟨names, listed, rfl⟩
      rw [eq_of_increasing increasing listed.increasing fun name =>
        (unknown name).trans (listed.unknown name).symm]

/-! ## What comes of a file -/

/-- Laying the fields of a record over values fills them in. -/
theorem fills_iff (distinct : (fields.map Prod.fst).Nodup) :
    Fills fields d filled ↔ d.overlaid (.ofFields fields) = filled := by
  have overlaid (s : Setting) : (d.overlaid (.ofFields fields)).get s =
      (getField? fields s.name).getD (d.get s) := by
    rw [Draft.get_overlaid, Layer.ofFields, lastField?_eq_getField? distinct]
  constructor
  · exact fun fills => Draft.ext_get fun s => (overlaid s).trans (fills s).symm
  · rintro rfl
    exact overlaid

/-- What is left to do for a file that holds a text. -/
theorem HoldsText.fileFields_eq {text : List Char} (holds : HoldsText files path text) :
    fileFields files path = (do
      match ← (Json.read (Text.unifyLineEnds text)).mapError .notJson with
      | .record fields => return fields
      | _ => throw (.notARecord path)) := by
  obtain ⟨bytes, read, decoded⟩ := holds
  have told : (Text.decodeUtf8 0 bytes).mapError ConfigError.notText = .ok text := by
    rw [decoded]
    rfl
  rw [fileFields, read]
  change (Text.decodeUtf8 0 bytes).mapError ConfigError.notText >>= _ = _
  rw [told]
  rfl

/-- **A file gives what the merge makes of it.** -/
theorem FileGives.eq {outcome : Except ConfigError Config}
    (gives : FileGives files path c.toDraft outcome) : c.mergeFile files path = outcome := by
  cases gives with
  | unreadable unread =>
    rw [mergeFile, fileFields, unread]
    rfl
  | notText read broken =>
    simp only [mergeFile, fileFields, read, Except.mapError, bind, Except.bind, broken]
  | notJson holds broken =>
    rw [mergeFile, holds.fileFields_eq, broken]
    rfl
  | @notARecord text value holds parsed other =>
    rw [mergeFile, holds.fileFields_eq, parsed]
    cases value with
    | record fields => exact absurd rfl (other fields)
    | _ => rfl
  | unknownKeys holds unknown =>
    rw [mergeFile, fileFields_eq_ok_iff.mpr holds]
    simp only [bind, Except.bind, (checkKeys_eq_error_iff holds.distinct).mpr ⟨_, unknown, rfl⟩]
  | checked holds fills checks =>
    rw [mergeFile, fileFields_eq_ok_iff.mpr holds.holds]
    simp only [bind, Except.bind, checkKeys_eq_ok_iff.mpr holds.known]
    rw [replace_eq, (fills_iff holds.distinct).mp fills, checks]

/-- A file that holds a text always gives something. -/
theorem HoldsText.exists_fileGives {text : List Char} (holds : HoldsText files path text)
    (d : Draft) : ∃ outcome, FileGives files path d outcome := by
  cases parsed : Json.read (Text.unifyLineEnds text) with
  | error cause => exact ⟨_, .notJson holds parsed⟩
  | ok value =>
    cases value with
    | record fields =>
      obtain ⟨bytes, read, decoded⟩ := holds
      have holds : HoldsRecord files path fields := ⟨bytes, text, read, decoded, parsed⟩
      cases keys : checkKeys fields with
      | error e =>
        obtain ⟨names, unknown, -⟩ := (checkKeys_eq_error_iff holds.distinct).mp keys
        exact ⟨_, .unknownKeys holds unknown⟩
      | ok _ =>
        exact ⟨_, .checked ⟨holds, checkKeys_eq_ok_iff.mp keys⟩
          ((fills_iff holds.distinct).mpr rfl) rfl⟩
    | _ => exact ⟨_, .notARecord holds parsed nofun⟩

/-- A file always gives something. -/
theorem exists_fileGives (files : FileTree) (path : String) (d : Draft) :
    ∃ outcome, FileGives files path d outcome := by
  cases read : files.read path with
  | error cause => exact ⟨_, .unreadable read⟩
  | ok bytes =>
    cases decoded : Text.decodeUtf8 0 bytes with
    | error cause => exact ⟨_, .notText read decoded⟩
    | ok text => exact HoldsText.exists_fileGives ⟨bytes, read, decoded⟩ d

theorem mergeFile_eq_iff {outcome : Except ConfigError Config} :
    c.mergeFile files path = outcome ↔ FileGives files path c.toDraft outcome := by
  constructor
  · rintro rfl
    obtain ⟨outcome, gives⟩ := exists_fileGives files path c.toDraft
    rwa [gives.eq]
  · exact FileGives.eq

/-- There are settings under a file exactly if it fills in acceptable values. -/
theorem exists_mergeFile_iff : (∃ c', c.mergeFile files path = .ok c') ↔
    ∃ fields filled, HoldsSettings files path fields ∧ Fills fields c.toDraft filled ∧
      filled.Acceptable := by
  simp only [mergeFile_eq_ok_iff]
  constructor
  · rintro ⟨c', fields, holds, checked⟩
    exact ⟨fields, _, holds, (fills_iff holds.distinct).mpr rfl, Draft.acceptable_of_check checked⟩
  · rintro ⟨fields, filled, holds, fills, acceptable⟩
    obtain ⟨c', checked⟩ := Draft.exists_check_iff.mpr acceptable
    exact ⟨c', fields, holds, by rwa [(fills_iff holds.distinct).mp fills]⟩

/-- The settings under a file are the ones that it fills in. -/
theorem fills_of_mergeFile (made : c.mergeFile files path = .ok c') :
    ∃ fields, HoldsSettings files path fields ∧ Fills fields c.toDraft c'.toDraft := by
  obtain ⟨fields, holds, checked⟩ := mergeFile_eq_ok_iff.mp made
  exact ⟨fields, holds, (fills_iff holds.distinct).mpr (Draft.toDraft_of_check checked).symm⟩

/-- Settings of which none is given are the standard ones. -/
theorem ofArguments_nil : ofArguments [] = .ok standard :=
  Draft.check_eq_ok_iff.mpr ⟨rfl, standard_valid⟩

/-- **Files are read alike**, whether they are loaded or laid over settings of which none was given:
the settings are the same, and so are the refusals. What comes of a file is told by what it holds,
the first fault being the one that is reported. Over any settings, there are settings exactly if the
file holds a record of settings that fills in acceptable values, and then these are the settings. -/
theorem files_are_read_alike (files : FileTree) (path : String) :
    (∃ usual, ofArguments [] = .ok usual ∧ load files path = usual.mergeFile files path) ∧
    (∀ outcome, load files path = outcome ↔ FileGives files path standard.toDraft outcome) ∧
    ∀ c : Config,
      (∀ outcome, c.mergeFile files path = outcome ↔ FileGives files path c.toDraft outcome) ∧
      ((∃ c', c.mergeFile files path = .ok c') ↔
        ∃ fields filled, HoldsSettings files path fields ∧ Fills fields c.toDraft filled ∧
          filled.Acceptable) ∧
      ∀ c', c.mergeFile files path = .ok c' →
        ∃ fields, HoldsSettings files path fields ∧ Fills fields c.toDraft c'.toDraft := by
  refine ⟨⟨standard, ofArguments_nil, load_eq_mergeFile files path⟩, fun outcome => ?_, fun c =>
    ⟨fun outcome => mergeFile_eq_iff, exists_mergeFile_iff, fun c' => fills_of_mergeFile⟩⟩
  rw [load_eq_mergeFile]
  exact mergeFile_eq_iff

/-- A file holds a debug flag of the wrong kind and two fields that are no settings. It is refused
for the two fields, whether it is loaded or laid over other settings. -/
theorem files_are_read_alike_faulty :
    let fields : List (String × Datum) := [("zoom", .int 2), ("debug", .int 1), ("color", .null)]
    let refusal : Except ConfigError Config := .error (.unknownKeys ["color", "zoom"])
    ∃ files, HoldsRecord files "vm.json" fields ∧ load files "vm.json" = refusal ∧
      ∀ c : Config, c.mergeFile files "vm.json" = refusal := by
  intro fields refusal
  have writable : (Datum.record fields).Writable := by
    refine .record (by decide) fun field among => ?_
    simp only [fields, List.mem_cons, List.not_mem_nil, or_false] at among
    rcases among with rfl | rfl | rfl
    · exact .int (by decide)
    · exact .int (by decide)
    · exact .null
  have located : FileTree.empty.locate "vm.json" = .ok ["vm.json"] := by decide +kernel
  have free : FileTree.empty.node? ["vm.json"] ≠ some .directory := by decide +kernel
  obtain ⟨files, written⟩ : ∃ files, FileTree.empty.write "vm.json"
      (.file (Text.encodeUtf8 (Json.write (.record fields)))) = .ok files :=
    ⟨_, FileTree.write_eq_ok_iff.mpr ⟨_, located, free, rfl, rfl⟩⟩
  obtain ⟨text, decoded, read⟩ := Json.read_decoded writable
  have holds : HoldsRecord files "vm.json" fields :=
    ⟨_, text, FileTree.read_of_write written, decoded, read⟩
  have unknown : UnknownNames fields ["color", "zoom"] := {
    some := nofun
    increasing := by decide
    unknown := fun name => by
      simp only [fields, List.map_cons, List.map_nil, List.mem_cons, List.not_mem_nil, or_false]
      constructor
      · rintro (rfl | rfl)
        · exact ⟨.inr (.inr rfl), by decide⟩
        · exact ⟨.inl rfl, by decide⟩
      · rintro ⟨rfl | rfl | rfl, other⟩
        · exact .inr rfl
        · exact absurd other (by decide)
        · exact .inl rfl }
  obtain ⟨-, loaded, merged⟩ := files_are_read_alike files "vm.json"
  exact ⟨files, holds, (loaded _).mpr (.unknownKeys holds unknown), fun c =>
    ((merged c).1 _).mpr (.unknownKeys holds unknown)⟩

end Config

end ChipEight
