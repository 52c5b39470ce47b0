import ChipEight.Config.Layers

/-!
# Settings by name

A draft has a value for each of the nine settings, and a setting has a name. A *layer* says of every
setting what its value is, or nothing; `Draft.overlaid` is a draft with a layer over it. A layer has
fields that say the same (`Layer.ofFields_fields`), and setting fields in a draft one after the
other is laying over it what they say, where the last field of a name holds
(`Draft.setAll_eq_overlaid`). A draft that is completed by the standard values is the same as one
that is laid over them (`Config.completed_eq`).
-/

namespace ChipEight

/-- The settings of a session. -/
inductive Setting where
  | rom
  | debug
  | backend
  | hertz
  | windowWidth
  | windowHeight
  | stackLimit
  | timerHertz
  | maxCatchup
deriving DecidableEq, Repr

namespace Setting

/-- The settings, in order. -/
def all : List Setting :=
  [.rom, .debug, .backend, .hertz, .windowWidth, .windowHeight, .stackLimit, .timerHertz,
    .maxCatchup]

/-- The name by which a setting is set. -/
def name : Setting → String
  | .rom => "rom"
  | .debug => "debug"
  | .backend => "backend"
  | .hertz => "hertz"
  | .windowWidth => "window_width"
  | .windowHeight => "window_height"
  | .stackLimit => "stack_limit"
  | .timerHertz => "timer_hz"
  | .maxCatchup => "max_catchup_ms"

theorem mem_all (s : Setting) : s ∈ all := by cases s <;> decide

theorem nodup_names : (all.map name).Nodup := by decide

theorem name_injective : Function.Injective name := by
  intro s t same
  have apart : ∀ s ∈ all, ∀ t ∈ all, s.name = t.name → s = t := by decide
  exact apart s s.mem_all t t.mem_all same

theorem names_eq : Config.names = all.map name := rfl

/-- The names of settings are those of the nine. -/
theorem isName_iff {name : String} : Config.isName name = true ↔ ∃ s : Setting, s.name = name := by
  unfold Config.isName
  rw [List.contains_iff_mem, names_eq, List.mem_map]
  exact ⟨fun ⟨s, _, same⟩ => ⟨s, same⟩, fun ⟨s, same⟩ => ⟨s, s.mem_all, same⟩⟩

theorem isName_name (s : Setting) : Config.isName s.name = true := isName_iff.mpr ⟨s, rfl⟩

/-- No unknown name is found among names of settings. -/
theorem find?_unknown {fields : List (String × Datum)}
    (known : ∀ field ∈ fields, Config.isName field.1 = true) :
    (fields.find? fun field => !Config.isName field.1) = none := by
  rw [List.find?_eq_none]
  intro field among
  rw [known field among]
  exact Bool.false_ne_true

end Setting

/-! ## Fields -/

section

variable {α : Type} {fields : List (String × α)} {name : String} {value : α}

/-- The value of the last field of a name. -/
def lastField? (fields : List (String × α)) (name : String) : Option α :=
  getField? fields.reverse name

theorem getField?_eq_none (absent : name ∉ fields.map Prod.fst) : getField? fields name = none := by
  induction fields with
  | nil => rfl
  | cons field rest ih =>
    rw [List.map_cons, List.mem_cons, not_or] at absent
    rw [getField?, if_neg fun same => absent.1 same.symm, ih absent.2]

theorem getField?_append (fields more : List (String × α)) (name : String) :
    getField? (fields ++ more) name = (getField? fields name).or (getField? more name) := by
  induction fields with
  | nil => rfl
  | cons field rest ih =>
    rw [List.cons_append, getField?, getField?, ih]
    split
    · rfl
    · rfl

@[simp] theorem lastField?_nil : lastField? ([] : List (String × α)) name = none := rfl

theorem lastField?_cons (field : String × α) (fields : List (String × α)) (name : String) :
    lastField? (field :: fields) name =
      (lastField? fields name).or (if field.1 = name then some field.2 else none) := by
  rw [lastField?, List.reverse_cons, getField?_append]
  rfl

/-- A field whose name is not repeated is the last of its name. -/
theorem lastField?_of_mem (distinct : (fields.map Prod.fst).Nodup)
    (among : (name, value) ∈ fields) :
    lastField? fields name = some value := by
  induction fields with
  | nil => cases among
  | cons field rest ih =>
    rw [List.map_cons, List.nodup_cons] at distinct
    rw [lastField?_cons]
    rcases List.mem_cons.mp among with rfl | later
    · have none : lastField? rest name = none := by
        refine getField?_eq_none ?_
        rw [List.map_reverse, List.mem_reverse]
        exact distinct.1
      rw [none, if_pos rfl, Option.none_or]
    · rw [ih distinct.2 later, Option.some_or]

/-- In a record without repeated names, the last field of a name is the only one. -/
theorem lastField?_eq_getField? (distinct : (fields.map Prod.fst).Nodup) (name : String) :
    lastField? fields name = getField? fields name := by
  induction fields with
  | nil => rfl
  | cons field rest ih =>
    rw [List.map_cons, List.nodup_cons] at distinct
    rw [lastField?_cons, ih distinct.2, getField?]
    split
    case isTrue same =>
      subst same
      rw [getField?_eq_none distinct.1, Option.none_or]
    case isFalse => rw [Option.or_none]

end

/-! ## Layers over drafts -/

/-- What a layer says of the settings. -/
def Layer := Setting → Option Datum

namespace Layer

/-- A layer that says nothing. -/
def nothing : Layer := fun _ => none

/-- The fields that say what a layer says. -/
def fields (layer : Layer) : List (String × Datum) :=
  Setting.all.filterMap fun s => (layer s).map fun value => (s.name, value)

/-- What fields say of the settings, the last one of a name if there are several. -/
def ofFields (fields : List (String × Datum)) : Layer := fun s => lastField? fields s.name

theorem nodup_fields (layer : Layer) : (layer.fields.map Prod.fst).Nodup := by
  refine Setting.nodup_names.sublist ?_
  rw [fields, List.map_filterMap]
  have named : (fun s => Option.map Prod.fst ((layer s).map fun value => (s.name, value))) =
      fun s => (layer s).bind fun _ => some s.name := by
    funext s
    cases layer s <;> rfl
  rw [named]
  generalize Setting.all = settings
  induction settings with
  | nil => exact .slnil
  | cons s rest ih =>
    rw [List.filterMap_cons]
    cases layer s with
    | none => exact ih.cons _
    | some _ => exact ih.cons_cons _

/-- The fields of a layer have names of settings. -/
theorem isName_of_mem_fields {layer : Layer} {field : String × Datum}
    (among : field ∈ layer.fields) :
    Config.isName field.1 = true := by
  obtain ⟨s, -, saying⟩ := List.mem_filterMap.mp among
  obtain ⟨value, -, rfl⟩ := Option.map_eq_some_iff.mp saying
  exact s.isName_name

/-- The fields of a layer say what it says. -/
theorem ofFields_fields (layer : Layer) : ofFields layer.fields = layer := by
  funext s
  unfold ofFields
  cases said : layer s with
  | some value =>
    refine lastField?_of_mem layer.nodup_fields (List.mem_filterMap.mpr ⟨s, s.mem_all, ?_⟩)
    rw [said]
    rfl
  | none =>
    refine getField?_eq_none fun among => ?_
    rw [List.map_reverse, List.mem_reverse, List.mem_map] at among
    obtain ⟨field, among, same⟩ := among
    obtain ⟨t, -, saying⟩ := List.mem_filterMap.mp among
    obtain ⟨value, said', rfl⟩ := Option.map_eq_some_iff.mp saying
    cases Setting.name_injective same
    cases said.symm.trans said'

end Layer

namespace Draft

variable {d d' : Draft} {s t : Setting}

/-- The value of a setting. -/
def get (d : Draft) : Setting → Datum
  | .rom => d.rom
  | .debug => d.debug
  | .backend => d.backend
  | .hertz => d.hertz
  | .windowWidth => d.windowWidth
  | .windowHeight => d.windowHeight
  | .stackLimit => d.stackLimit
  | .timerHertz => d.timerHertz
  | .maxCatchup => d.maxCatchup

theorem ext_get (same : ∀ s, d.get s = d'.get s) : d = d' := by
  cases d
  cases d'
  exact (mk.injEq ..).mpr ⟨same .rom, same .debug, same .backend, same .hertz, same .windowWidth,
    same .windowHeight, same .stackLimit, same .timerHertz, same .maxCatchup⟩

/-- The layer that says of every setting what its value is. -/
def layer (d : Draft) : Layer := fun s => some (d.get s)

/-- All values with their names. -/
def fields (d : Draft) : List (String × Datum) := d.layer.fields

/-- The draft with what a layer says in place of its own values. -/
def overlaid (d : Draft) (layer : Layer) : Draft where
  rom := (layer .rom).getD d.rom
  debug := (layer .debug).getD d.debug
  backend := (layer .backend).getD d.backend
  hertz := (layer .hertz).getD d.hertz
  windowWidth := (layer .windowWidth).getD d.windowWidth
  windowHeight := (layer .windowHeight).getD d.windowHeight
  stackLimit := (layer .stackLimit).getD d.stackLimit
  timerHertz := (layer .timerHertz).getD d.timerHertz
  maxCatchup := (layer .maxCatchup).getD d.maxCatchup

@[simp] theorem get_overlaid (d : Draft) (layer : Layer) (s : Setting) :
    (d.overlaid layer).get s = (layer s).getD (d.get s) := by cases s <;> rfl

/-- A layer that says something of every setting replaces everything. -/
theorem overlaid_layer (d d' : Draft) : d.overlaid d'.layer = d' := rfl

theorem get_set (d : Draft) (s t : Setting) (value : Datum) :
    (d.set s.name value).get t = if s = t then value else d.get t := by
  cases s <;> cases t <;> rfl

theorem set_of_not_isName {name : String} (other : Config.isName name = false) (value : Datum) :
    d.set name value = d := by
  have apart (s : Setting) : name ≠ s.name := by
    rintro rfl
    rw [s.isName_name] at other
    cases other
  calc d.set name value
      = if name = Setting.maxCatchup.name then { d with maxCatchup := value } else d :=
        (if_neg (apart .rom)).trans <| (if_neg (apart .debug)).trans <|
          (if_neg (apart .backend)).trans <| (if_neg (apart .hertz)).trans <|
            (if_neg (apart .windowWidth)).trans <| (if_neg (apart .windowHeight)).trans <|
              (if_neg (apart .stackLimit)).trans <| if_neg (apart .timerHertz)
    _ = d := if_neg (apart .maxCatchup)

/-- **Setting fields one after the other is laying them over the draft**: of the fields with the
name of a setting the last one holds. -/
theorem setAll_eq_overlaid (d : Draft) (fields : List (String × Datum)) :
    d.setAll fields = d.overlaid (.ofFields fields) := by
  induction fields generalizing d with
  | nil => rfl
  | cons field rest ih =>
    have step : d.setAll (field :: rest) = (d.set field.1 field.2).setAll rest := rfl
    rw [step, ih]
    refine ext_get fun t => ?_
    rw [get_overlaid, get_overlaid, Layer.ofFields, Layer.ofFields, lastField?_cons]
    have first : (d.set field.1 field.2).get t =
        (if field.1 = t.name then some field.2 else none).getD (d.get t) := by
      cases known : Config.isName field.1 with
      | false =>
        have other : field.1 ≠ t.name := fun same => by
          rw [same, t.isName_name] at known
          cases known
        rw [set_of_not_isName known, if_neg other, Option.getD_none]
      | true =>
        obtain ⟨s, same⟩ := Setting.isName_iff.mp known
        rw [← same, get_set]
        by_cases here : s = t
        · rw [if_pos here, here, if_pos rfl, Option.getD_some]
        · rw [if_neg here, if_neg fun named => here (Setting.name_injective named),
            Option.getD_none]
    rw [first]
    cases lastField? rest t.name <;> rfl

end Draft

/-- **Completing fields by the standard values is laying them over these**, if the names in the
fields are different. -/
theorem Config.completed_eq {fields : List (String × Datum)}
    (distinct : (fields.map Prod.fst).Nodup) :
    completed fields = standard.toDraft.overlaid (.ofFields fields) := by
  refine Draft.ext_get fun s => ?_
  have value : (completed fields).get s =
      (getField? fields s.name).getD (standard.toDraft.get s) := by cases s <;> rfl
  rw [value, Draft.get_overlaid, Layer.ofFields, lastField?_eq_getField? distinct]

/-- Nothing is completed where all values are given. -/
theorem Config.completed_fields (d : Draft) : completed d.fields = d := by
  rw [Draft.fields, completed_eq d.layer.nodup_fields, Layer.ofFields_fields, Draft.overlaid_layer]

/-- The settings of a session, with their names. -/
theorem Config.fields_eq (c : Config) : c.fields = c.toDraft.fields := rfl

end ChipEight
