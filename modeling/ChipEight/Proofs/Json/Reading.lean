import ChipEight.Json.Reader
import ChipEight.Proofs.Failure
import Mathlib.Data.List.Nodup

/-!
# What the reader answers

A record that was read has no name twice (`distinct_of_read`), though its text may have: a field
that comes again takes the place of the earlier one.
-/

namespace ChipEight

section

variable {α : Type} {fields : List (String × α)}

/-- Setting a field adds its name if it is new, and keeps the names. -/
theorem map_fst_setField (fields : List (String × α)) (name : String) (value : α) :
    (setField fields name value).map Prod.fst =
      if name ∈ fields.map Prod.fst then fields.map Prod.fst
      else fields.map Prod.fst ++ [name] := by
  induction fields with
  | nil => rfl
  | cons field rest ih =>
    rw [setField, List.map_cons]
    by_cases same : field.1 = name
    · rw [if_pos same, if_pos (List.mem_cons.mpr (.inl same.symm)), List.map_cons]
    · rw [if_neg same, List.map_cons, ih]
      have later : name ∈ field.1 :: rest.map Prod.fst ↔ name ∈ rest.map Prod.fst := by
        rw [List.mem_cons, or_iff_right fun named => same named.symm]
      by_cases among : name ∈ rest.map Prod.fst
      · rw [if_pos among, if_pos (later.mpr among)]
      · rw [if_neg among, if_neg (mt later.mp among), List.cons_append]

/-- Setting a field repeats no name. -/
theorem nodup_setField (distinct : (fields.map Prod.fst).Nodup) (name : String) (value : α) :
    ((setField fields name value).map Prod.fst).Nodup := by
  rw [map_fst_setField]
  split
  case isTrue => exact distinct
  case isFalse absent =>
    exact distinct.append (List.nodup_singleton name)
      (by simpa [List.disjoint_singleton] using absent)

end

/-- A record without a name twice; other values have no names. -/
def Datum.Distinct : Datum → Prop
  | .record fields => (fields.map Prod.fst).Nodup
  | _ => True

namespace Json

variable {fuel : Nat} {s after : List Char} {value : Datum}

theorem distinct_of_readNumber (read : readNumber s = .ok (value, after)) : value.Distinct := by
  unfold readNumber at read
  dsimp only at read
  split at read
  · cases read
  · split at read
    · split at read
      · cases read
      · obtain ⟨rfl, -⟩ := Prod.mk.inj (Except.ok.inj read)
        trivial
    · obtain ⟨rfl, -⟩ := Prod.mk.inj (Except.ok.inj read)
      trivial

theorem distinct_of_readWordOrNumber (read : readWordOrNumber s = .ok (value, after)) :
    value.Distinct := by
  unfold readWordOrNumber at read
  split at read
  case h_1 found word =>
    cases read
    obtain ⟨⟨name, named⟩, among, here⟩ := List.exists_of_findSome?_eq_some word
    obtain ⟨_, -, same⟩ := Option.map_eq_some_iff.mp here
    cases same
    have plain : ∀ entry ∈ namedValues, entry.2.Distinct := by
      simp [namedValues, Datum.Distinct]
    exact plain _ among
  case h_2 => exact distinct_of_readNumber read

/-- What starts with a bracket is read as a list. -/
theorem distinct_of_readItems (read : readItems fuel s = .ok (value, after)) :
    ∃ items, value = .list items := by
  induction fuel generalizing s value after with
  | zero => cases read
  | succ fuel ih =>
    rw [readItems] at read
    obtain ⟨⟨item, further⟩, -, read⟩ := bind_eq_ok_iff.mp read
    dsimp only at read
    split at read
    · cases read
      exact ⟨_, rfl⟩
    · obtain ⟨⟨rest, _⟩, rest_read, read⟩ := bind_eq_ok_iff.mp read
      obtain ⟨items, rfl⟩ := ih rest_read
      cases read
      exact ⟨_, rfl⟩
    · cases read

/-- The fields of a record are set one after the other. -/
theorem distinct_of_readFields {fields : List (String × Datum)}
    (distinct : (fields.map Prod.fst).Nodup)
    (read : readFields fuel fields s = .ok (value, after)) : value.Distinct := by
  induction fuel generalizing fields s value after with
  | zero => cases read
  | succ fuel ih =>
    cases s with
    | nil => cases read
    | cons c rest =>
      rw [readFields] at read
      split at read
      · obtain ⟨⟨name, _⟩, -, read⟩ := bind_eq_ok_iff.mp read
        dsimp only at read
        split at read
        · obtain ⟨⟨value, _⟩, -, read⟩ := bind_eq_ok_iff.mp read
          have kept := nodup_setField distinct (String.ofList name) value
          dsimp only at read
          split at read
          · exact ih kept read
          · cases read
            exact kept
          · cases read
        · cases read
      · cases read

theorem distinct_of_readValue (read : readValue fuel s = .ok (value, after)) : value.Distinct := by
  have none : (([] : List (String × Datum)).map Prod.fst).Nodup := List.nodup_nil
  cases fuel with
  | zero => cases read
  | succ fuel =>
    cases s with
    | nil => cases read
    | cons c rest =>
      rw [readValue] at read
      split at read
      · obtain ⟨_, -, read⟩ := bind_eq_ok_iff.mp read
        cases read
        trivial
      · split at read
        · split at read
          · exact distinct_of_readFields none read
          · split at read
            · cases read
              exact none
            · exact distinct_of_readFields none read
        · split at read
          · split at read
            · obtain ⟨_, rfl⟩ := distinct_of_readItems read
              trivial
            · split at read
              · cases read
                trivial
              · obtain ⟨_, rfl⟩ := distinct_of_readItems read
                trivial
          · exact distinct_of_readWordOrNumber read

/-- **A record that was read has no name twice.** -/
theorem distinct_of_read (done : read s = .ok value) : value.Distinct := by
  unfold read at done
  rw [mapError_eq_ok_iff] at done
  split at done
  · cases done
  · obtain ⟨⟨_, _⟩, found, done⟩ := bind_eq_ok_iff.mp done
    dsimp only at done
    split at done
    · cases done
      exact distinct_of_readValue found
    · cases done

end Json

end ChipEight
