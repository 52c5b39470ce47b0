import ChipEight.Files.Tree
import ChipEight.Proofs.Failure

/-!
# What is written is found

A file that was written is found under the path that it was written to (`at?_of_write`), and its
bytes are read from there (`read_of_write`). The way to it leads over directories only, and none of
them is the place that was written to, so the way is still there. What stands at another place is
still found, too (`at?_of_write_elsewhere`). A path that goes down to a name ends at a place with
this name (`locate_child`), so that two names in a directory are two places. A file that stands at a
path can be read unless its place is closed (`closed_of_read`).

A path without null characters has none in its text (`hasNull_text`), and nothing that is done with
it fails for one. A directory is made for such a path only (`unbroken_of_makeDirectories`).
-/

namespace ChipEight

namespace FileTree

variable {t t' : FileTree} {target : Place} {node : Node}

/-! ## Writing -/

/-- What stands at a place that something was put at. -/
theorem node?_put_self (free : isAnchor target = false) :
    (t.put target node).node? target = some node := by
  have cleared : (t.entries.filter (fun e => e.1 != target)).find? (fun e => e.1 == target) =
      none := by
    rw [List.find?_eq_none]
    intro e among same
    rw [List.mem_filter, bne, same] at among
    exact Bool.noConfusion among.2
  have found : [(target, node)].find? (fun e => e.1 == target) = some (target, node) :=
    List.find?_cons_of_pos (beq_self_eq_true target)
  rw [node?, if_neg (by rw [free]; decide), put, List.find?_append, cleared, Option.none_or, found,
    Option.map_some]

/-- What stands at the other places. -/
theorem node?_put_of_ne {place : Place} (other : place ≠ target) :
    (t.put target node).node? place = t.node? place := by
  have kept : (t.entries.filter (fun e => e.1 != target)).find? (fun e => e.1 == place) =
      t.entries.find? (fun e => e.1 == place) := by
    rw [List.find?_filter]
    refine congrArg (t.entries.find? ·) (funext fun e => ?_)
    by_cases here : e.1 = place
    · simp [here, other]
    · simp [here]
  have missed : [(target, node)].find? (fun e => e.1 == place) = none :=
    List.find?_cons_of_neg (by simpa using fun same => other same.symm)
  rw [node?, node?, put, List.find?_append, kept, missed, Option.or_none]

/-- A name leads on from a directory only. -/
theorem node?_of_enter {name : String} {start place : Place}
    (entered : t.enter start name = .ok place) : t.node? start = some .directory := by
  unfold enter at entered
  cases standing : t.node? start with
  | none =>
    rw [standing] at entered
    cases entered
  | some standing' =>
    cases standing' with
    | directory => rfl
    | file _ | picture _ =>
      rw [standing] at entered
      cases entered

/-- A name leads on as before when something is put where no directory is. -/
theorem enter_put (clear : t.node? target ≠ some .directory) {name : String} {start place : Place}
    (entered : t.enter start name = .ok place) :
    (t.put target node).enter start name = .ok place := by
  have other : start ≠ target := fun same => clear (same ▸ node?_of_enter entered)
  unfold enter at entered ⊢
  rw [node?_put_of_ne other]
  exact entered

/-- A way over directories is still there when something is put where no directory is. -/
theorem walk_put (clear : t.node? target ≠ some .directory) {names : List String}
    {start place : Place} (way : t.walk start names = .ok place) :
    (t.put target node).walk start names = .ok place := by
  induction names generalizing start with
  | nil => exact way
  | cons name rest ih =>
    obtain ⟨next, entered, way⟩ := bind_eq_ok_iff.mp way
    exact bind_eq_ok_iff.mpr ⟨next, enter_put clear entered, ih way⟩

/-- **When a path leads to a place.** -/
theorem locate_eq_ok_iff {path : String} {place : Place} : t.locate path = .ok place ↔
    hasNull path = false ∧ path.isEmpty = false ∧ path.utf8ByteSize ≤ longestPath ∧
      t.walk (if path.startsWith "/" then ["/"] else []) (Path.pieces path) = .ok place := by
  unfold locate
  cases hasNull path with
  | true => exact iff_of_false nofun (fun whole => nomatch whole.1)
  | false =>
  cases path.isEmpty with
  | true => exact iff_of_false nofun (fun whole => nomatch whole.2.1)
  | false =>
  by_cases long : longestPath < path.utf8ByteSize
  · rw [if_neg Bool.false_ne_true, if_neg Bool.false_ne_true, if_pos long]
    exact iff_of_false nofun fun whole => absurd long (Nat.not_lt.mpr whole.2.2.1)
  · rw [if_neg Bool.false_ne_true, if_neg Bool.false_ne_true, if_neg long, mapError_eq_ok_iff]
    simp [Nat.not_lt.mp long]

theorem locate_put (clear : t.node? target ≠ some .directory) {path : String} {place : Place}
    (found : t.locate path = .ok place) : (t.put target node).locate path = .ok place := by
  obtain ⟨unbroken, named, short, way⟩ := locate_eq_ok_iff.mp found
  exact locate_eq_ok_iff.mpr ⟨unbroken, named, short, walk_put clear way⟩

/-- A path that leads to a place can be written to, unless a directory stands there or the system
keeps it from being written. -/
theorem write_eq_ok_iff {path : String} : t.write path node = .ok t' ↔
    ∃ place, t.locate path = .ok place ∧ t.node? place ≠ some .directory ∧
      t.barrier place = none ∧ t.put place node = t' := by
  unfold write
  rw [bind_eq_ok_iff]
  refine exists_congr fun place => and_congr_right fun _ => ?_
  cases t.barrier place with
  | some problem =>
    refine iff_of_false ?_ fun whole => nomatch whole.2.1
    cases t.node? place with
    | none => nofun
    | some node' => cases node' <;> nofun
  | none =>
    cases t.node? place with
    | none => simp [pure, Except.pure]
    | some node' =>
      cases node' with
      | directory => exact iff_of_false nofun fun whole => absurd rfl whole.1
      | file _ | picture _ => simp [pure, Except.pure]

/-- The places where directories stand from the beginning are not written to. -/
theorem isAnchor_eq_false {place : Place} (free : t.node? place ≠ some .directory) :
    isAnchor place = false := by
  cases anchored : isAnchor place with
  | false => rfl
  | true => exact absurd (by rw [node?, if_pos anchored]) free

/-- **What is written is found** under the path that it was written to. -/
theorem at?_of_write {path : String} (written : t.write path node = .ok t') :
    t'.at? path = some node := by
  obtain ⟨place, found, free, -, rfl⟩ := write_eq_ok_iff.mp written
  simp only [at?, locate_put free found]
  exact node?_put_self (isAnchor_eq_false free)

/-- **What stands elsewhere is still found** when something is written. -/
theorem at?_of_write_elsewhere {path path' : String} {node' : Node}
    (written : t.write path node = .ok t') (found : t.at? path' = some node')
    (apart : ∀ place, t.locate path = .ok place → t.locate path' ≠ .ok place) :
    t'.at? path' = some node' := by
  obtain ⟨place, here, free, -, rfl⟩ := write_eq_ok_iff.mp written
  unfold at? at found ⊢
  cases there : t.locate path' with
  | error problem =>
    rw [there] at found
    cases found
  | ok place' =>
    have other : place' ≠ place := fun same => apart place here (same ▸ there)
    rw [there] at found
    rw [locate_put free there]
    exact (node?_put_of_ne other).trans found

/-- What is written to a file is read from it. -/
theorem read_of_write {path : String} {bytes : List UInt8}
    (written : t.write path (.file bytes) = .ok t') : t'.read path = .ok bytes := by
  obtain ⟨place, found, free, unbarred, rfl⟩ := write_eq_ok_iff.mp written
  have opened : (t.put place (.file bytes)).closed place = none :=
    (Option.or_eq_none_iff.mp unbarred).1
  rw [read, locate_put free found]
  dsimp only [bind, Except.bind]
  rw [node?_put_self (isAnchor_eq_false free), opened]
  rfl

theorem put_put (t : FileTree) (target : Place) (node : Node) :
    (t.put target node).put target node = t.put target node := by
  simp [put, List.filter_append, List.filter_filter]

/-- The same written again changes nothing. -/
theorem write_write {path : String} (other : node ≠ .directory)
    (written : t.write path node = .ok t') : t'.write path node = .ok t' := by
  obtain ⟨place, found, free, unbarred, rfl⟩ := write_eq_ok_iff.mp written
  refine write_eq_ok_iff.mpr ⟨place, locate_put free found, ?_, unbarred, put_put t place node⟩
  rw [node?_put_self (isAnchor_eq_false free)]
  exact fun same => other (Option.some.inj same)

/-- A file that stands at a path is read unless its place is closed. -/
theorem closed_of_read {path : String} {e : FileError} (stands : t.hasFile path = .ok true)
    (failed : t.read path = .error e) : ∃ place problem, t.locate path = .ok place ∧
      t.closed place = some problem ∧ e = .refused problem path := by
  unfold hasFile at stands
  unfold read at failed
  cases found : t.locate path with
  | error e' =>
    rw [found] at stands
    dsimp only at stands
    split at stands <;> cases stands
  | ok place =>
    rw [found] at stands failed
    dsimp only [bind, Except.bind] at stands failed
    cases closed : t.closed place with
    | some problem =>
      refine ⟨place, problem, rfl, closed, ?_⟩
      rw [closed] at failed
      cases node : t.node? place with
      | none =>
        rw [node] at stands
        cases stands
      | some _ =>
        rw [node] at failed
        cases failed
        rfl
    | none =>
      rw [closed] at failed
      cases node : t.node? place with
      | none =>
        rw [node] at stands
        cases stands
      | some node' =>
        rw [node] at stands failed
        cases node' with
        | directory => cases stands
        | file bytes | picture p => cases failed

/-- A path that cannot be looked up for more than that nothing is there leads nowhere. -/
theorem locate_of_hasFile {path : String} {e : FileError} (lost : t.hasFile path = .error e) :
    t.locate path = .error e ∧ e.isAbsence = false := by
  unfold hasFile at lost
  cases found : t.locate path with
  | error e' =>
    rw [found] at lost
    dsimp only at lost
    split at lost
    case isTrue => cases lost
    case isFalse more =>
      cases lost
      exact ⟨rfl, Bool.eq_false_iff.mpr more⟩
  | ok place =>
    rw [found] at lost
    dsimp only at lost
    split at lost <;> cases lost

end FileTree

/-! ## The last name of a path -/

namespace Path

variable {name : String}

theorem splitSlashes_of_notMem {name : List Char} (plain : '/' ∉ name) :
    splitSlashes name = [name] := by
  induction name with
  | nil => rfl
  | cons c rest ih =>
    have other : c ≠ '/' := fun same => plain (same ▸ List.mem_cons_self)
    rw [splitSlashes, if_neg other, ih fun among => plain (List.mem_cons_of_mem _ among)]

/-- A name after a slash is a piece of its own. -/
theorem splitSlashes_concat {name : List Char} (plain : '/' ∉ name) (before : List Char) :
    ∃ first front, splitSlashes (before ++ '/' :: name) = first :: (front ++ [name]) := by
  induction before with
  | nil =>
    refine ⟨[], [], ?_⟩
    rw [List.nil_append, splitSlashes, if_pos rfl, splitSlashes_of_notMem plain, List.nil_append]
  | cons c rest ih =>
    obtain ⟨first, front, split⟩ := ih
    rw [List.cons_append, splitSlashes]
    by_cases slash : c = '/'
    · refine ⟨[], first :: front, ?_⟩
      rw [if_pos slash, split, List.cons_append]
    · refine ⟨c :: first, front, ?_⟩
      rw [if_neg slash, split]

/-- Names that are joined by slashes end in the last one, alone or after a slash. -/
theorem intercalate_concat (names : List (List Char)) (name : List Char) :
    ['/'].intercalate (names ++ [name]) = name ∨
      ∃ before, ['/'].intercalate (names ++ [name]) = before ++ '/' :: name := by
  induction names with
  | nil => exact .inl List.intercalate_singleton
  | cons first rest ih =>
    have more : rest ++ [name] ≠ [] := List.append_ne_nil_of_right_ne_nil _ (List.cons_ne_nil _ _)
    rw [List.cons_append, List.intercalate_cons_of_ne_nil more]
    rcases ih with same | ⟨before, same⟩
    · exact .inr ⟨first, by rw [same, List.append_assoc, List.singleton_append]⟩
    · exact .inr ⟨first ++ '/' :: before, by simp [same]⟩

theorem toList_rootOf (text : String) :
    (rootOf text).toList = [] ∨ ∃ slashes, (rootOf text).toList = slashes ++ ['/'] := by
  unfold rootOf
  split
  · exact .inl rfl
  · exact .inr ⟨['/'], rfl⟩
  · exact .inr ⟨[], rfl⟩

/-- The text of a path that goes down to a name is the name, alone or after a slash. -/
theorem toList_text_child (text name : String) :
    ((ofText text).child name).text.toList = name.toList ∨
      ∃ before, ((ofText text).child name).text.toList = before ++ '/' :: name.toList := by
  have spelled : ((ofText text).child name).text.toList = (rootOf text).toList ++
      ['/'].intercalate ((ofText text).parts.map String.toList ++ [name.toList]) := by
    have named : ((ofText text).parts ++ [name]).isEmpty = false := by simp
    simp only [Path.text, child, named, Bool.and_false, Bool.false_eq_true, if_false,
      String.toList_append, String.toList_intercalate, List.map_append, List.map_singleton]
    rfl
  rw [spelled]
  rcases toList_rootOf text with none | ⟨slashes, root⟩
  · rw [none, List.nil_append]
    exact intercalate_concat _ _
  · rw [root]
    rcases intercalate_concat ((ofText text).parts.map String.toList) name.toList with
      same | ⟨before, same⟩
    · exact .inr ⟨slashes, by simp [same]⟩
    · exact .inr ⟨slashes ++ '/' :: before, by simp [same]⟩

/-- The last piece of a path that goes down to a name is the name. -/
theorem pieces_child (text : String) (plain : '/' ∉ name.toList) :
    ∃ front, pieces ((ofText text).child name).text = front ++ [name] := by
  unfold pieces
  rcases toList_text_child text name with alone | ⟨before, after⟩
  · refine ⟨[], ?_⟩
    rw [alone, splitSlashes_of_notMem plain, List.map_singleton, String.ofList_toList,
      List.nil_append]
  · obtain ⟨first, front, split⟩ := splitSlashes_concat plain before
    refine ⟨(first :: front).map String.ofList, ?_⟩
    rw [after, split, ← List.cons_append, List.map_append, List.map_singleton,
      String.ofList_toList]

end Path

namespace FileTree

variable {t : FileTree} {name : String}

/-- A name that is no name of a directory from itself, and that has no slashes. -/
structure IsPlain (name : String) : Prop where
  unslashed : '/' ∉ name.toList
  notEmpty : name ≠ ""
  notHere : name ≠ "."
  notUp : name ≠ ".."

/-- A plain name leads to a place with this name. -/
theorem enter_plain (plain : IsPlain name) {start place : Place}
    (entered : t.enter start name = .ok place) : place = start ++ [name] := by
  have stands := node?_of_enter entered
  unfold enter at entered
  rw [stands] at entered
  dsimp only at entered
  rw [if_neg plain.notEmpty] at entered
  cases closed : t.closed start with
  | some problem =>
    rw [closed] at entered
    cases entered
  | none =>
    rw [closed] at entered
    dsimp only at entered
    rw [if_neg plain.notHere, if_neg plain.notUp] at entered
    split at entered
    · cases entered
    · exact (Except.ok.inj entered).symm

/-- A way that ends with a plain name leads to a place with this name. -/
theorem walk_concat (plain : IsPlain name) {names : List String} {start place : Place}
    (way : t.walk start (names ++ [name]) = .ok place) : ∃ up, place = up ++ [name] := by
  induction names generalizing start with
  | nil =>
    obtain ⟨next, entered, ⟨⟩⟩ := bind_eq_ok_iff.mp way
    exact ⟨start, enter_plain plain entered⟩
  | cons first rest ih =>
    obtain ⟨next, -, way⟩ := bind_eq_ok_iff.mp way
    exact ih way

/-- **A path that goes down to a plain name leads to a place with this name**, if it leads to
any. -/
theorem locate_child (plain : IsPlain name) {text : String} {place : Place}
    (found : t.locate ((Path.ofText text).child name).text = .ok place) :
    ∃ up, place = up ++ [name] := by
  obtain ⟨front, pieces⟩ := Path.pieces_child text plain.unslashed
  obtain ⟨-, -, -, way⟩ := locate_eq_ok_iff.mp found
  rw [pieces] at way
  exact walk_concat plain way

end FileTree

/-! ## Null characters -/

namespace Path

open FileTree (hasNull)

/-- No part of the path has a null character. -/
structure Unbroken (p : Path) : Prop where
  root : hasNull p.root = false
  parts : ∀ part ∈ p.parts, hasNull part = false

theorem hasNull_eq_false_iff {text : String} :
    hasNull text = false ↔ Char.ofNat 0 ∉ text.toList := by
  simp [hasNull]

theorem mem_intercalate {c : Char} (other : c ≠ '/') (names : List (List Char)) :
    c ∈ ['/'].intercalate names ↔ ∃ name ∈ names, c ∈ name := by
  induction names with
  | nil => simp [List.intercalate]
  | cons first rest ih =>
    by_cases last : rest = []
    · simp [last]
    · rw [List.intercalate_cons_of_ne_nil last]
      simp [ih, other]

/-- **The text of a path has null characters where its parts do.** -/
theorem hasNull_text {p : Path} : hasNull p.text = false ↔ p.Unbroken := by
  unfold text
  by_cases bare : (p.root.isEmpty && p.parts.isEmpty) = true
  · rw [if_pos bare]
    rw [Bool.and_eq_true] at bare
    obtain ⟨root, parts⟩ := bare
    refine iff_of_true (by decide) ⟨?_, ?_⟩
    · rw [String.isEmpty_iff.mp root]
      decide
    · rw [List.isEmpty_iff.mp parts]
      exact nofun
  · have other : Char.ofNat 0 ≠ '/' := by decide
    rw [if_neg bare, hasNull_eq_false_iff, String.toList_append, String.toList_intercalate,
      List.mem_append, not_or, ← hasNull_eq_false_iff]
    have joined := mem_intercalate other (p.parts.map String.toList)
    constructor
    · rintro ⟨root, parts⟩
      refine ⟨root, fun part among => hasNull_eq_false_iff.mpr fun here => parts ?_⟩
      have listed : part.toList ∈ p.parts.map String.toList := List.mem_map_of_mem among
      exact joined.mpr ⟨part.toList, listed, here⟩
    · rintro ⟨root, parts⟩
      refine ⟨root, fun here => ?_⟩
      obtain ⟨_, listed, here⟩ := joined.mp here
      obtain ⟨part, found, rfl⟩ := List.mem_map.mp listed
      exact hasNull_eq_false_iff.mp (parts part found) here

/-- The pieces between slashes have all characters but the slashes. -/
theorem mem_splitSlashes {c : Char} (other : c ≠ '/') (text : List Char) :
    (∃ piece ∈ splitSlashes text, c ∈ piece) ↔ c ∈ text := by
  induction text with
  | nil => simp [splitSlashes]
  | cons first rest ih =>
    rw [splitSlashes, List.mem_cons, ← ih]
    by_cases slash : first = '/'
    · rw [if_pos slash]
      simp [slash, other]
    · rw [if_neg slash]
      cases splitSlashes rest with
      | nil => simp
      | cons piece pieces => simp [or_assoc]

/-- The normal form of a path has null characters where the path does. -/
theorem unbroken_ofText {text : String} : (ofText text).Unbroken ↔ hasNull text = false := by
  have other : Char.ofNat 0 ≠ '/' := by decide
  have split := mem_splitSlashes other text.toList
  rw [hasNull_eq_false_iff, ← split]
  constructor
  · rintro ⟨-, parts⟩ ⟨piece, among, here⟩
    have spelled : (String.ofList piece).toList = piece := String.toList_ofList
    have kept : String.ofList piece ∈ (ofText text).parts := by
      refine List.mem_filter.mpr ⟨List.mem_map_of_mem among, ?_⟩
      -- The names that are left out have no characters or only a dot.
      rw [Bool.and_eq_true, bne_iff_ne, bne_iff_ne]
      constructor
      · intro empty
        rw [empty] at spelled
        rw [← spelled] at here
        cases here
      · intro dot
        rw [dot] at spelled
        rw [← spelled] at here
        revert here
        decide
    have plain := hasNull_eq_false_iff.mp (parts _ kept)
    rw [spelled] at plain
    exact plain here
  · intro clear
    refine ⟨?_, fun part among => hasNull_eq_false_iff.mpr fun here => clear ?_⟩
    · unfold ofText rootOf
      dsimp only
      split <;> decide
    · obtain ⟨listed, -⟩ := List.mem_filter.mp among
      obtain ⟨piece, found, rfl⟩ := List.mem_map.mp listed
      rw [String.toList_ofList] at here
      exact ⟨piece, found, here⟩

theorem Unbroken.child {p : Path} (unbroken : p.Unbroken) {name : String}
    (plain : hasNull name = false) : (p.child name).Unbroken where
  root := unbroken.root
  parts part among := by
    rcases List.mem_append.mp among with before | last
    · exact unbroken.parts part before
    · rw [List.mem_singleton.mp last]
      exact plain

end Path

namespace FileTree

variable {t t' : FileTree}

theorem locate_fails {path : String} (unbroken : hasNull path = false) :
    FailsOnly (· ≠ .nullByte) (t.locate path) := by
  unfold locate
  rw [if_neg (by rw [unbroken]; decide)]
  split
  · exact .error nofun
  · split
    · exact .error nofun
    · exact .mapError (fun _ => nofun) _

theorem makeDirectory_fails {path : String} (unbroken : hasNull path = false) :
    FailsOnly (· ≠ .nullByte) (t.makeDirectory path) := by
  refine .bind (locate_fails unbroken) fun place _ => ?_
  split
  · exact .error nofun
  · exact .error nofun
  · exact .ok _

theorem write_fails {path : String} {node : Node} (unbroken : hasNull path = false) :
    FailsOnly (· ≠ .nullByte) (t.write path node) := by
  refine .bind (locate_fails unbroken) fun place _ => ?_
  split
  · exact .error nofun
  · exact .error nofun
  · exact .ok _

theorem makeDirectory_eq_ok_iff {path : String} : t.makeDirectory path = .ok t' ↔
    ∃ place, t.locate path = .ok place ∧ t.node? place = none ∧ t.barrier place = none ∧
      t.put place .directory = t' := by
  unfold makeDirectory
  rw [bind_eq_ok_iff]
  refine exists_congr fun place => and_congr_right fun _ => ?_
  cases t.node? place with
  | some _ => exact iff_of_false nofun fun whole => nomatch whole.1
  | none =>
    cases t.barrier place with
    | some problem => exact iff_of_false nofun fun whole => nomatch whole.2.1
    | none => simp [pure, Except.pure]

theorem ensureDirectory_fails {path : String} (unbroken : hasNull path = false) :
    FailsOnly (· ≠ .nullByte) (t.ensureDirectory path) := by
  have fails := makeDirectory_fails (t := t) unbroken
  unfold ensureDirectory
  cases made : t.makeDirectory path with
  | ok t' => exact .ok t'
  | error e =>
    dsimp only
    split
    · exact .ok t
    · exact .error (fails e made)

/-- Making directories does not fail for a null character if the path has none. -/
theorem makeDirectories_fails {p : Path} (unbroken : p.Unbroken) :
    FailsOnly (· ≠ .nullByte) (t.makeDirectories p) := by
  have each (names : List String) (plain : ∀ name ∈ names, hasNull name = false) (t : FileTree) :
      FailsOnly (· ≠ .nullByte) (t.makeDirectoriesTo p.root names) := by
    induction names generalizing t with
    | nil => exact ensureDirectory_fails (Path.hasNull_text.mpr ⟨unbroken.root, nofun⟩)
    | cons name names ih =>
      have way : Path.Unbroken ⟨p.root, (name :: names).reverse⟩ :=
        ⟨unbroken.root, fun part among => plain part (List.mem_reverse.mp among)⟩
      have fails (t : FileTree) := ensureDirectory_fails (t := t) (Path.hasNull_text.mpr way)
      rw [makeDirectoriesTo]
      split
      case h_1 => exact .ok _
      case h_2 e failed =>
        split
        · exact .bind (ih (fun part among => plain part (List.mem_cons_of_mem _ among)) t)
            fun t' _ => fails t'
        · exact .error (fails t e failed)
  exact each p.parts.reverse (fun part among => unbroken.parts part (List.mem_reverse.mp among)) t

theorem ensureDirectory_of_null {path : String} (broken : hasNull path = true) :
    t.ensureDirectory path = .error .nullByte := by
  have located : t.locate path = .error .nullByte := by rw [locate, if_pos broken]
  simp [ensureDirectory, makeDirectory, hasDirectory, at?, located, bind, Except.bind]

/-- Directories are made for a path without null characters only. -/
theorem unbroken_of_makeDirectories {p : Path} (made : t.makeDirectories p = .ok t') :
    p.Unbroken := by
  refine Path.hasNull_text.mp (Bool.eq_false_iff.mpr fun broken => ?_)
  obtain ⟨root, parts⟩ := p
  unfold makeDirectories at made
  cases reversed : parts.reverse with
  | nil =>
    rw [List.reverse_eq_nil_iff.mp reversed] at broken made
    cases (ensureDirectory_of_null broken).symm.trans made
  | cons name names =>
    rw [List.reverse_eq_iff.mp reversed] at broken made
    dsimp only at made
    rw [List.reverse_reverse, makeDirectoriesTo, ensureDirectory_of_null broken] at made
    cases made

end FileTree

end ChipEight
