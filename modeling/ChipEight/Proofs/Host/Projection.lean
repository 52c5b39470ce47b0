import ChipEight.Host.Window
import ChipEight.Proofs.Machine.Access
import ChipEight.Proofs.Number.Value
import Mathlib.Data.List.Induction

/-!
# A screen in a window

A window presents a screen while the screen is drawn on and cleared. Its limiter lets a
presentation draw only if it does not come too soon after the last one that drew. The others are
passed over, and leave the window and the screen as they are, the mark of the screen included.

A `Projection` is a window with its screen and the readings of the clock at which it drew. As only a
presentation that draws takes off the mark, a change of the screen is never lost: whenever the screen
is not marked, the window shows it (`changes_reach_window`).

Readings of a clock are rounded when they are subtracted. What is said about times holds where they
are not, that is, for readings that are taken as exact numbers (`Number.Follows`).
-/

namespace ChipEight

/-! ## Times -/

/-- A number of the format is greater than an exact one, or it is the positive infinity. -/
def Binary64.Exceeds (x : Binary64) (q : ℚ) : Prop :=
  match x with
  | .nan => False
  | .infinite negative => negative = false
  | .finite negative m e => q < value (.finite negative m e)

theorem Binary64.Exceeds.mono {x : Binary64} {p q : ℚ} (exceeds : x.Exceeds q) (less : p ≤ q) :
    x.Exceeds p := by
  cases x with
  | nan => exact exceeds
  | infinite negative => exact exceeds
  | finite negative m e => exact lt_of_le_of_lt less exceeds

namespace Number

theorem lt_real_iff {d : Number} (finite : d.IsFinite) {x : Binary64} :
    d.lt (.real x) = true ↔ x.Exceeds d.value := by
  have denotes := denotes_value finite
  cases x with
  | finite negative m e => exact lt_iff (y := .real (.finite negative m e)) finite trivial
  | nan =>
    rw [lt]
    cases d.toExtended <;> exact iff_of_false Bool.false_ne_true id
  | infinite negative =>
    -- A finite number is a ratio of integers, and every ratio is less than the positive infinity.
    rw [lt]
    cases point : d.toExtended with
    | ratio a b =>
      cases negative with
      | false => exact iff_of_true rfl rfl
      | true => exact iff_of_false Bool.false_ne_true nofun
    | _ =>
      rw [point] at denotes
      exact denotes.elim

/-- **A reading of a clock after an earlier one**: it is not less, and the time that has passed in
between is not rounded. -/
structure Follows (now earlier : Number) : Prop where
  ordered : earlier.value ≤ now.value
  exact : ∃ passed, now.sub earlier = .ok passed ∧ passed.IsFinite ∧
    passed.value = now.value - earlier.value

end Number

/-- A limiter that let a presentation pass holds back the later ones that come too soon. -/
theorem Limiter.holdsBack_eq {l : Limiter} {last now : Number} (passed : l.last = some last)
    (follows : now.Follows last) :
    ∃ held, l.holdsBack now = .ok held ∧
      (held = true ↔ l.interval.Exceeds (now.value - last.value)) := by
  obtain ⟨d, difference, finite, value⟩ := follows.exact
  refine ⟨d.lt (.real l.interval), ?_, ?_⟩
  · rw [holdsBack, passed]
    simp only [difference]
    rfl
  · rw [Number.lt_real_iff finite, value]

/-! ## Presentations -/

namespace Window

variable {w : Window} {now : Number}

theorem present_of_held (held : w.limiter.holdsBack now = .ok true) (screen : Screen) :
    w.present now screen = ⟨.ok (), screen, w⟩ := by
  rw [present, held]

theorem present_of_due (opened : w.desktop.displayOpen = true)
    (due : w.limiter.holdsBack now = .ok false) (screen : Screen) :
    w.present now screen = ⟨.ok (), { screen with dirty := false },
      { w with
        limiter := { w.limiter with last := some now }
        drawn := some screen.raster }⟩ := by
  rw [present, due]
  exact if_pos opened

/-- Does a presentation draw? It does if a window that showed nothing shows something after it. -/
def draws (w : Window) (now : Number) (screen : Screen) : Bool :=
  ({ w with drawn := none }.present now screen).world.drawn.isSome

end Window

/-- A window with the screen that it presents, and the readings of the clock at which it drew. -/
structure Projection where
  window : Window
  screen : Screen
  drawings : List Number

namespace Projection

/-- What happens to a projection. -/
inductive Event where
  | draw (x y : Int) (rows : List UInt8)
  | clear
  /-- The screen is presented at a reading of the clock. -/
  | present (now : Number)

/-- A projection before anything was presented. -/
def start (window : Window) (screen : Screen) : Projection := ⟨window, screen, []⟩

/-- The projection after a presentation. -/
def presented (p : Projection) (now : Number) : Projection where
  window := (p.window.present now p.screen).world
  screen := (p.window.present now p.screen).screen
  drawings := if p.window.draws now p.screen then p.drawings ++ [now] else p.drawings

/-- The projection after an event. A draw that is refused changes nothing. -/
def Event.apply (p : Projection) : Event → Projection
  | .draw x y rows =>
    match p.screen.draw x y rows with
    | .ok (screen, _) => { p with screen := screen }
    | .error _ => p
  | .clear => { p with screen := p.screen.clear }
  | .present now => p.presented now

/-- The projection after a list of events. -/
def after (p : Projection) (events : List Event) : Projection := events.foldl Event.apply p

/-- The reading of the clock that an event asks for. -/
def Event.reading? : Event → Option Number
  | .present now => some now
  | _ => none

/-- The readings of the clock during a list of events, in order. -/
def readings (events : List Event) : List Number := events.filterMap Event.reading?

/-- **The clock never goes back**, and the time between two readings of it is not rounded. -/
def Steady (events : List Event) : Prop :=
  (readings events).Pairwise fun earlier now => now.Follows earlier

/-- A reading comes too soon after the last presentation that drew. -/
def TooSoon (p : Projection) (now : Number) : Prop :=
  ∃ last, p.drawings.getLast? = some last ∧
    p.window.limiter.interval.Exceeds (now.value - last.value)

variable {p : Projection} {w : Window} {now : Number} {events later : List Event}

theorem after_concat (p : Projection) (events : List Event) (event : Event) :
    p.after (events ++ [event]) = event.apply (p.after events) :=
  List.foldl_concat ..

theorem readings_append (events later : List Event) :
    readings (events ++ later) = readings events ++ readings later :=
  List.filterMap_append

theorem Steady.before (steady : Steady (events ++ later)) : Steady events := by
  rw [Steady, readings_append] at steady
  exact (List.pairwise_append.mp steady).1

/-- The reading at a presentation comes after those before it. -/
theorem Steady.follows (steady : Steady (events ++ .present now :: later)) :
    ∀ earlier ∈ readings events, now.Follows earlier := by
  rw [Steady, readings_append] at steady
  exact fun earlier among => (List.pairwise_append.mp steady).2.2 earlier among now
    List.mem_cons_self

/-- **What holds of a projection at all times**, if it starts with an open window that has presented
nothing. -/
structure Faithful (w : Window) (events : List Event) (p : Projection) : Prop where
  opened : p.window.desktop.displayOpen = true
  interval : p.window.limiter.interval = w.limiter.interval
  last : p.window.limiter.last = p.drawings.getLast?
  /-- It drew at readings of the clock. -/
  read : p.drawings.Sublist (readings events)
  /-- It never drew twice within the interval. -/
  spaced : p.drawings.Pairwise fun earlier later =>
    ¬w.limiter.interval.Exceeds (later.value - earlier.value)
  /-- Once it drew, it shows the screen unless the screen is marked. -/
  shows : p.drawings ≠ [] → p.screen.dirty = false → p.window.drawn = some p.screen.raster

/-! ## One event -/

/-- **A presentation draws or is passed over**, by the time since the last one that drew. -/
theorem Faithful.present (faithful : Faithful w events p)
    (follows : ∀ earlier ∈ readings events, now.Follows earlier) :
    p.TooSoon now ∧ p.window.draws now p.screen = false ∧
        p.window.present now p.screen = ⟨.ok (), p.screen, p.window⟩ ∨
      ¬p.TooSoon now ∧ p.window.draws now p.screen = true ∧
        p.window.present now p.screen = ⟨.ok (), { p.screen with dirty := false },
          { p.window with
            limiter := { p.window.limiter with last := some now }
            drawn := some p.screen.raster }⟩ := by
  -- The limiter remembers the last reading at which the window drew.
  obtain ⟨held, asked, held_iff⟩ : ∃ held, p.window.limiter.holdsBack now = .ok held ∧
      (held = true ↔ p.TooSoon now) := by
    cases last : p.drawings.getLast? with
    | none =>
      refine ⟨false, ?_, iff_of_false Bool.false_ne_true ?_⟩
      · rw [Limiter.holdsBack, faithful.last, last]
      · rintro ⟨_, drew, -⟩
        cases last.symm.trans drew
    | some last' =>
      have among := faithful.read.subset (List.mem_of_getLast? last)
      obtain ⟨held, asked, held_iff⟩ :=
        Limiter.holdsBack_eq (faithful.last.trans last) (follows last' among)
      refine ⟨held, asked, held_iff.trans ⟨fun soon => ⟨last', last, soon⟩, ?_⟩⟩
      rintro ⟨_, drew, soon⟩
      cases last.symm.trans drew
      exact soon
  cases held with
  | true =>
    refine .inl ⟨held_iff.mp rfl, ?_, Window.present_of_held asked _⟩
    rw [Window.draws, Window.present_of_held (w := { p.window with drawn := none }) asked]
    rfl
  | false =>
    refine .inr ⟨fun soon => Bool.false_ne_true (held_iff.mpr soon), ?_,
      Window.present_of_due faithful.opened asked _⟩
    rw [Window.draws,
      Window.present_of_due (w := { p.window with drawn := none }) faithful.opened asked]
    rfl

/-- The last of readings in order is not less than any of them. -/
theorem value_le_of_getLast? {times : List Number} {last earlier : Number}
    (ordered : times.Pairwise fun earlier now => now.Follows earlier)
    (latest : times.getLast? = some last) (among : earlier ∈ times) :
    earlier.value ≤ last.value := by
  obtain ⟨before, rfl⟩ := List.getLast?_eq_some_iff.mp latest
  rcases List.mem_append.mp among with among | same
  · exact ((List.pairwise_append.mp ordered).2.2 _ among _ (List.mem_singleton_self _)).ordered
  · rw [List.mem_singleton.mp same]

/-- A presentation that draws keeps its distance to all that drew before it. -/
theorem Faithful.spaced_concat (faithful : Faithful w events p) (steady : Steady events)
    (due : ¬p.TooSoon now) :
    (p.drawings ++ [now]).Pairwise fun earlier later =>
      ¬w.limiter.interval.Exceeds (later.value - earlier.value) := by
  refine List.pairwise_append.mpr ⟨faithful.spaced, List.pairwise_singleton .., ?_⟩
  rintro earlier among _ here exceeds
  rw [List.mem_singleton.mp here] at exceeds
  cases latest : p.drawings.getLast? with
  | none =>
    rw [List.getLast?_eq_none_iff.mp latest] at among
    cases among
  | some last =>
    have before := value_le_of_getLast? (steady.sublist faithful.read) latest among
    refine due ⟨last, latest, ?_⟩
    rw [faithful.interval]
    exact exceeds.mono (sub_le_sub_left before _)

theorem Faithful.presented (faithful : Faithful w events p)
    (steady : Steady (events ++ [.present now])) :
    Faithful w (events ++ [.present now]) (p.presented now) := by
  have read : readings (events ++ [.present now]) = readings events ++ [now] :=
    readings_append events [.present now]
  rcases faithful.present steady.follows with ⟨-, passed, same⟩ | ⟨due, drew, drawn⟩
  · rw [Projection.presented, passed, same]
    exact { faithful with
      read := read ▸ faithful.read.trans (List.sublist_append_left ..) }
  · rw [Projection.presented, drew, drawn]
    exact {
      opened := faithful.opened
      interval := faithful.interval
      last := List.getLast?_concat.symm
      read := read ▸ faithful.read.append (.refl _)
      spaced := faithful.spaced_concat steady.before due
      shows := fun _ _ => rfl }

/-- Any other event leaves the window alone, and either leaves the screen alone, too, or marks
it. -/
theorem Faithful.apply_of_reading?_eq_none {event : Event} (faithful : Faithful w events p)
    (silent : event.reading? = none) : Faithful w (events ++ [event]) (event.apply p) := by
  have read : readings (events ++ [event]) = readings events := by
    rw [readings_append, readings, readings, List.filterMap_cons, silent]
    exact List.append_nil _
  have marked (screen : Screen) (dirty : screen.dirty = true) :
      Faithful w (events ++ [event]) { p with screen := screen } :=
    { faithful with
      read := read ▸ faithful.read
      shows := fun _ clean => by cases dirty.symm.trans clean }
  cases event with
  | draw x y rows =>
    rw [Event.apply, Screen.draw_eq_raiseOr]
    cases p.screen.drawFault? rows with
    | some e => exact { faithful with read := read ▸ faithful.read }
    | none => exact marked (p.screen.drawn x y rows) rfl
  | clear => exact marked p.screen.clear rfl
  | present now => cases silent

/-! ## Many events -/

/-- **A projection stays faithful.** -/
theorem faithful_after (opened : w.desktop.displayOpen = true) (unused : w.limiter.last = none)
    (screen : Screen) (steady : Steady events) :
    Faithful w events ((start w screen).after events) := by
  induction events using List.reverseRecOn with
  | nil => exact {
      opened := opened
      interval := rfl
      last := unused
      read := .slnil
      spaced := .nil
      shows := fun drew => absurd rfl drew }
  | append_singleton events event ih =>
    have earlier := ih steady.before
    rw [after_concat]
    cases reading : event.reading? with
    | none => exact earlier.apply_of_reading?_eq_none reading
    | some now =>
      cases event with
      | present _ => exact earlier.presented steady
      | _ => cases reading

/-- **Changes of a screen reach the window**, at most one presentation in an interval. An open window
that has presented nothing presents a screen, at readings of the clock that are taken as exact
numbers and never decrease, while the screen is drawn on and cleared. No two presentations that
draw are closer than the interval. Every presentation returns; it is passed over exactly if it comes
too soon after the last one that drew, and leaves the window and the screen alone then. And whenever
the screen is not marked, and a presentation drew, the window shows the raster of the screen. -/
theorem changes_reach_window (opened : w.desktop.displayOpen = true)
    (unused : w.limiter.last = none) (screen : Screen) (events : List Event)
    (steady : Steady events) :
    (((start w screen).after events).drawings.Pairwise fun earlier later =>
      ¬w.limiter.interval.Exceeds (later.value - earlier.value)) ∧
    (∀ before now later, before ++ .present now :: later = events →
      let p := (start w screen).after before
      (p.window.present now p.screen).answer = .ok () ∧
      (p.window.draws now p.screen = false ↔ ∃ last, p.drawings.getLast? = some last ∧
        w.limiter.interval.Exceeds (now.value - last.value)) ∧
      (p.window.draws now p.screen = false →
        p.window.present now p.screen = ⟨.ok (), p.screen, p.window⟩) ∧
      (p.window.draws now p.screen = true →
        (p.window.present now p.screen).world.drawn = some p.screen.raster)) ∧
    (((start w screen).after events).drawings ≠ [] →
      ((start w screen).after events).screen.dirty = false →
      ((start w screen).after events).window.drawn =
        some ((start w screen).after events).screen.raster) := by
  have faithful := faithful_after opened unused screen steady
  refine ⟨faithful.spaced, ?_, faithful.shows⟩
  rintro before now later rfl p
  have earlier : Faithful w before p := faithful_after opened unused screen steady.before
  rw [← earlier.interval]
  rcases earlier.present steady.follows with ⟨soon, passed, same⟩ | ⟨due, drew, drawn⟩
  · rw [passed, same]
    exact ⟨rfl, iff_of_true rfl soon, fun _ => rfl, nofun⟩
  · rw [drew, drawn]
    exact ⟨rfl, iff_of_false (by decide) due, nofun, fun _ => rfl⟩

/-- A pixel is lit between two presentations that are the 128th part of a second apart, of which a
window with the usual limiter passes the second one over. The third presentation, the 32nd part of a
second after the first one, shows the pixel. -/
theorem changes_reach_window_passedOver :
    let w : Window := {
      desktop := { Desktop.standard with displayOpen := true }
      width := 640
      height := 320
      drawn := none
      limiter := ⟨.finite false 4803839602528529 (-58), none⟩
      audio := ⟨⟨100, 1⟩, false⟩ }
    let screen := Screen.blank 64 32
    let first : Number := .real (.finite false (2 ^ 52) (-52))
    let second : Number := .real (.finite false (2 ^ 52 + 2 ^ 45) (-52))
    let third : Number := .real (.finite false (2 ^ 52 + 2 ^ 47) (-52))
    let events := [.present first, .draw 0 0 [128], .present second, .present third]
    let p := (start w screen).after [.present first, .draw 0 0 [128]]
    Limiter.make Limiter.standardRate = .ok w.limiter ∧ w.desktop.displayOpen = true ∧
      Steady events ∧
      p.window.draws second p.screen = false ∧
      p.window.present second p.screen = ⟨.ok (), p.screen, p.window⟩ ∧
      ((start w screen).after events).window.drawn =
        some ((start w screen).after events).screen.raster ∧
      ((start w screen).after events).screen.raster.lit 0 0 = true := by
  intro w screen first second third events p
  have follows : second.Follows first ∧ third.Follows first ∧ third.Follows second :=
    ⟨⟨by norm_num [first, second, Number.value, Binary64.value],
      .real (.finite false (2 ^ 52) (-59)), by decide +kernel, trivial,
      by norm_num [first, second, Number.value, Binary64.value]⟩,
    ⟨by norm_num [first, third, Number.value, Binary64.value],
      .real (.finite false (2 ^ 52) (-57)), by decide +kernel, trivial,
      by norm_num [first, third, Number.value, Binary64.value]⟩,
    ⟨by norm_num [second, third, Number.value, Binary64.value],
      .real (.finite false (3 * 2 ^ 51) (-58)), by decide +kernel, trivial,
      by norm_num [second, third, Number.value, Binary64.value]⟩⟩
  have steady : Steady events := by
    have read : readings events = [first, second, third] := rfl
    simp [Steady, read, follows]
  obtain ⟨-, presentations, shows⟩ := changes_reach_window (w := w) rfl rfl screen events steady
  obtain ⟨-, -, passed, -⟩ :=
    presentations [.present first, .draw 0 0 [128]] second [.present third] rfl
  have passedOver : p.window.draws second p.screen = false := by decide +kernel
  exact ⟨by decide +kernel, rfl, steady, passedOver, passed passedOver,
    shows (by decide +kernel) (by decide +kernel), by decide +kernel⟩

end Projection

end ChipEight
