import ChipEight.Proofs.Host.Recording
import ChipEight.Proofs.Machine.Drawing

/-!
# The frames of a recording

A display that records keeps the raster that was presented last. A screen that is not dirty looks as
it did then, so that it is right to pass it over: the two parts of the state go together, although
the draws and clears set the one and the presentations the other, and although pictures may fail to
be written.

A presentation is due if it is the first one, or if anything was drawn or cleared since the one
before it. `occasions` numbers the events at which presentations are due. If all pictures can be
written, there is one for each occasion, named by its number, and it stays in the directory.
-/

namespace ChipEight

/-! ## The names of the pictures -/

namespace FrameRecorder

theorem toList_frameName (n : Nat) : ∃ zeros, (frameName n).toList =
    "frame_".toList ++ (List.replicate zeros '0' ++ Nat.toDigits 10 n) ++ ".png".toList := by
  refine ⟨6 - (toString n).length, ?_⟩
  simp only [frameName, sixDigits, String.toList_append, String.toList_ofList,
    Nat.toString_eq_ofList_toDigits]

/-- The characters in the name of a picture. -/
theorem mem_frameName {n : Nat} {c : Char} (among : c ∈ (frameName n).toList) :
    c ∈ "frame_.png".toList ∨ c.isDigit = true := by
  obtain ⟨zeros, spelled⟩ := toList_frameName n
  have either : "frame_.png".toList = "frame_".toList ++ ".png".toList := by decide
  rw [either]
  rw [spelled] at among
  rcases List.mem_append.mp among with front | last
  · rcases List.mem_append.mp front with first | digits
    · exact .inl (List.mem_append_left _ first)
    · rcases List.mem_append.mp digits with zero | digit
      · rw [List.eq_of_mem_replicate zero]
        exact .inr rfl
      · exact .inr (Nat.isDigit_of_mem_toDigits (by decide) (by decide) digit)
  · exact .inl (List.mem_append_right _ last)

theorem hasNull_frameName (n : Nat) : FileTree.hasNull (frameName n) = false := by
  refine Path.hasNull_eq_false_iff.mpr fun null => ?_
  have other := mem_frameName null
  revert other
  decide

/-- The name of a picture names a file of the directory. -/
theorem isPlain_frameName (n : Nat) : FileTree.IsPlain (frameName n) := by
  obtain ⟨zeros, spelled⟩ := toList_frameName n
  have starts : (frameName n).toList.head? = some 'f' := by
    rw [spelled]
    rfl
  refine { unslashed := ?_, notEmpty := ?_, notHere := ?_, notUp := ?_ }
  · intro slash
    have other := mem_frameName slash
    revert other
    decide
  all_goals
    intro same
    rw [same] at starts
    revert starts
    decide

/-- Pictures with different numbers have different names, however many digits they have. -/
theorem frameName_injective {n m : Nat} (same : frameName n = frameName m) : n = m := by
  obtain ⟨zeros, spelled⟩ := toList_frameName n
  obtain ⟨zeros', spelled'⟩ := toList_frameName m
  rw [same, spelled'] at spelled
  have digits : List.replicate zeros' '0' ++ Nat.toDigits 10 m =
      List.replicate zeros '0' ++ Nat.toDigits 10 n :=
    List.append_cancel_left (List.append_cancel_right spelled)
  have value (zeros n : Nat) :
      Nat.ofDigitChars 10 (List.replicate zeros '0' ++ Nat.toDigits 10 n) 0 = n := by
    rw [Nat.ofDigitChars_append, Nat.ofDigitChars_replicate_zero, Nat.mul_zero,
      Nat.ofDigitChars_toDigits (by decide) (by decide)]
  rw [← value zeros n, ← digits, value]

/-- A screen that is not passed over is kept, and is clean from now on. -/
theorem present_keeps {d : FrameRecorder} {screen : Screen}
    (due : ¬(screen.dirty = false ∧ d.lastFrame ≠ none)) (files : FileTree) :
    (d.present screen files).world.1.lastFrame = some screen.raster ∧
      (d.present screen files).screen = { screen with dirty := false } := by
  rw [present, if_neg (due ∘ passes_iff.mp)]
  dsimp only
  split
  · exact ⟨rfl, rfl⟩
  · split <;> exact ⟨rfl, rfl⟩

/-- The path of a picture in a directory. -/
def framePath (directory : String) (n : Nat) : String :=
  ((Path.ofText directory).child (frameName n)).text

/-- Pictures with different numbers stand at different places. -/
theorem locate_framePath_ne {files : FileTree} {directory : String} {n m : Nat} (other : n ≠ m)
    {place : Place} (found : files.locate (framePath directory n) = .ok place) :
    files.locate (framePath directory m) ≠ .ok place := by
  intro found'
  obtain ⟨up, rfl⟩ := FileTree.locate_child (isPlain_frameName n) found
  obtain ⟨up', same⟩ := FileTree.locate_child (isPlain_frameName m) found'
  obtain ⟨-, names⟩ := List.append_singleton_inj.mp same
  exact other (frameName_injective names)

end FrameRecorder

namespace Recording

variable {r : Recording} {event : Event} {events before later : List Event}

/-! ## The raster that is kept -/

/-- After a presentation the screen is taken for shown, and shows what it did before. -/
theorem takenForShown_presented (r : Recording) :
    r.presented.TakenForShown ∧ r.presented.screen.raster = r.screen.raster := by
  by_cases taken : r.TakenForShown
  · rw [(presented_of_takenForShown taken).2]
    exact ⟨taken, rfl⟩
  · obtain ⟨kept, clean⟩ := FrameRecorder.present_keeps taken r.files
    have screen : r.presented.screen = { r.screen with dirty := false } := clean
    have lastFrame : r.presented.display.lastFrame = some r.screen.raster := kept
    rw [TakenForShown, screen, lastFrame]
    exact ⟨⟨rfl, Option.some_ne_none _⟩, rfl⟩

/-- The display was shown nothing for as long as there was no presentation. -/
theorem lastFrame_eq_none_iff (unshown : r.display.lastFrame = none) (events : List Event) :
    (r.after events).display.lastFrame = none ↔ .present ∉ events := by
  induction events using List.reverseRecOn with
  | nil => exact iff_of_true unshown List.not_mem_nil
  | append_singleton events event ih =>
    rw [after_concat, List.mem_append, List.mem_singleton]
    by_cases presents : event = .present
    · subst presents
      exact iff_of_false (r.after events).takenForShown_presented.1.2 fun absent =>
        absent (.inr rfl)
    · rw [((r.after events).apply_of_ne_present presents).1, ih]
      exact not_congr (or_iff_left fun same => presents same.symm).symm

/-- **The raster that is kept is the one of the screen**, while the screen is taken for shown. -/
theorem lastFrame_after (unshown : r.display.lastFrame = none)
    (taken : (r.after events).TakenForShown) :
    (r.after events).display.lastFrame = some (r.after events).screen.raster := by
  induction events using List.reverseRecOn with
  | nil => exact absurd unshown taken.2
  | append_singleton events event ih =>
    rw [after_concat] at taken ⊢
    by_cases presents : event = .present
    · subst presents
      change (r.after events).presented.display.lastFrame =
        some (r.after events).presented.screen.raster
      by_cases earlier : (r.after events).TakenForShown
      · rw [(presented_of_takenForShown earlier).2]
        exact ih earlier
      · rw [(r.after events).takenForShown_presented.2]
        exact (FrameRecorder.present_keeps earlier (r.after events).files).1
    · obtain ⟨display, -, same | dirty⟩ := (r.after events).apply_of_ne_present presents
      · rw [display, same]
        exact ih ⟨same ▸ taken.1, display ▸ taken.2⟩
      · cases taken.1.symm.trans dirty

/-- **The raster that is kept is the one of the latest presentation**, although later events draw on
the screen or clear it. -/
theorem lastFrame_after_present (unshown : r.display.lastFrame = none)
    (silent : ∀ event ∈ later, event ≠ .present) :
    (r.after (before ++ .present :: later)).display.lastFrame =
      some (r.after before).screen.raster := by
  have presented : r.after (before ++ [.present]) = (r.after before).presented :=
    after_concat r before .present
  have taken : (r.after (before ++ [.present])).TakenForShown := by
    rw [presented]
    exact (r.after before).takenForShown_presented.1
  rw [List.append_cons, after_append, (silent_after _ silent).1, lastFrame_after unshown taken,
    presented, (r.after before).takenForShown_presented.2]

/-! ## Presentations that are due -/

def Event.presents : Event → Bool
  | .present => true
  | _ => false

theorem eq_present_of_presents (presents : event.presents = true) : event = .present := by
  cases event with
  | present => rfl
  | _ => cases presents

/-- Does the event draw on a screen or clear it? A draw that the screen refuses does not. -/
def Event.marks (s : Screen) : Event → Bool
  | .draw x y rows => (s.draw x y rows).isOk
  | .clear => true
  | _ => false

/-- Is a presentation after some events due? It is if it is the first one, or if anything was drawn
or cleared since the one before it. -/
def due (s : Screen) (events : List Event) : Bool :=
  !events.any Event.presents ||
    (events.reverse.takeWhile fun event => !event.presents).any (Event.marks s)

/-- The numbers of the events that are presentations and due. -/
def occasions (s : Screen) (events : List Event) : List Nat :=
  (List.range events.length).filter fun n =>
    events[n]?.any Event.presents && due s (events.take n)

variable {s : Screen}

theorem due_concat (s : Screen) (events : List Event) (event : Event) :
    due s (events ++ [event]) = (!event.presents && (event.marks s || due s events)) := by
  cases presents : event.presents with
  | true => simp [due, presents]
  | false =>
    simp only [due, List.any_append, List.any_cons, List.any_nil, List.reverse_append,
      List.reverse_singleton, List.singleton_append, List.takeWhile_cons, presents, Bool.not_false,
      if_true, Bool.or_false, Bool.true_and]
    exact Bool.or_left_comm _ _ _

theorem occasions_concat (s : Screen) (events : List Event) (event : Event) :
    occasions s (events ++ [event]) =
      occasions s events ++ if event.presents && due s events then [events.length] else [] := by
  have early : ∀ n ∈ List.range events.length,
      ((events ++ [event])[n]?.any Event.presents && due s ((events ++ [event]).take n)) =
        (events[n]?.any Event.presents && due s (events.take n)) := by
    intro n among
    have below := List.mem_range.mp among
    rw [List.getElem?_append_left below, List.take_append_of_le_length (Nat.le_of_lt below)]
  rw [occasions, List.length_append, List.length_singleton, List.range_succ, List.filter_append,
    List.filter_congr early, ← occasions]
  refine congrArg _ ?_
  rw [List.filter_cons, List.filter_nil, List.getElem?_concat_length, List.take_left,
    Option.any_some]

/-- What is refused depends on the sides of the screen only. -/
theorem Event.marks_congr {s' : Screen} (width : s.raster.width = s'.raster.width)
    (height : s.raster.height = s'.raster.height) (event : Event) :
    event.marks s = event.marks s' := by
  cases event with
  | draw x y rows =>
    have same : s.drawFault? rows = s'.drawFault? rows := by
      rw [Screen.drawFault?, Screen.drawFault?, Raster.lacksAxis, Raster.lacksAxis, width, height]
    rw [Event.marks, Event.marks, Screen.draw_eq_raiseOr, Screen.draw_eq_raiseOr, same]
    cases s'.drawFault? rows <;> rfl
  | _ => rfl

theorem sides_after (r : Recording) (events : List Event) :
    (r.after events).screen.raster.width = r.screen.raster.width ∧
      (r.after events).screen.raster.height = r.screen.raster.height := by
  induction events using List.reverseRecOn with
  | nil => exact ⟨rfl, rfl⟩
  | append_singleton events event ih =>
    rw [after_concat]
    cases event with
    | draw x y rows =>
      simp only [Event.apply, Screen.draw_eq_raiseOr]
      cases (r.after events).screen.drawFault? rows with
      | some e => exact ih
      | none =>
        obtain ⟨width, height⟩ := (r.after events).screen.raster.sides_draw x y rows
        exact ⟨width.trans ih.1, height.trans ih.2⟩
    | clear => exact ih
    | present =>
      rw [Event.apply, (r.after events).takenForShown_presented.2]
      exact ih
    | disturb change => exact ih

/-- A screen is no longer taken for shown once something is drawn or cleared. -/
theorem takenForShown_apply_iff (other : event.presents = false) :
    (event.apply r).TakenForShown ↔ event.marks r.screen = false ∧ r.TakenForShown := by
  cases event with
  | draw x y rows =>
    simp only [Event.apply, Event.marks, Screen.draw_eq_raiseOr]
    cases r.screen.drawFault? rows with
    | some e => exact (and_iff_right rfl).symm
    | none => exact iff_of_false (fun taken => Bool.noConfusion taken.1) fun unmarked =>
        Bool.noConfusion unmarked.1
  | clear =>
    exact iff_of_false (fun taken => Bool.noConfusion taken.1) fun unmarked =>
      Bool.noConfusion unmarked.1
  | present => cases other
  | disturb change => exact (and_iff_right rfl).symm

/-- **A presentation is passed over exactly if it is not due.** -/
theorem takenForShown_after_iff (unshown : r.display.lastFrame = none) (events : List Event) :
    (r.after events).TakenForShown ↔ due r.screen events = false := by
  induction events using List.reverseRecOn with
  | nil => exact iff_of_false (fun taken => taken.2 unshown) (by simp [due])
  | append_singleton events event ih =>
    rw [after_concat, due_concat]
    cases presents : event.presents with
    | true =>
      obtain rfl := eq_present_of_presents presents
      exact iff_of_true (r.after events).takenForShown_presented.1 rfl
    | false =>
      obtain ⟨width, height⟩ := r.sides_after events
      rw [takenForShown_apply_iff presents, event.marks_congr width height, ih, Bool.not_false,
        Bool.true_and, Bool.or_eq_false_iff]

/-! ## The pictures in the directory -/

/-- All presentations among some events succeed. -/
def Succeeds (r : Recording) (events : List Event) : Prop :=
  ∀ before later, before ++ .present :: later = events → (r.after before).answer = .ok ()

theorem Succeeds.init (succeeds : r.Succeeds (events ++ [event])) : r.Succeeds events := by
  rintro before later rfl
  exact succeeds before (later ++ [event]) (by simp)

theorem Succeeds.last (succeeds : r.Succeeds (events ++ [.present])) :
    (r.after events).answer = .ok () :=
  succeeds events [] rfl

/-- A presentation at any time would succeed, so that those among the events do. -/
theorem succeeds_of_take (returned : ∀ n < events.length,
    (r.after (events.take n)).answer = .ok ()) : r.Succeeds events := by
  rintro before later rfl
  have early : before.length < (before ++ Event.present :: later).length := by simp
  have answered := returned before.length early
  rwa [List.take_left] at answered

variable {directory : String}

/-- **A presentation that is due and succeeds** writes the picture of the screen under the next
number. -/
theorem presented_of_returned (writes : r.display.directory = some (Path.ofText directory))
    (due : ¬r.TakenForShown) (returned : r.answer = .ok ()) :
    ∃ picture, Picture.render r.screen.raster r.display.zoom .white .black = .ok picture ∧
      r.files.write (FrameRecorder.framePath directory r.display.written) (.picture picture) =
        .ok r.presented.files ∧
      r.presented.display.written = r.display.written + 1 := by
  cases saved : r.display.save (Path.ofText directory) r.screen.raster r.files with
  | error e =>
    obtain ⟨failed, -⟩ := presented_of_unsaved writes due saved
    cases returned.symm.trans failed
  | ok files =>
    obtain ⟨-, presented⟩ := presented_of_saved writes due saved
    obtain ⟨picture, drawn, written⟩ := FrameRecorder.write_of_save saved
    rw [presented]
    exact ⟨picture, drawn, written, rfl⟩

/-- **There is one picture for each occasion**, if all presentations succeed. -/
theorem written_after (writes : r.display.directory = some (Path.ofText directory))
    (unshown : r.display.lastFrame = none) (unwritten : r.display.written = 0)
    (succeeds : r.Succeeds events) :
    (r.after events).display.written = (occasions r.screen events).length := by
  induction events using List.reverseRecOn with
  | nil => exact unwritten
  | append_singleton events event ih =>
    rw [after_concat, occasions_concat, List.length_append, ← ih succeeds.init]
    cases presents : event.presents with
    | true =>
      obtain rfl := eq_present_of_presents presents
      change (r.after events).presented.display.written = _
      by_cases taken : (r.after events).TakenForShown
      · rw [(presented_of_takenForShown taken).2, (takenForShown_after_iff unshown events).mp taken]
        rfl
      · obtain ⟨-, -, -, written⟩ := presented_of_returned
          ((r.directory_after events).trans writes) taken succeeds.last
        have occasion : due r.screen events = true := by
          rwa [takenForShown_after_iff unshown, Bool.not_eq_false] at taken
        rw [written, occasion]
        rfl
    | false =>
      have other : event ≠ .present := by
        rintro rfl
        cases presents
      rw [((r.after events).apply_of_ne_present other).1]
      rfl

/-- A picture that was written stays in the directory. -/
theorem at?_apply (writes : r.display.directory = some (Path.ofText directory)) {n : Nat}
    (early : n < r.display.written) {node : Node}
    (found : r.files.at? (FrameRecorder.framePath directory n) = some node)
    (undisturbed : ∀ change, event ≠ .disturb change)
    (returned : event = .present → r.answer = .ok ()) :
    (event.apply r).files.at? (FrameRecorder.framePath directory n) = some node := by
  cases event with
  | draw x y rows =>
    simp only [Event.apply]
    cases r.screen.draw x y rows <;> exact found
  | clear => exact found
  | present =>
    change r.presented.files.at? _ = _
    by_cases taken : r.TakenForShown
    · rw [(presented_of_takenForShown taken).2]
      exact found
    · obtain ⟨picture, -, written, -⟩ := presented_of_returned writes taken (returned rfl)
      exact FileTree.at?_of_write_elsewhere written found fun place here =>
        FrameRecorder.locate_framePath_ne (Nat.ne_of_gt early) here
  | disturb change => exact absurd rfl (undisturbed change)

theorem lt_of_mem_occasions {n : Nat} (among : n ∈ occasions s events) : n < events.length :=
  List.mem_range.mp (List.mem_of_mem_filter among)

/-- **Every picture shows the screen as it was at its occasion**, if all presentations succeed and
nobody else changes the files. -/
theorem picture_after (writes : r.display.directory = some (Path.ofText directory))
    (unshown : r.display.lastFrame = none) (unwritten : r.display.written = 0)
    (succeeds : r.Succeeds events) (undisturbed : ∀ change, .disturb change ∉ events) {k n : Nat}
    (occasion : (occasions r.screen events)[k]? = some n) :
    ∃ picture, (r.after events).files.at? (FrameRecorder.framePath directory k) =
        some (.picture picture) ∧
      picture.Enlarges (r.after (events.take n)).screen.raster r.display.zoom .white .black := by
  induction events using List.reverseRecOn with
  | nil => cases occasion
  | append_singleton events event ih =>
    have writes' := (r.directory_after events).trans writes
    have written := written_after writes unshown unwritten succeeds.init
    rw [occasions_concat] at occasion
    rw [after_concat]
    by_cases earlier : k < (occasions r.screen events).length
    · rw [List.getElem?_append_left earlier] at occasion
      have before : n ≤ events.length :=
        Nat.le_of_lt (lt_of_mem_occasions (List.mem_of_getElem? occasion))
      obtain ⟨picture, found, enlarges⟩ := ih succeeds.init
        (fun change among => undisturbed change (List.mem_append_left _ among)) occasion
      rw [List.take_append_of_le_length before]
      refine ⟨picture, at?_apply writes' (written ▸ earlier) found ?_ ?_, enlarges⟩
      · rintro change rfl
        exact undisturbed change List.mem_concat_self
      · rintro rfl
        exact succeeds.last
    · rw [List.getElem?_append_right (Nat.le_of_not_lt earlier)] at occasion
      -- Past the earlier occasions, there is the last event at most.
      by_cases now : (event.presents && due r.screen events) = true
      · rw [if_pos now, List.getElem?_singleton] at occasion
        by_cases first : k - (occasions r.screen events).length = 0
        · rw [if_pos first] at occasion
          obtain rfl := Option.some.inj occasion
          obtain ⟨presents, isDue⟩ := Bool.and_eq_true_iff.mp now
          obtain rfl := eq_present_of_presents presents
          have due : ¬(r.after events).TakenForShown := by
            rw [takenForShown_after_iff unshown, isDue]
            exact Bool.noConfusion
          have number : k = (r.after events).display.written := by omega
          obtain ⟨picture, drawn, saved, -⟩ := presented_of_returned writes' due succeeds.last
          rw [zoom_after] at drawn
          rw [List.take_left, number]
          exact ⟨picture, FileTree.at?_of_write saved, Picture.render_enlarges drawn⟩
        · rw [if_neg first] at occasion
          cases occasion
      · rw [if_neg now] at occasion
        cases occasion

/-! ## A recording from its beginning -/

/-- **A recording keeps up with its screen.** A display is made, with a directory or without, and a
screen is drawn on, cleared and presented in any order, while the pictures are written or not. As
soon as there was a presentation, a screen that is not dirty looks like the raster that was kept,
and the raster that was kept is always the one of the latest presentation. With a directory in which
all pictures can be written, there are as many as there were occasions; and if nobody else changes
the files, picture number `k` shows the screen as it was at occasion number `k`. -/
theorem recording_keeps_up {directory : Option String} {zoom : Int} {files files' : FileTree}
    {display : FrameRecorder}
    (built : FrameRecorder.make directory zoom files = .ok (display, files')) (screen : Screen)
    (events : List Event) :
    let r := start display screen files'
    (.present ∈ events → (r.after events).screen.dirty = false →
        (r.after events).display.lastFrame = some (r.after events).screen.raster) ∧
      (∀ before later, before ++ .present :: later = events → .present ∉ later →
        (r.after events).display.lastFrame = some (r.after before).screen.raster) ∧
      ∀ text ∈ directory, r.Succeeds events →
        (r.after events).display.written = (occasions screen events).length ∧
          ((∀ change, .disturb change ∉ events) → ∀ k n, (occasions screen events)[k]? = some n →
            ∃ picture, (r.after events).files.at? (FrameRecorder.framePath text k) =
                some (.picture picture) ∧
              picture.Enlarges (r.after (events.take n)).screen.raster zoom .white .black) := by
  intro r
  obtain rfl := FrameRecorder.make_eq_ok built
  have unshown : r.display.lastFrame = none := rfl
  refine ⟨fun presented clean => ?_, ?_, ?_⟩
  · have shown : (r.after events).display.lastFrame ≠ none := fun none =>
      (lastFrame_eq_none_iff unshown events).mp none presented
    exact lastFrame_after unshown ⟨clean, shown⟩
  · rintro before later rfl silent
    exact lastFrame_after_present unshown fun event among same => silent (same ▸ among)
  · rintro text ⟨⟩ succeeds
    exact ⟨written_after rfl unshown rfl succeeds, fun undisturbed k n occasion =>
      picture_after rfl unshown rfl succeeds undisturbed occasion⟩

/-- A pixel of a small screen is lit, and the screen is cleared later. One of the presentations is
passed over, and the second picture shows the pixel, enlarged. At the end, the screen is clean and
looks like the raster that was kept. -/
theorem recording_keeps_up_drawn :
    let r := start ⟨some (Path.ofText "fr"), 2, 0, 0, none⟩ (.blank 8 2) opened.files
    let early : List Event := [.present, .draw 0 0 [128], .present, .present, .clear]
    let events := early ++ [.present]
    FrameRecorder.make (some "fr") 2 .empty = .ok (r.display, r.files) ∧
      (r.after events).display.lastFrame = some (r.after events).screen.raster ∧
      (r.after events).display.lastFrame = some (r.after early).screen.raster ∧
      r.Succeeds events ∧ occasions r.screen events = [0, 2, 5] ∧
      (r.after events).display.written = 3 ∧
      ∃ picture, (r.after events).files.at? (FrameRecorder.framePath "fr" 1) =
          some (.picture picture) ∧
        picture.Enlarges (r.after (events.take 2)).screen.raster 2 .white .black := by
  intro r early events
  have built : FrameRecorder.make (some "fr") 2 .empty = .ok (r.display, r.files) := make_opened 2
  have clean : (r.after events).screen.dirty = false := by decide +kernel
  have succeeds : r.Succeeds events := succeeds_of_take (by decide +kernel)
  have numbers : occasions r.screen events = [0, 2, 5] := by decide +kernel
  have undisturbed (change : FileTree → FileTree) : .disturb change ∉ events := by
    simp [events, early]
  have whole := recording_keeps_up built r.screen events
  have same : start r.display r.screen r.files = r := rfl
  rw [same] at whole
  obtain ⟨current, latest, kept⟩ := whole
  obtain ⟨written, pictures⟩ := kept "fr" rfl succeeds
  rw [numbers] at written pictures
  exact ⟨built, current List.mem_cons_self clean, latest early [] rfl List.not_mem_nil, succeeds,
    numbers, written, pictures undisturbed 1 2 rfl⟩

end Recording

end ChipEight
