import ChipEight.Host.Headless
import ChipEight.Proofs.Host.Files
import ChipEight.Proofs.Host.Pictures
import ChipEight.Proofs.Machine.Access
import Mathlib.Data.List.Induction

/-!
# Recordings of a screen

A display that writes pictures into a directory is to write every screen that it is shown, so that
after a presentation that succeeds the picture written last shows the screen. A `Recording` is such a
display with the screen, the files and that picture, as it was found under its name when it was
written. Others may change the files at any time, so that a presentation may fail.

The display takes a screen for shown before it writes the picture. If the writing fails, the next
presentations pass the screen over, and succeed, until it is drawn on or cleared
(`unsaved_of_staysClean`). `shows_iff_nothing_lost` says that this is the only way in which a picture
is lost.
-/

namespace ChipEight

/-! ## Presentations of a recorder -/

namespace FrameRecorder

variable {d : FrameRecorder} {screen : Screen} {files : FileTree}

/-- A picture that was saved is the picture of the raster, and was written under its name. -/
theorem write_of_save {directory : Path} {raster : Raster} {files' : FileTree}
    (saved : d.save directory raster files = .ok files') :
    ∃ picture, Picture.render raster d.zoom .white .black = .ok picture ∧
      files.write (directory.child (frameName d.written)).text (.picture picture) = .ok files' := by
  unfold save at saved
  cases drawn : Picture.render raster d.zoom .white .black with
  | error e =>
    rw [drawn] at saved
    cases saved
  | ok picture =>
    rw [drawn] at saved
    simp only [bind, Except.bind] at saved
    cases written :
        files.write (directory.child (frameName d.written)).text (.picture picture) with
    | error e =>
      rw [written] at saved
      cases saved
    | ok _ =>
      rw [written] at saved
      cases saved
      exact ⟨picture, rfl, written⟩

/-- A display that is made was shown nothing and has written nothing. -/
theorem make_eq_ok {directory : Option String} {zoom : Int} {files' : FileTree}
    (built : make directory zoom files = .ok (d, files')) :
    d = ⟨directory.map Path.ofText, zoom, 0, 0, none⟩ := by
  cases directory with
  | none =>
    cases built
    rfl
  | some text =>
    unfold make at built
    dsimp only at built
    cases made : files.makeDirectories (Path.ofText text) with
    | error e =>
      rw [made] at built
      cases built
    | ok _ =>
      rw [made] at built
      cases built
      rfl

/-- A display that is made writes into its directory, and was shown nothing. -/
theorem directory_of_make {directory : String} {zoom : Int} {files' : FileTree}
    (built : make (some directory) zoom files = .ok (d, files')) :
    d.directory ≠ none ∧ d.lastFrame = none := by
  rw [make_eq_ok built]
  exact ⟨Option.some_ne_none _, rfl⟩

/-- What a presentation asks before it passes a screen over. -/
theorem passes_iff : (!screen.dirty && d.lastFrame.isSome) = true ↔
    screen.dirty = false ∧ d.lastFrame ≠ none := by
  rw [Bool.and_eq_true, Bool.not_eq_true', Option.isSome_iff_ne_none]

/-- A screen that is taken for shown is passed over. -/
theorem present_of_clean (clean : screen.dirty = false) (shown : d.lastFrame ≠ none)
    (files : FileTree) :
    d.present screen files = ⟨.ok (), screen, { d with presented := d.presented + 1 }, files⟩ := by
  rw [present, if_pos (passes_iff.mpr ⟨clean, shown⟩)]

/-- A screen that is not taken for shown is taken for shown from now on, and is written. -/
theorem present_of_due {directory : Path} (writes : d.directory = some directory)
    (due : ¬(screen.dirty = false ∧ d.lastFrame ≠ none)) (files : FileTree) :
    d.present screen files =
      match d.save directory screen.raster files with
      | .ok files => ⟨.ok (), { screen with dirty := false },
          { d with presented := d.presented + 1, lastFrame := some screen.raster,
                   written := d.written + 1 }, files⟩
      | .error e => ⟨.error e, { screen with dirty := false },
          { d with presented := d.presented + 1, lastFrame := some screen.raster }, files⟩ := by
  rw [present, if_neg (due ∘ passes_iff.mp)]
  simp only [writes]
  rfl

/-- A presentation leaves the directory and the enlargement alone. -/
theorem settings_present (d : FrameRecorder) (screen : Screen) (files : FileTree) :
    (d.present screen files).world.1.directory = d.directory ∧
      (d.present screen files).world.1.zoom = d.zoom := by
  unfold present
  dsimp only
  split
  · exact ⟨rfl, rfl⟩
  · split
    · exact ⟨rfl, rfl⟩
    · split <;> exact ⟨rfl, rfl⟩

end FrameRecorder

/-! ## Recordings -/

/-- A display with the screen that it shows and the files, and the picture that it wrote last. -/
structure Recording where
  display : FrameRecorder
  screen : Screen
  files : FileTree
  saved : Option Picture

namespace Recording

/-- What happens to a recording. -/
inductive Event where
  | draw (x y : Int) (rows : List UInt8)
  | clear
  | present
  /-- Somebody else changes the files, as by removing the directory or making it again. -/
  | disturb (change : FileTree → FileTree)

/-- A recording before anything was written. -/
def start (display : FrameRecorder) (screen : Screen) (files : FileTree) : Recording :=
  ⟨display, screen, files, none⟩

/-- What a presentation of the screen answers. -/
def answer (r : Recording) : Except Fault Unit := (r.display.present r.screen r.files).answer

theorem error_of_ne_ok {r : Recording} (failed : r.answer ≠ .ok ()) : ∃ e, r.answer = .error e := by
  cases refused : r.answer with
  | error e => exact ⟨e, rfl⟩
  | ok _ => exact absurd refused failed

/-- The picture that stands in the files under the next name. -/
def newest? (r : Recording) (files : FileTree) : Option Picture :=
  r.display.directory.bind fun directory =>
    match files.at? (directory.child (FrameRecorder.frameName r.display.written)).text with
    | some (.picture picture) => some picture
    | _ => none

/-- The recording after a presentation of the screen. -/
def presented (r : Recording) : Recording :=
  let shown := r.display.present r.screen r.files
  { display := shown.world.1
    screen := shown.screen
    files := shown.world.2
    saved :=
      if shown.world.1.written = r.display.written then r.saved else r.newest? shown.world.2 }

/-- The recording after an event. A draw that is refused changes nothing. -/
def Event.apply (r : Recording) : Event → Recording
  | .draw x y rows =>
    match r.screen.draw x y rows with
    | .ok (screen, _) => { r with screen := screen }
    | .error _ => r
  | .clear => { r with screen := r.screen.clear }
  | .present => r.presented
  | .disturb change => { r with files := change r.files }

/-- The recording after a list of events. -/
def after (r : Recording) (events : List Event) : Recording := events.foldl Event.apply r

theorem after_append (r : Recording) (first second : List Event) :
    r.after (first ++ second) = (r.after first).after second :=
  List.foldl_append

theorem after_concat (r : Recording) (events : List Event) (event : Event) :
    r.after (events ++ [event]) = event.apply (r.after events) :=
  r.after_append events [event]

/-- The picture written last shows the raster of the screen, and no other raster. -/
def Shows (r : Recording) : Prop :=
  ∃ picture, r.saved = some picture ∧
    ∀ raster, Picture.render raster r.display.zoom .white .black = .ok picture ↔
      raster = r.screen.raster

/-- The next presentation passes the screen over. -/
def TakenForShown (r : Recording) : Prop := r.screen.dirty = false ∧ r.display.lastFrame ≠ none

/-- Whatever happens, the screen is at no time dirty. -/
def StaysClean (r : Recording) (events : List Event) : Prop :=
  ∀ early, early <+: events → (r.after early).screen.dirty = false

/-- A presentation fails after some events, and the screen is at no time dirty during the later
ones. -/
structure Lost (r : Recording) (before later : List Event) : Prop where
  failed : ∃ e, (r.after before).answer = .error e
  clean : (r.after (before ++ [.present])).StaysClean later

/-- The second recording has the raster of the first one, and nothing was written for it. -/
structure Unsaved (r r' : Recording) : Prop where
  saved : r'.saved = r.saved
  zoom : r'.display.zoom = r.display.zoom
  raster : r'.screen.raster = r.screen.raster

variable {r r' r'' : Recording} {event : Event} {events before later : List Event}

theorem Unsaved.refl (r : Recording) : r.Unsaved r where
  saved := rfl
  zoom := rfl
  raster := rfl

theorem Unsaved.trans (first : r.Unsaved r') (second : r'.Unsaved r'') : r.Unsaved r'' where
  saved := second.saved.trans first.saved
  zoom := second.zoom.trans first.zoom
  raster := second.raster.trans first.raster

theorem Unsaved.shows_iff (unsaved : r.Unsaved r') : r'.Shows ↔ r.Shows := by
  rw [Shows, Shows, unsaved.saved, unsaved.zoom, unsaved.raster]

/-! ## One event -/

/-- A presentation that passes the screen over is counted and does nothing else. -/
theorem presented_of_takenForShown (taken : r.TakenForShown) :
    r.answer = .ok () ∧ r.presented =
      { r with display := { r.display with presented := r.display.presented + 1 } } := by
  have passed := FrameRecorder.present_of_clean taken.1 taken.2 r.files
  simp only [answer, presented, passed, if_pos, and_self]

/-- A screen that is taken for shown is passed over, and the presentation succeeds. -/
theorem TakenForShown.presented (taken : r.TakenForShown) :
    r.answer = .ok () ∧ r.presented.TakenForShown ∧ r.Unsaved r.presented := by
  obtain ⟨returned, presented⟩ := presented_of_takenForShown taken
  rw [presented]
  exact ⟨returned, taken, { saved := rfl, zoom := rfl, raster := rfl }⟩

/-- A presentation that is not passed over and whose picture is saved. -/
theorem presented_of_saved {directory : Path} (writes : r.display.directory = some directory)
    (due : ¬r.TakenForShown) {files : FileTree}
    (saved : r.display.save directory r.screen.raster r.files = .ok files) :
    r.answer = .ok () ∧ r.presented =
      { display := { r.display with
          presented := r.display.presented + 1
          lastFrame := some r.screen.raster
          written := r.display.written + 1 }
        screen := { r.screen with dirty := false }
        files
        saved := r.newest? files } := by
  have shown := FrameRecorder.present_of_due writes due r.files
  rw [saved] at shown
  simp only [answer, presented, shown, if_neg (Nat.succ_ne_self _), and_self]

/-- A presentation that is not passed over and whose picture cannot be saved. -/
theorem presented_of_unsaved {directory : Path} (writes : r.display.directory = some directory)
    (due : ¬r.TakenForShown) {e : Fault}
    (unsaved : r.display.save directory r.screen.raster r.files = .error e) :
    r.answer = .error e ∧ r.presented =
      { r with
        display := { r.display with
          presented := r.display.presented + 1
          lastFrame := some r.screen.raster }
        screen := { r.screen with dirty := false } } := by
  have shown := FrameRecorder.present_of_due writes due r.files
  rw [unsaved] at shown
  simp only [answer, presented, shown, if_pos, and_self]

/-- **A presentation that is not passed over** writes the picture of the screen, or it fails and the
screen is taken for shown. -/
theorem presented_of_due (writes : r.display.directory ≠ none) (due : ¬r.TakenForShown) :
    (r.answer = .ok () ∧ r.presented.Shows) ∨
      ((∃ e, r.answer = .error e) ∧ r.presented.TakenForShown ∧ r.Unsaved r.presented) := by
  obtain ⟨directory, writes⟩ := Option.ne_none_iff_exists'.mp writes
  cases saved : r.display.save directory r.screen.raster r.files with
  | error e =>
    obtain ⟨failed, presented⟩ := presented_of_unsaved writes due saved
    rw [presented]
    exact .inr ⟨⟨e, failed⟩, ⟨rfl, Option.some_ne_none _⟩,
      { saved := rfl, zoom := rfl, raster := rfl }⟩
  | ok files =>
    obtain ⟨returned, presented⟩ := presented_of_saved writes due saved
    obtain ⟨picture, drawn, written⟩ := FrameRecorder.write_of_save saved
    have newest : r.newest? files = some picture := by
      rw [newest?, writes, Option.bind_some, FileTree.at?_of_write written]
    rw [presented, newest]
    refine .inl ⟨returned, picture, rfl, fun raster => ⟨fun same => ?_, fun same => ?_⟩⟩
    · exact Picture.render_injective same drawn
    · rw [same]
      exact drawn

/-- Any other event leaves the display and the picture that was written last alone, and either leaves
the screen alone, too, or makes it dirty. -/
theorem apply_of_ne_present (r : Recording) (other : event ≠ .present) :
    (event.apply r).display = r.display ∧ (event.apply r).saved = r.saved ∧
      ((event.apply r).screen = r.screen ∨ (event.apply r).screen.dirty = true) := by
  cases event with
  | draw x y rows =>
    simp only [Event.apply, Screen.draw_eq_raiseOr]
    cases r.screen.drawFault? rows with
    | some e => exact ⟨rfl, rfl, .inl rfl⟩
    | none => exact ⟨rfl, rfl, .inr rfl⟩
  | clear => exact ⟨rfl, rfl, .inr rfl⟩
  | present => exact absurd rfl other
  | disturb change => exact ⟨rfl, rfl, .inl rfl⟩

/-- A screen that is taken for shown stays so unless an event makes it dirty, and nothing is
written. -/
theorem TakenForShown.apply (taken : r.TakenForShown)
    (clean : (event.apply r).screen.dirty = false) :
    (event.apply r).TakenForShown ∧ r.Unsaved (event.apply r) := by
  by_cases presents : event = .present
  · subst presents
    exact taken.presented.2
  · obtain ⟨display, saved, same | dirty⟩ := r.apply_of_ne_present presents
    · exact ⟨⟨clean, display ▸ taken.2⟩,
        { saved
          zoom := congrArg FrameRecorder.zoom display
          raster := congrArg Screen.raster same }⟩
    · cases clean.symm.trans dirty

/-- Only a presentation makes a screen that is not taken for shown one that is. -/
theorem eq_present_of_takenForShown (due : ¬r.TakenForShown)
    (taken : (event.apply r).TakenForShown) : event = .present := by
  refine Classical.byContradiction fun other => ?_
  obtain ⟨display, -, same | dirty⟩ := r.apply_of_ne_present other
  · exact due ⟨same ▸ taken.1, display ▸ taken.2⟩
  · cases taken.1.symm.trans dirty

/-- A display keeps its directory and its enlargement. -/
theorem settings_after (r : Recording) (events : List Event) :
    (r.after events).display.directory = r.display.directory ∧
      (r.after events).display.zoom = r.display.zoom := by
  induction events using List.reverseRecOn with
  | nil => exact ⟨rfl, rfl⟩
  | append_singleton events event ih =>
    rw [after_concat, ← ih.1, ← ih.2]
    by_cases presents : event = .present
    · subst presents
      exact FrameRecorder.settings_present _ _ _
    · rw [((r.after events).apply_of_ne_present presents).1]
      exact ⟨rfl, rfl⟩

theorem directory_after (r : Recording) (events : List Event) :
    (r.after events).display.directory = r.display.directory :=
  (r.settings_after events).1

theorem zoom_after (r : Recording) (events : List Event) :
    (r.after events).display.zoom = r.display.zoom :=
  (r.settings_after events).2

/-- Without a presentation, the display stays as it is, and nothing is written. -/
theorem silent_after (r : Recording) (silent : ∀ event ∈ events, event ≠ .present) :
    (r.after events).display = r.display ∧ (r.after events).saved = r.saved := by
  induction events generalizing r with
  | nil => exact ⟨rfl, rfl⟩
  | cons event rest ih =>
    obtain ⟨display, saved, -⟩ := r.apply_of_ne_present (silent event List.mem_cons_self)
    obtain ⟨display', saved'⟩ :=
      ih (event.apply r) fun other among => silent other (List.mem_cons_of_mem _ among)
    exact ⟨display'.trans display, saved'.trans saved⟩

theorem saved_after (r : Recording) (silent : ∀ event ∈ events, event ≠ .present) :
    (r.after events).saved = r.saved :=
  (r.silent_after silent).2

/-! ## Many events -/

theorem StaysClean.nil (clean : r.screen.dirty = false) : r.StaysClean [] := by
  intro early among
  rw [List.prefix_nil.mp among]
  exact clean

theorem StaysClean.concat (clean : r.StaysClean events)
    (last : (event.apply (r.after events)).screen.dirty = false) :
    r.StaysClean (events ++ [event]) := by
  intro early among
  rcases List.prefix_concat_iff.mp among with rfl | among
  · rw [after_concat]
    exact last
  · exact clean early among

/-- **A picture that was not written is not made up for**: while a screen that is taken for shown
stays clean, nothing is written, and a presentation succeeds. -/
theorem unsaved_of_staysClean (taken : r.TakenForShown) (clean : r.StaysClean events) :
    (r.after events).TakenForShown ∧ r.Unsaved (r.after events) := by
  induction events using List.reverseRecOn with
  | nil => exact ⟨taken, .refl r⟩
  | append_singleton events event ih =>
    obtain ⟨taken, unsaved⟩ := ih fun early among => clean early (among.trans (List.prefix_append ..))
    have last := clean (events ++ [event]) List.prefix_rfl
    rw [after_concat] at last ⊢
    obtain ⟨taken', unsaved'⟩ := taken.apply last
    exact ⟨taken', unsaved.trans unsaved'⟩

/-- What a presentation failed to write stays unsaved for as long as the screen stays clean. -/
theorem Lost.unsaved (writes : r.display.directory ≠ none) (lost : r.Lost before later) :
    (r.after (before ++ .present :: later)).TakenForShown ∧
      (r.after before).Unsaved (r.after (before ++ .present :: later)) := by
  obtain ⟨e, failed⟩ := lost.failed
  have due : ¬(r.after before).TakenForShown := fun taken => by
    cases taken.presented.1.symm.trans failed
  have first : r.after (before ++ [.present]) = (r.after before).presented :=
    after_concat r before .present
  rcases presented_of_due ((r.directory_after before).symm ▸ writes) due with
    ⟨returned, -⟩ | ⟨-, taken, unsaved⟩
  · cases returned.symm.trans failed
  · rw [List.append_cons, after_append, first]
    obtain ⟨taken', unsaved'⟩ := unsaved_of_staysClean taken (first ▸ lost.clean)
    exact ⟨taken', unsaved.trans unsaved'⟩

/-- If a screen is taken for shown, its picture was written, or it was lost. -/
theorem shows_or_lost (writes : r.display.directory ≠ none) (unshown : r.display.lastFrame = none)
    (taken : (r.after events).TakenForShown) :
    (r.after events).Shows ∨
      ∃ before later, before ++ .present :: later = events ∧ r.Lost before later := by
  induction events using List.reverseRecOn with
  | nil => exact absurd unshown taken.2
  | append_singleton events event ih =>
    rw [after_concat] at taken ⊢
    by_cases earlier : (r.after events).TakenForShown
    · rcases ih earlier with shows | ⟨before, later, rfl, failed, clean⟩
      · exact .inl ((earlier.apply taken.1).2.shows_iff.mpr shows)
      · refine .inr ⟨before, later ++ [event], ?_, failed, clean.concat ?_⟩
        · rw [List.append_assoc, List.cons_append]
        · rw [← after_append, List.append_assoc, List.singleton_append]
          exact taken.1
    · obtain rfl := eq_present_of_takenForShown earlier taken
      rcases presented_of_due ((r.directory_after events).symm ▸ writes) earlier with
        ⟨-, shows⟩ | ⟨failed, taken, -⟩
      · exact .inl shows
      · refine .inr ⟨events, [], rfl, failed, .nil ?_⟩
        rw [after_concat]
        exact taken.1

/-- **A recording loses a picture exactly when it fails to write one.** A display that writes into a
directory is made, and presents a screen at the end of any events. If this presentation succeeds, the
picture that was written last shows the screen exactly if no picture was lost: whenever an earlier
presentation failed and the screen was not dirty since, the picture from before shows it anyway. -/
theorem shows_iff_nothing_lost {directory : String} {zoom : Int} {files files' : FileTree}
    {display : FrameRecorder}
    (built : FrameRecorder.make (some directory) zoom files = .ok (display, files'))
    {screen : Screen} {events : List Event}
    (returned : ((start display screen files').after events).answer = .ok ()) :
    ((start display screen files').after (events ++ [.present])).Shows ↔
      ∀ before later, before ++ .present :: later = events →
        (start display screen files').Lost before later →
        ((start display screen files').after before).Shows := by
  obtain ⟨writes, unshown⟩ := FrameRecorder.directory_of_make built
  rw [after_concat]
  by_cases taken : ((start display screen files').after events).TakenForShown
  · refine taken.presented.2.2.shows_iff.trans ⟨?_, fun recovered => ?_⟩
    · rintro shows before later rfl lost
      exact (lost.unsaved writes).2.shows_iff.mp shows
    · rcases shows_or_lost writes unshown taken with shows | ⟨before, later, rfl, lost⟩
      · exact shows
      · exact (lost.unsaved writes).2.shows_iff.mpr (recovered before later rfl lost)
  · rcases presented_of_due ((directory_after _ events).symm ▸ writes) taken with
      ⟨-, shows⟩ | ⟨⟨e, failed⟩, -⟩
    · refine iff_of_true shows ?_
      rintro before later rfl lost
      exact absurd (lost.unsaved writes).1 taken
    · cases returned.symm.trans failed

/-- A blank screen of the usual size and a new display with a directory for its pictures. -/
def opened : Recording :=
  start ⟨some (Path.ofText "fr"), 4, 0, 0, none⟩ (.blank 64 32)
    { entries := [(["fr"], .directory)] }

theorem make_opened (zoom : Int) : FrameRecorder.make (some "fr") zoom .empty =
    .ok (⟨some (Path.ofText "fr"), zoom, 0, 0, none⟩, opened.files) := by
  have made : FileTree.empty.makeDirectory "fr" = .ok opened.files :=
    FileTree.makeDirectory_eq_ok_iff.mpr
      ⟨["fr"], by decide +kernel, by decide +kernel, rfl, rfl⟩
  have path : Path.ofText "fr" = ⟨"", ["fr"]⟩ := by decide +kernel
  have text : Path.text ⟨"", ["fr"]⟩ = "fr" := by decide +kernel
  have settled : FileTree.empty.makeDirectories ⟨"", ["fr"]⟩ = .ok opened.files := by
    simp [FileTree.makeDirectories, FileTree.makeDirectoriesTo, FileTree.ensureDirectory, text,
      made]
  unfold FrameRecorder.make
  dsimp only
  rw [path, settled]

/-- The screen is presented, a pixel of it is lit, and the directory is removed. -/
def interrupted : List Event :=
  [.present, .draw 0 0 [128], .disturb fun files => files.remove "fr"]

/-- The second presentation cannot write its picture, and the third one succeeds without it. -/
theorem presentation_lost :
    FrameRecorder.make (some "fr") 4 .empty = .ok (opened.display, opened.files) ∧
      (∃ e, (opened.after interrupted).answer = .error e) ∧
      (opened.after (interrupted ++ [.present])).answer = .ok () ∧
      ¬(opened.after (interrupted ++ [.present, .present])).Shows := by
  have failed : ∃ e, (opened.after interrupted).answer = .error e :=
    error_of_ne_ok (by decide +kernel)
  have returned : (opened.after (interrupted ++ [.present])).answer = .ok () := by decide +kernel
  refine ⟨make_opened 4, failed, returned, ?_⟩
  have writes : opened.display.directory ≠ none := Option.some_ne_none _
  have first : (opened.after [.present]).Shows := by
    rcases presented_of_due writes (fun taken => taken.2 rfl) with ⟨-, shows⟩ | ⟨⟨e, refused⟩, -⟩
    · exact shows
    · have accepted : opened.answer = .ok () := by decide +kernel
      cases accepted.symm.trans refused
  have lost : opened.Lost interrupted [.present] :=
    ⟨failed, (StaysClean.nil (by decide +kernel)).concat (by decide +kernel)⟩
  -- The picture that was written last is the one of the blank screen.
  have saved : (opened.after (interrupted ++ [.present, .present])).saved =
      (opened.after [.present]).saved := by
    have split : interrupted =
      [.present] ++ [.draw 0 0 [128], .disturb fun files => files.remove "fr"] := rfl
    rw [(lost.unsaved writes).2.saved, split, after_append]
    exact saved_after _ (by simp)
  rintro ⟨picture, written, shows⟩
  obtain ⟨picture', written', shows'⟩ := first
  rw [saved, written'] at written
  obtain rfl := Option.some.inj written
  have zoom : (opened.after (interrupted ++ [.present, .present])).display.zoom =
      (opened.after [.present]).display.zoom := by decide +kernel
  have blank : (opened.after (interrupted ++ [.present, .present])).screen.raster =
      (opened.after [.present]).screen.raster := (shows' _).mp (zoom ▸ (shows _).mpr rfl)
  have lit : (opened.after (interrupted ++ [.present, .present])).screen.raster.lit 0 0 ≠
      (opened.after [.present]).screen.raster.lit 0 0 := by decide +kernel
  exact lit (congrArg (fun raster => raster.lit 0 0) blank)

/-- Another pixel is lit once the directory is back: the presentation writes the screen after all. -/
theorem shows_iff_nothing_lost_mended :
    let mended := interrupted ++ [.present,
      .disturb fun files => files.plant (Path.ofText "fr") .directory, .draw 0 1 [1]]
    (∃ e, (opened.after interrupted).answer = .error e) ∧
      (opened.after mended).answer = .ok () ∧ (opened.after (mended ++ [.present])).Shows := by
  intro mended
  have failed : ∃ e, (opened.after interrupted).answer = .error e :=
    error_of_ne_ok (by decide +kernel)
  have returned : (opened.after mended).answer = .ok () := by decide +kernel
  refine ⟨failed, returned, (shows_iff_nothing_lost (make_opened 4) returned).mpr ?_⟩
  intro before later split lost
  have clean : (opened.after mended).screen.dirty = false := by
    have last := lost.clean later List.prefix_rfl
    rwa [← after_append, ← List.append_cons, split] at last
  have dirty : (opened.after mended).screen.dirty = true := by decide +kernel
  cases clean.symm.trans dirty

end Recording

end ChipEight
