import ModalKeys.Proofs.Keyboard.Ignored
import ModalKeys.Proofs.Keymap.Chords
import ModalKeys.Proofs.Session.Display
import ModalKeys.Proofs.Session.Nesting

namespace ModalKeys

open Keyboard (Follows)

namespace Session

section Keys

variable {s s' : Session}

theorem keys_clearLine (s : Session) : s.clearLine.keyboard.keys = s.keyboard.keys :=
  congrArg (·.keyboard.keys) (core_clearLine s)

theorem keys_clearChord (s : Session) : s.clearChord.keyboard.keys = s.keyboard.keys :=
  congrArg (·.keyboard.keys) (core_clearChord s)

theorem keys_prompted (s : Session) (p : Prompt) :
    (s.prompted p).keyboard.keys = s.keyboard.keys := by
  have hl : (if p.label.isEmpty then s.clearLine
      else s.clearLine.assign promptName p.label).keyboard.keys = s.keyboard.keys := by
    split
    · exact keys_clearLine s
    · rw [keyboard_assign]
      exact keys_clearLine s
  unfold prompted
  dsimp only
  split
  · exact hl
  · split <;> exact hl

/-- No reaction holds a key or lets go of one. -/
theorem keys_follow (s : Session) (r : Reaction) : (s.follow r).keyboard.keys = s.keyboard.keys := by
  cases hd : r.displays with
  | false => exact congrArg Keyboard.keys (unwritten_keyboard.follow hd s)
  | true =>
    cases r with
    | clearActive =>
      change s.clearActive.keyboard.keys = s.keyboard.keys
      unfold clearActive
      split
      · exact keys_clearChord s
      · exact keys_clearLine s
    | prompt p => exact keys_prompted s p
    | run b args => cases hd
    | enterStack => cases hd
    | leaveStack restore => cases hd

theorem keys_turn (s : Session) (note : Notification) (text : Text) :
    (s.turn note text).keyboard.keys = s.keyboard.keys :=
  List.foldlRecOn (motive := fun t : Session => t.keyboard.keys = s.keyboard.keys) _ follow rfl
    fun t ht r _ => (keys_follow t r).trans ht

theorem keys_refresh (s : Session) (m : Modifiers) (old : Input) :
    (s.refresh m old).keyboard.keys = s.keyboard.keys :=
  congrArg (·.keyboard.keys) (core_refresh s m old)

end Keys

end Session

namespace Dispatch

/-- A match holds no key and lets go of none, and nor do the lines that it fills in. -/
theorem keys_run {d : Dispatch} {limit : Nat} {t : Session} (h : d.keymap.Reachable)
    (hr : d.run limit = some t) : t.keyboard.keys = d.session.keyboard.keys := by
  -- On the limit: a line that is filled in is matched under the limit below.
  induction limit generalizing d t with
  | zero =>
    cases hf : d.fillsLine with
    | false =>
      rw [run_of_not_fillsLine h.sound hf] at hr
      cases hr
      exact Session.keys_turn d.session d.note d.text
    | true =>
      rw [run_zero h.sound hf] at hr
      cases hr
  | succ limit ih =>
    have hturn : d.turn.keyboard.keys = d.session.keyboard.keys :=
      Session.keys_turn d.session d.note d.text
    rw [run_succ h.sound] at hr
    split at hr
    · obtain ⟨inner, hi, rfl⟩ := Option.map_eq_some_iff.1 hr
      have hinner : inner.keyboard.keys = d.inner.session.keyboard.keys := ih (reachable_inner h) hi
      rw [Session.keys_refresh, hinner, Dispatch.inner, Session.session_onChange]
      exact hturn
    · cases hr
      exact hturn

end Dispatch

namespace Session

section Presses

variable {s s' : Session} {field key : Text}

theorem keys_update {m : Modifiers} (hk : s.keymap.Reachable) (hu : s.update m = some s') :
    s'.keyboard.keys = s.keyboard.keys := by
  obtain ⟨limit, -, he⟩ := s.update_eq m
  rw [he] at hu
  obtain ⟨matched, hm, rfl⟩ := Option.map_eq_some_iff.1 hu
  have hkeymap : (s.onChange m).keymap.Reachable := by
    rw [Dispatch.keymap, session_onChange]
    exact hk
  rw [keys_refresh, Dispatch.keys_run hkeymap hm, session_onChange]

/-- Whatever binds make of a press, the keys are those that it leaves. -/
theorem keys_keyPress (hk : s.keymap.Reachable) (hp : s.keyPress field key = some s') :
    s'.keyboard.keys = (s.keyboard.press field key s.isTyping).2.keys := by
  unfold keyPress at hp
  generalize s.keyboard.press field key s.isTyping = pressed at hp ⊢
  obtain ⟨press, keyboard⟩ := pressed
  cases press with
  | update m => exact keys_update (s := { s with keyboard }) hk hp
  | cleared =>
    cases hp
    rw [keyboard_assign]

/-- Of the keys that a rule ignores a press brings none to be held. -/
theorem follows_keyPress (hk : s.keymap.Reachable) (hp : s.keyPress field key = some s') :
    Follows s.keyboard s'.keyboard :=
  (s.keyboard.follows_press field key s.isTyping).trans (.of_keys (keys_keyPress hk hp))

/-- Presses of keys, each with its modifiers. -/
def presses (ps : List (Text × Text)) : List Request :=
  ps.map fun (field, key) => .event (.keyPress field key)

theorem serveAll_presses {ps : List (Text × Text)} (hk : s.keymap.Reachable)
    (hs : s.serveAll (presses ps) = some s') :
    s'.keymap.Reachable ∧ Follows s.keyboard s'.keyboard := by
  induction ps generalizing s with
  | nil =>
    cases hs
    exact ⟨hk, .of_keys rfl⟩
  | cons p ps ih =>
    obtain ⟨field, key⟩ := p
    obtain ⟨next, hn, hrest⟩ := Option.bind_eq_some_iff.1 hs
    rw [serve, handle, map_session_accepted] at hn
    obtain ⟨hk', hfollows⟩ := ih (reachable_invariant.keyPress hk hn) hrest
    exact ⟨hk', (follows_keyPress hk hn).trans hfollows⟩

end Presses

/-- After any presses that leave a chord active, an ignored key that was not held before them is not
held after them either. Its release submits the chord all the same, and the chord is over then, with
the same keys held as before; if all binds have commands, nothing keeps the release from its end.
Without a bind for the chord that is all; a bind that fits it first and has no further segments is
run. -/
theorem ignored_release {s s' : Session} (hk : s.keymap.Reachable) {ps : List (Text × Text)}
    (hs : s.serveAll (presses ps) = some s') (hc : s'.input.chording = true) {key : Text}
    (h : s.keyboard.Ignores key) (hheld : s.keyboard.token key ∉ s.input.held) :
    let k := s'.keymap
    let note := Notification.chordExec s'.input.held
    let chord := s'.input.chord
    let m := k.matching s'.mode note chord
    s'.keyboard.token key ∉ s'.input.held ∧
    s'.keyRelease [] key = (s'.notify note chord).map clearChord ∧
    ((∀ b ∈ s'.allBinds, b.isCommands = true) → ∃ t, s'.keyRelease [] key = some t) ∧
    (∀ t, s'.keyRelease [] key = some t →
      t.input.held = s'.input.held ∧ t.input.chording = false ∧ t.input.chord = []) ∧
    (m = [] → s'.keyRelease [] key = some s'.clearChord) ∧
    (∀ b later, m = b :: later → b.goesOn k.stack.depth = false →
      ∃ t, s'.keyRelease [] key = some t ∧ t.ran = s'.ran ++ [⟨b, k.argsOf b chord⟩]) := by
  intro k note chord m
  obtain ⟨hk', hfollows⟩ := serveAll_presses hk hs
  have hfree : s'.keyboard.token key ∉ s'.input.held := h.not_mem_held hheld hfollows
  let d : Dispatch := ⟨s', note, chord⟩
  have hd : d.keymap.Sound := hk'.sound
  have hrelease : s'.keyRelease [] key = (d.run s'.limit).map clearChord := by
    have hchord : s'.input.chordText = chord := if_pos hc
    unfold keyRelease
    rw [(h.of_follows hfollows).release_eq hfree hc]
    dsimp only
    rw [hchord]
    rfl
  refine ⟨hfree, hrelease, fun hcommands => ?_, fun t ht => ?_, fun hm => ?_, fun b later hm hl => ?_⟩
  · have hconf : d.Confined s'.allBinds := ⟨hd, List.Subset.refl _⟩
    have hsome : (d.run s'.limit).isSome = true :=
      hconf.run_isSome hcommands (fun b hb => length_segments_le hb) (by omega)
    obtain ⟨matched, hmatched⟩ := Option.isSome_iff_exists.1 hsome
    exact ⟨matched.clearChord, by rw [hrelease, hmatched, Option.map_some]⟩
  · rw [hrelease] at ht
    obtain ⟨matched, hmatched, rfl⟩ := Option.map_eq_some_iff.1 ht
    have hkeys : matched.clearChord.keyboard.keys = s'.keyboard.keys :=
      (keys_clearChord matched).trans (Dispatch.keys_run (d := d) hk' hmatched)
    have hinput : matched.clearChord.input = matched.input.clearChord :=
      congrArg (·.keyboard.input) (core_clearChord matched)
    refine ⟨congrArg Keyboard.Keys.held hkeys, ?_, ?_⟩
    · rw [hinput]
      rfl
    · rw [hinput]
      rfl
  · have hidle : d.keymap.step d.mode d.note d.text = ([], d.keymap.stack) := by
      obtain ⟨hr, hstack⟩ :=
        (Keymap.step_outcome hd d.mode note chord).of_unmatched_chord hd rfl hm
      exact Prod.ext hr hstack
    rw [hrelease, Dispatch.run_of_idle hidle, Option.map_some]
  · have hran : d.turn.ran = s'.ran ++ [⟨b, k.argsOf b chord⟩] := Dispatch.ran_of_last hd hm hl
    rw [hrelease, Dispatch.run_of_not_fillsLine hd (Dispatch.fillsLine_of_last hd hm hl),
      Option.map_some]
    exact ⟨_, rfl, (frame_clearChord d.turn).ran.trans hran⟩

/-- A bind for a chord that is submitted. -/
def cutRequests : List Request := [.event (.modeBind "command <Ctrl>x! = cut".toList)]

/-- The keys of a chord, with the shift key pressed on the way. -/
def shiftedChord (key : Text) : List (Text × Text) :=
  [([], "Control_L".toList), ([], "Shift_L".toList), ([], key)]

/-- The shift key ends a chord for which there is no bind. -/
theorem ignored_release_unmatched :
    ∃ s s', (start .initial (Registry.empty.editAll [])).serveAll cutRequests = some s ∧
      s.serveAll (presses (shiftedChord ['y'])) = some s' ∧ s'.input.chording = true ∧
      s.keyboard.Ignores "Shift_L".toList ∧
      s.keyboard.token "Shift_L".toList ∉ s.input.held ∧
      s'.keyRelease [] "Shift_L".toList = some s'.clearChord := by
  have hview : ((start .initial (Registry.empty.editAll [])).serveAll cutRequests).any (fun s =>
      (s.keyboard.Ignores "Shift_L".toList ∧
        s.keyboard.token "Shift_L".toList ∉ s.input.held : Bool) &&
      (s.serveAll (presses (shiftedChord ['y']))).any fun s' => s'.input.chording &&
        (s'.keymap.matching s'.mode (.chordExec s'.input.held) s'.input.chord).isEmpty) = true := by
    decide +kernel
  obtain ⟨s, hs, hview⟩ := (Option.any_eq_true _ _).1 hview
  obtain ⟨hview, hnext⟩ := Bool.and_eq_true_iff.1 hview
  obtain ⟨hkey, hheld⟩ := of_decide_eq_true hview
  obtain ⟨s', hs', hnext⟩ := (Option.any_eq_true _ _).1 hnext
  obtain ⟨hc, hm⟩ := Bool.and_eq_true_iff.1 hnext
  obtain ⟨-, -, -, -, hnone, -⟩ := ignored_release (reachable_serveAll _ [] _ hs) hs' hc hkey hheld
  exact ⟨s, s', hs, hs', hc, hkey, hheld, hnone (List.isEmpty_iff.1 hm)⟩

/-- With a bind for the chord the shift key submits it while all of its own keys are still down. -/
theorem ignored_release_submits :
    ∃ s s' t, (start .initial (Registry.empty.editAll [])).serveAll cutRequests = some s ∧
      s.serveAll (presses (shiftedChord ['x'])) = some s' ∧
      s.keyboard.Ignores "Shift_L".toList ∧
      s.keyboard.token "Shift_L".toList ∉ s.input.held ∧
      s'.input.chording = true ∧ s'.input.chord = ['x'] ∧ s'.sent = [] ∧
      s'.keyRelease [] "Shift_L".toList = some t ∧
      t.input.chording = false ∧ t.input.chord = [] ∧ t.sent = ["cut".toList] := by
  have hview : ((start .initial (Registry.empty.editAll [])).serveAll cutRequests).any (fun s =>
      (s.keyboard.Ignores "Shift_L".toList ∧
        s.keyboard.token "Shift_L".toList ∉ s.input.held : Bool) &&
      (s.serveAll (presses (shiftedChord ['x']))).any fun s' =>
        (s'.input.chording = true ∧ s'.input.chord = ['x'] ∧ s'.sent = [] : Bool) &&
        (s'.keyRelease [] "Shift_L".toList).any fun t => (t.input.chording = false ∧
          t.input.chord = [] ∧ t.sent = ["cut".toList] : Bool)) = true := by
    decide +kernel
  obtain ⟨s, hs, hview⟩ := (Option.any_eq_true _ _).1 hview
  obtain ⟨hview, hnext⟩ := Bool.and_eq_true_iff.1 hview
  obtain ⟨hkey, hheld⟩ := of_decide_eq_true hview
  obtain ⟨s', hs', hnext⟩ := (Option.any_eq_true _ _).1 hnext
  obtain ⟨hview, hnext⟩ := Bool.and_eq_true_iff.1 hnext
  obtain ⟨hc, hchord, hsent⟩ := of_decide_eq_true hview
  obtain ⟨t, ht, hnext⟩ := (Option.any_eq_true _ _).1 hnext
  obtain ⟨hover, hempty, hsent'⟩ := of_decide_eq_true hnext
  exact ⟨s, s', t, hs, hs', hkey, hheld, hc, hchord, hsent, ht, hover, hempty, hsent'⟩

end Session

end ModalKeys
