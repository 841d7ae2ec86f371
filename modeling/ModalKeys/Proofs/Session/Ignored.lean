import ModalKeys.Proofs.Keyboard.Ignored
import ModalKeys.Proofs.Keymap.Eviction
import ModalKeys.Proofs.Session.Completing

namespace ModalKeys

namespace Keymap

variable {k : Keymap} {mode : Text} {note : Notification} {text : Text}

/-- A scan that asks for nothing and leaves the stack has found no bind that fits and dropped
none. -/
theorem Outcome.of_idle (h : k.Sound) {reactions : List Reaction} {stack : Stack}
    (ho : k.Outcome mode note text reactions stack) (hr : reactions = []) (hs : stack = k.stack) :
    k.matching mode note text = [] ∧
      ∀ b ∈ k.stack.binds, b.isDead k.stack.depth note text = false := by
  cases ho with
  | idle unmatched stays =>
    refine ⟨unmatched, fun b hb => ?_⟩
    have hd : k.stack.depth ≠ 0 := fun h0 => by
      rw [(h.stack.depth_eq_zero_iff.1 h0).2] at hb
      cases hb
    rw [kept_of_no_match h hd unmatched] at hs
    have hall := List.filter_eq_self.1 (congrArg Stack.binds hs) b hb
    simpa using hall
  | unwound unmatched stacked ends => cases hr
  | alone fitted last free => cases hr
  | live fitted last bound stacked trigger => cases hr
  | completed fitted last bound stacked trigger => cases hr
  | moved fitted more =>
    have hdepth := congrArg Stack.depth hs
    exact absurd hdepth (Nat.succ_ne_self k.stack.depth)

theorem respond_idle_iff :
    k.respond mode note text = ([], k) ↔ k.step mode note text = ([], k.stack) := by
  constructor
  · intro hr
    have hreactions : (k.respond mode note text).1 = [] := congrArg Prod.fst hr
    have hstack : (k.respond mode note text).2.stack = k.stack := congrArg (·.2.stack) hr
    exact Prod.ext hreactions hstack
  · intro hs
    unfold respond
    rw [hs]

/-- A line that is matched once more comes to nothing just where no bind fits it and no bind on the
stack is stranded by it. -/
theorem step_idle_iff (h : k.Sound) (m : Modifiers) :
    k.step mode (.commandUpdate m) text = ([], k.stack) ↔
      k.matching mode (.commandUpdate m) text = [] ∧
        ∀ b ∈ k.stack.binds, ¬b.Stranded k.stack.depth text := by
  constructor
  · intro hs
    obtain ⟨hm, hdead⟩ := (step_outcome h mode (.commandUpdate m) text).of_idle h
      (congrArg Prod.fst hs) (congrArg Prod.snd hs)
    refine ⟨hm, fun b hb hstranded => ?_⟩
    have htrue := (b.isDead_commandUpdate_iff _ m text).2 hstranded
    rw [hdead b hb] at htrue
    cases htrue
  · rintro ⟨hm, hfree⟩
    by_cases hd : k.stack.depth = 0
    · exact step_of_unmatched h hd hm
    · have hkept : k.kept mode (.commandUpdate m) text = k.stack := by
        have hall : k.stack.binds.filter (!·.isDead k.stack.depth (.commandUpdate m) text) =
            k.stack.binds := by
          refine List.filter_eq_self.2 fun b hb => ?_
          rw [Bool.not_eq_true', Bool.eq_false_iff]
          exact mt (b.isDead_commandUpdate_iff _ m text).1 (hfree b hb)
        rw [kept_of_no_match h hd hm, hall]
        rfl
      rw [step_of_no_fit k hm, hkept, start_close h.stack.pending, Stack.giveUp]
      have hsubmits : (Notification.commandUpdate m).submits = false := rfl
      simp [hsubmits, h.binds_ne_nil hd]

end Keymap

namespace Session

variable {s : Session} {key : Text}

/-- Holds when the host shows the line and the hints as they are, and no chord. -/
structure UpToDate (s : Session) : Prop where
  line : s.isTyping = true → s.Displayed
  chord : s.vars.isEnabled chordsShownName = true → s.vars.get? chordName = none
  ended : s.Tidy
  hints : ∀ p, s.keyword? = some p → s.completion.level.lists = true →
    s.listed = Variables.assigned (s.completion.list p.word)

instance (s : Session) : Decidable s.Displayed :=
  inferInstanceAs (Decidable (s.shown = if s.input.line = [] then none else some s.input.markup))

instance (s : Session) : Decidable s.Tidy :=
  inferInstanceAs (Decidable (s.keyword? = none → s.Ended))

instance (s : Session) : Decidable s.UpToDate :=
  decidable_of_iff
    ((s.isTyping = true → s.Displayed) ∧
      (s.vars.isEnabled chordsShownName = true → s.vars.get? chordName = none) ∧ s.Tidy ∧
      ∀ p ∈ s.keyword?, s.completion.level.lists = true →
        s.listed = Variables.assigned (s.completion.list p.word))
    ⟨fun h => ⟨h.1, h.2.1, h.2.2.1, h.2.2.2⟩, fun h => ⟨h.line, h.chord, h.ended, h.hints⟩⟩

section UpToDate

theorem assign_of_get? {name value : Text} (h : s.vars.get? name = Variables.assigned value) :
    s.assign name value = s := by
  have hc : s.vars.changes name value = false := by simp [Variables.changes, h]
  unfold assign
  rw [hc]
  rfl

theorem stopCompletion_of_ended (h : s.Ended) : s.stopCompletion = s := by
  have hstop : { s with completion := s.completion.stop } = s := by
    unfold Completion.stop
    rw [← h.level]
  unfold stopCompletion
  rw [hstop]
  exact assign_of_get? h.listed

theorem UpToDate.refreshHints_eq (h : s.UpToDate) : s.refreshHints = s := by
  unfold refreshHints
  split
  · next hk => exact stopCompletion_of_ended (h.ended hk)
  · next p hp =>
    split
    · next hl => exact assign_of_get? (h.hints p hp hl)
    · rfl

theorem UpToDate.showChord_eq (h : s.UpToDate) (hc : s.input.chording = false) (m : Modifiers)
    (old : Input) : s.showChord m old = s := by
  unfold showChord
  split
  · next hshown =>
    rw [hc]
    simp only [Bool.not_false, Bool.or_true, if_true]
    exact assign_of_get? (h.chord hshown)
  · rfl

theorem UpToDate.showLine_eq (h : s.UpToDate) : s.showLine s.input = s := by
  unfold showLine
  split
  · next htyping =>
    have hd := h.line htyping
    unfold Displayed at hd
    split
    · next hempty =>
      rw [if_pos (List.isEmpty_iff.1 hempty)] at hd
      exact assign_of_get? hd
    · next hline =>
      rw [if_neg (mt List.isEmpty_iff.2 hline)] at hd
      rw [if_pos rfl]
      exact assign_of_get? (hd.trans (assigned_markup _).symm)
  · rfl

/-- There is nothing to bring up to date where all is. -/
theorem UpToDate.refresh_eq (h : s.UpToDate) (hc : s.input.chording = false) (m : Modifiers) :
    s.refresh m s.input = s := by
  unfold refresh
  dsimp only
  rw [hc, if_neg Bool.false_ne_true, h.refreshHints_eq, h.showChord_eq hc, h.showLine_eq]

end UpToDate

/-- While no key is held and no chord is active, the press of an ignored key matches the line once
more. Nothing is asked for and the stack is left just where no bind fits the line and none on the
stack is stranded; then the display is brought up to date and that is all. A bind that fits the line
first and has no further segments is run, although nothing has changed. -/
theorem ignored_press (hk : s.keymap.Reachable) (hheld : s.input.held = ∅)
    (hc : s.input.chording = false) (h : s.keyboard.Ignores key) :
    let k := s.keymap
    let d := k.stack.depth
    let line := s.input.line
    let m := k.matching s.mode (.commandUpdate ∅) line
    s.keyPress [] key = s.update ∅ ∧
    (k.respond s.mode (.commandUpdate ∅) line = ([], k) ↔
      m = [] ∧ ∀ b ∈ k.stack.binds, ¬b.Stranded d line) ∧
    (m = [] → (∀ b ∈ k.stack.binds, ¬b.Stranded d line) →
      ∃ s', s.keyPress [] key = some s' ∧ s'.core = s.core ∧ Frame (· ∈ displayNames) s s' ∧
        (s.UpToDate → s' = s)) ∧
    (∀ b later, m = b :: later → b.goesOn d = false →
      ∃ s', s.keyPress [] key = some s' ∧ s'.ran = s.ran ++ [⟨b, k.argsOf b line⟩]) := by
  intro k d line m
  have hpress : s.keyPress [] key = s.update ∅ := by
    unfold keyPress
    rw [h.press_idle hheld hc]
  have hchange : s.onChange ∅ = ⟨s, .commandUpdate ∅, line⟩ := by
    unfold onChange
    rw [hc]
    rfl
  refine ⟨hpress, Keymap.respond_idle_iff.trans (Keymap.step_idle_iff hk.sound ∅),
    fun hm hfree => ?_, fun b later hm hl => ?_⟩
  · have hidle := (Keymap.step_idle_iff hk.sound ∅).2 ⟨hm, hfree⟩
    refine ⟨s.refresh ∅ s.input, ?_, core_refresh s ∅ s.input, frame_refresh s ∅ s.input,
      fun hup => hup.refresh_eq hc ∅⟩
    rw [hpress]
    refine update_of_idle ?_
    rw [hchange]
    exact hidle
  · obtain ⟨limit, -, hu⟩ := s.update_eq ∅
    have hd : (s.onChange ∅).keymap.Sound := by
      rw [hchange]
      exact hk.sound
    have hmatch : (s.onChange ∅).matching = b :: later := by
      rw [hchange]
      exact hm
    have hlast : b.goesOn (s.onChange ∅).depth = false := by
      rw [hchange]
      exact hl
    have hran := Dispatch.ran_of_last hd hmatch hlast
    rw [hpress, hu, Dispatch.run_of_not_fillsLine hd (Dispatch.fillsLine_of_last hd hmatch hlast),
      Option.map_some]
    refine ⟨_, rfl, ?_⟩
    rw [(frame_refresh _ ∅ s.input).ran, hran, hchange]
    rfl

/-- Requests that bind `v` with any argument to the volume and type a line. -/
def volumeLine (line : Text) : List Request :=
  [.event (.modeBind "command v* = volume %s".toList), .event (.setLine line)]

/-- The shift key leaves a line alone that no bind fits. -/
theorem ignored_press_unmatched :
    ∃ s, (start .initial (Registry.empty.editAll [])).serveAll (volumeLine "ab".toList) = some s ∧
      s.input.held = ∅ ∧ s.input.chording = false ∧ s.keyboard.Ignores "Shift_L".toList ∧
      s.keymap.matching s.mode (.commandUpdate ∅) s.input.line = [] ∧
      s.keyPress [] "Shift_L".toList = some s := by
  have hview : ((start .initial (Registry.empty.editAll [])).serveAll (volumeLine "ab".toList)).any
      (fun s => (s.input.held = ∅ ∧ s.input.chording = false ∧
        s.keyboard.Ignores "Shift_L".toList ∧ s.UpToDate ∧
        (s.keymap.matching s.mode (.commandUpdate ∅) s.input.line).isEmpty = true ∧
        s.keymap.stack.binds.isEmpty = true : Bool)) = true := by decide +kernel
  obtain ⟨s, hs, hview⟩ := (Option.any_eq_true _ _).1 hview
  obtain ⟨hheld, hc, hkey, hup, hm, hb⟩ := of_decide_eq_true hview
  rw [List.isEmpty_iff] at hm hb
  have hfree : ∀ b ∈ s.keymap.stack.binds,
      ¬b.Stranded s.keymap.stack.depth s.input.line := by simp [hb]
  obtain ⟨-, -, hidle, -⟩ := ignored_press (reachable_serveAll _ [] _ hs) hheld hc hkey
  obtain ⟨s', hs', -, -, hsame⟩ := hidle hm hfree
  exact ⟨s, hs, hheld, hc, hkey, hm, hs'.trans (congrArg some (hsame hup))⟩

/-- Where the bind fits the line, the shift key sets the volume once more. -/
theorem ignored_press_runs_again :
    ∃ s s', (start .initial (Registry.empty.editAll [])).serveAll (volumeLine "v5".toList) = some s ∧
      s.input.held = ∅ ∧ s.input.chording = false ∧ s.keyboard.Ignores "Shift_L".toList ∧
      s.keyPress [] "Shift_L".toList = some s' ∧ s'.input = s.input ∧
      s.sent = ["volume 5".toList] ∧ s'.sent = ["volume 5".toList, "volume 5".toList] ∧
      s'.ran ≠ s.ran := by
  have hview : ((start .initial (Registry.empty.editAll [])).serveAll (volumeLine "v5".toList)).any
      (fun s => (s.input.held = ∅ ∧ s.input.chording = false ∧
        s.keyboard.Ignores "Shift_L".toList ∧ s.sent = ["volume 5".toList] ∧ s.ran.length = 1 : Bool) &&
        (s.keyPress [] "Shift_L".toList).any fun s' => (s'.input = s.input ∧
          s'.sent = ["volume 5".toList, "volume 5".toList] ∧ s'.ran.length = 2 : Bool)) = true := by
    decide +kernel
  obtain ⟨s, hs, hview⟩ := (Option.any_eq_true _ _).1 hview
  obtain ⟨hview, hnext⟩ := Bool.and_eq_true_iff.1 hview
  obtain ⟨hheld, hc, hkey, hsent, hran⟩ := of_decide_eq_true hview
  obtain ⟨s', hs', hnext⟩ := (Option.any_eq_true _ _).1 hnext
  obtain ⟨hinput, hsent', hran'⟩ := of_decide_eq_true hnext
  refine ⟨s, s', hs, hheld, hc, hkey, hs', hinput, hsent, hsent', fun he => ?_⟩
  rw [he, hran] at hran'
  cases hran'

end Session

end ModalKeys
