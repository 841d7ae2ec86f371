import ModalKeys.Proofs.Session.Display
import ModalKeys.Proofs.Session.Restoration

namespace ModalKeys

namespace Session

/-- The variable that shows the line and the one that turns its display on. -/
def lineNames : List Text := [lineName, typingName]

/-- Holds when a configuration of the modes names no variable of the display. -/
def ConfigSpares (config : Assoc (Assoc Text)) : Prop :=
  ∀ mode name value, (name, value) ∈ (config.get? mode).getD [] → name ∉ lineNames

/-- With the display of the line on, whatever mode is entered. -/
structure Calm (s : Session) : Prop where
  typing : s.isTyping = true
  config : ConfigSpares s.modeConfig

/-- Holds when two sessions agree on the display of the line. -/
structure Leaves (s s' : Session) : Prop where
  shown : s'.shown = s.shown
  typing : s'.isTyping = s.isTyping
  modeConfig : s'.modeConfig = s.modeConfig

section Leaves

variable {s s' s'' : Session}

theorem isTyping_of_frame {written : Text → Prop} (h : Frame written s s')
    (hw : ¬ written typingName) : s'.isTyping = s.isTyping := by
  unfold isTyping Variables.isEnabled Variables.getD
  rw [h.vars typingName hw]

theorem Frame.leaves (h : Frame (· ∉ lineNames) s s') : Leaves s s' where
  shown := h.vars lineName (by decide)
  typing := isTyping_of_frame h (by decide)
  modeConfig := h.modeConfig

theorem Leaves.refl (s : Session) : Leaves s s := ⟨rfl, rfl, rfl⟩

theorem Leaves.trans (h : Leaves s s') (h' : Leaves s' s'') : Leaves s s'' :=
  ⟨h'.shown.trans h.shown, h'.typing.trans h.typing, h'.modeConfig.trans h.modeConfig⟩

theorem Calm.of_leaves (hc : Calm s) (h : Leaves s s') : Calm s' :=
  ⟨h.typing.trans hc.typing, h.modeConfig ▸ hc.config⟩

theorem Calm.of_frame {written : Text → Prop} (hc : Calm s) (h : Frame written s s')
    (hw : ¬ written typingName) : Calm s' :=
  ⟨(isTyping_of_frame h hw).trans hc.typing, h.modeConfig ▸ hc.config⟩

theorem Leaves.assign {name : Text} (h : name ∉ lineNames) (s : Session) (value : Text) :
    Leaves s (s.assign name value) := (frame_assign h s value).leaves

theorem Leaves.enteredMode (h : ConfigSpares s.modeConfig) (mode : Text) :
    Leaves s (s.enteredMode mode) := by
  have ha : Leaves s (s.assignAll ((s.modeConfig.get? mode).getD [])) :=
    (frame_assignAll (fun name value hm _ => h mode name value hm) s).leaves
  unfold Session.enteredMode
  dsimp only
  split
  · exact ha
  · have hn : promptName ∉ lineNames := by decide
    have hreset : Leaves s { s.assignAll ((s.modeConfig.get? mode).getD []) with
        keymap := (s.assignAll ((s.modeConfig.get? mode).getD [])).keymap.reset } :=
      ⟨ha.shown, ha.typing, ha.modeConfig⟩
    exact hreset.trans (assign hn _ [])

theorem Leaves.setVar {name : Text} (h : name ∉ lineNames) (s : Session) (value : Text) :
    Leaves s { s with vars := s.vars.set name value } := (frame_set h s value).leaves

theorem Leaves.inMode (h : ConfigSpares s.modeConfig) (mode : Text) :
    Leaves s ({ s with vars := s.vars.set modeName mode }.enteredMode mode) := by
  have hn : modeName ∉ lineNames := by decide
  exact (setVar hn s mode).trans
    (enteredMode (s := { s with vars := s.vars.set modeName mode }) h mode)

theorem Leaves.setMode (h : ConfigSpares s.modeConfig) (mode : Text) :
    Leaves s (s.setMode mode) := by
  by_cases hm : s.mode = s.target mode
  · rw [setMode_of_eq hm]
    exact refl s
  · rw [setMode_of_ne hm]
    have he : Leaves s (s.emit (.set modeName (s.target mode))) := (frame_emit s _).leaves
    exact he.trans (inMode (s := s.emit (.set modeName (s.target mode))) h (s.target mode))

theorem Leaves.modeChanged (h : ConfigSpares s.modeConfig) (mode : Text) :
    Leaves s (s.modeChanged mode) := by
  unfold Session.modeChanged
  split
  · exact refl s
  · exact inMode h mode

theorem Leaves.perform (h : ConfigSpares s.modeConfig) {e : Effect}
    (he : ∀ name value, e = .set name value → name ∉ lineNames) : Leaves s (s.perform e) := by
  cases e with
  | send command => exact (frame_send s command).leaves
  | set name value =>
    change Leaves s (s.write name value)
    unfold write
    split
    · exact setMode h value
    · exact assign (he name value rfl) s value

theorem Leaves.run (h : ConfigSpares s.modeConfig) {b : Bind} {args : List Text}
    (hr : Run.Spares lineNames ⟨b, args⟩) : Leaves s (s.run b args) := by
  rw [run_eq]
  refine List.foldlRecOn (motive := fun t : Session => Leaves s t) _ _ ⟨rfl, rfl, rfl⟩
    fun t ht e he => ht.trans ?_
  refine perform (ht.modeConfig ▸ h) fun name value heq => ?_
  subst heq
  exact hr name value he

theorem Leaves.follow (h : ConfigSpares s.modeConfig) {r : Reaction} (hd : r.displays = false)
    (hr : ∀ run, r.run? = some run → run.Spares lineNames) : Leaves s (s.follow r) := by
  cases r with
  | run b args => exact run h (hr _ rfl)
  | clearActive => cases hd
  | enterStack => exact setMode h stackMode
  | prompt p => cases hd
  | leaveStack restore =>
    have ha := assign (by decide : promptName ∉ lineNames) s []
    exact ha.trans (setMode (ha.modeConfig ▸ h) _)

end Leaves

section Turn

variable {s : Session}

theorem Calm.follow (hc : Calm s) {r : Reaction}
    (hr : ∀ run, r.run? = some run → run.Spares lineNames) : Calm (s.follow r) := by
  cases hd : r.displays with
  | false => exact hc.of_leaves (.follow hc.config hd hr)
  | true =>
    cases r with
    | run b args => cases hd
    | clearActive => exact hc.of_frame (frame_clearActive s) (by decide)
    | enterStack => cases hd
    | prompt p => exact hc.of_frame (frame_prompted s p) (by decide)
    | leaveStack restore => cases hd

theorem Calm.foldl_follow {rs : List Reaction} (hc : Calm s)
    (hr : ∀ r ∈ rs.filterMap Reaction.run?, r.Spares lineNames) :
    s.sparesLine rs = true ∧ Calm (rs.foldl Session.follow s) := by
  induction rs generalizing s with
  | nil => exact ⟨rfl, hc⟩
  | cons r rs ih =>
    have hhead : ∀ run, r.run? = some run → run.Spares lineNames := fun run h =>
      hr run (List.mem_filterMap.2 ⟨r, List.mem_cons_self, h⟩)
    have htail : ∀ run ∈ rs.filterMap Reaction.run?, run.Spares lineNames := fun run h => by
      obtain ⟨d, hd, hrun⟩ := List.mem_filterMap.1 h
      exact hr run (List.mem_filterMap.2 ⟨d, List.mem_cons_of_mem r hd, hrun⟩)
    obtain ⟨hspares, hcalm⟩ := ih (hc.follow hhead) htail
    refine ⟨?_, hcalm⟩
    rw [sparesLine, hspares, Bool.and_true, Bool.or_eq_true, decide_eq_true_eq]
    cases hd : r.displays with
    | false => exact .inr (Leaves.follow hc.config hd hhead).shown
    | true => exact .inl rfl

theorem Calm.turn (hc : Calm s) {note : Notification} {text : Text}
    (hr : ∀ r ∈ s.runs note text, r.Spares lineNames) :
    s.turnSparesLine note text = true ∧ Calm (s.turn note text) :=
  foldl_follow (s := s.withStack (s.keymap.step s.mode note text).2) ⟨hc.typing, hc.config⟩ hr

end Turn

section Events

variable {s s' : Session}

/-- What has been run stays in the log. -/
theorem logged_invariant (runs : List Run) :
    Invariant fun s => s.keymap.Reachable ∧ ∀ r ∈ runs, r ∈ s.ran := by
  refine .of_reachable ?_ ?_ ?_
  · intro s s' hf h
    rw [hf.ran]
    exact h
  · intro s note text _ h r hr
    rw [ran_turn]
    exact List.mem_append_left _ (h r hr)
  · exact fun _ _ h => h

/-- A session is calm unless a bind that has been run has not spared the display. -/
theorem calm_invariant : Invariant fun s => s.keymap.Reachable ∧
    ((∀ r ∈ s.ran, r.Spares lineNames) → Calm s) := by
  refine .of_reachable ?_ ?_ ?_
  · intro s s' hf h hr
    rw [hf.ran] at hr
    exact (h hr).of_frame hf (by decide)
  · intro s note text _ h hr
    rw [ran_turn] at hr
    exact ((h fun r hm => hr r (List.mem_append_left _ hm)).turn
      fun r hm => hr r (List.mem_append_right _ hm)).2
  · intro s e h hr
    exact ⟨(h hr).typing, (h hr).config⟩

theorem Leaves.calm (h : Leaves s s') (hc : Calm s) : s'.shown = s.shown ∧ Calm s' :=
  ⟨h.shown, hc.of_leaves h⟩

theorem ConfigSpares.put {config : Assoc (Assoc Text)} (h : ConfigSpares config) (mode : Text)
    {name : Text} (hn : name ∉ lineNames) (value : Text) :
    ConfigSpares (config.put mode (((config.get? mode).getD []).put name value)) := by
  intro m n v hm
  rw [Assoc.get?_put] at hm
  split at hm
  · rcases Assoc.mem_put hm with he | he
    · cases he
      exact hn
    · exact h mode n v he
  · exact h m n v hm

theorem Calm.configureMode (hc : Calm s) (mode : Text) {name : Text} (hn : name ∉ lineNames)
    (value : Text) :
    (s.configureMode mode name value).shown = s.shown ∧ Calm (s.configureMode mode name value) := by
  have hput : Calm { s with
      modeConfig := s.modeConfig.put mode (((s.modeConfig.get? mode).getD []).put name value) } :=
    ⟨hc.typing, hc.config.put mode hn value⟩
  unfold Session.configureMode
  dsimp only
  split
  · exact (Leaves.assign hn _ value).calm hput
  · exact ⟨rfl, hput⟩

theorem Leaves.variableSet (h : ConfigSpares s.modeConfig) {name : Text} (hn : name ∉ lineNames)
    (value : Text) : Leaves s (s.variableSet name value) := by
  have hset := setVar hn s value
  unfold Session.variableSet
  dsimp only
  split
  · split
    · exact hset.trans (setMode (s := { s with vars := s.vars.set name value }) h [])
    · exact modeChanged h value
  · split
    · split
      · exact hset
      · have hd : Leaves s { s with vars := s.vars.set name value, defaultMode := value } :=
          ⟨hset.shown, hset.typing, hset.modeConfig⟩
        split
        · exact hd.trans
            (setMode (s := { s with vars := s.vars.set name value, defaultMode := value }) h [])
        · exact hd
    · exact hset.trans (frame_noteVariable _ name value).leaves

theorem Calm.direct (hc : Calm s) {e : Event} (he : e.Spares lineNames)
    (hd : s.direct? e = some s') : s'.shown = s.shown ∧ Calm s' := by
  cases e with
  | modeConfig mode name value => cases hd; exact hc.configureMode mode he value
  | modeChanged mode => cases hd; exact (Leaves.modeChanged hc.config mode).calm hc
  | variableSet name value => cases hd; exact (Leaves.variableSet hc.config he value).calm hc
  | _ => cases hd

/-- What the submission of a chord runs is in the log after it. -/
theorem logged_keyRelease (hk : s.keymap.Reachable) {field key : Text} {modifiers : Modifiers}
    {keyboard : Keyboard}
    (hrelease : s.keyboard.release field key = (.named (some modifiers), keyboard))
    (hr : s.keyRelease field key = some s') :
    ∀ r ∈ runs { s with keyboard } (.chordExec modifiers) keyboard.input.chordText, r ∈ s'.ran := by
  unfold Session.keyRelease at hr
  rw [hrelease] at hr
  obtain ⟨matched, hm, rfl⟩ := Option.map_eq_some_iff.1 hr
  have hran : matched.clearChord.ran = matched.ran := (frame_clearChord matched).ran
  have hkeymap : Keymap.Reachable { s with keyboard }.keymap := hk
  intro r hmem
  have hturn : ∀ r ∈ runs { s with keyboard } (.chordExec modifiers) keyboard.input.chordText,
      r ∈ (turn { s with keyboard } (.chordExec modifiers) keyboard.input.chordText).ran := by
    intro r hr
    rw [ran_turn]
    exact List.mem_append_right _ hr
  rw [hran]
  unfold notify at hm
  rw [dispatch_eq hkeymap.sound] at hm
  split at hm
  · have hlogged := (logged_invariant _).updateWithin _ ∅ _ _ ⟨reachable_turn hkeymap _ _, hturn⟩ hm
    exact hlogged.2 r hmem
  · cases hm
    exact hturn r hmem

/-- While a calm session serves a request that names no variable of the display, nobody disturbs
it. -/
theorem Calm.requestSparesLine (hk : s.keymap.Reachable) (hc : Calm s) {r : Request}
    (he : ∀ e, r = .event e → e.Spares lineNames) (hs : s.serve r = some s')
    (hr : ∀ run ∈ s'.ran, run.Spares lineNames) : s.requestSparesLine r = true := by
  cases r with
  | bind mode b => rfl
  | drain => rfl
  | event e =>
    have hdirect : (s.direct? e).all (fun s' => s'.shown = s.shown) = true := by
      cases hd : s.direct? e with
      | none => rfl
      | some t => exact decide_eq_true (hc.direct (he e rfl) hd).1
    cases e with
    | keyRelease field key =>
      obtain ⟨reply, hreply, rfl⟩ := Option.map_eq_some_iff.1 hs
      obtain ⟨next, hnext, rfl⟩ := Option.map_eq_some_iff.1 hreply
      change s.eventSparesLine (.keyRelease field key) = true
      unfold eventSparesLine
      dsimp only
      split
      · next modifiers keyboard hrelease =>
        have hrun := logged_keyRelease hk hrelease hnext
        have hb : Calm { s with keyboard } := ⟨hc.typing, hc.config⟩
        exact (hb.turn fun run hm => hr run (hrun run hm)).1
      · rfl
    | _ => exact hdirect

theorem Calm.serve (hk : s.keymap.Reachable) (hc : Calm s) {r : Request}
    (he : ∀ e, r = .event e → e.Spares lineNames) (hs : s.serve r = some s')
    (hr : ∀ run ∈ s'.ran, run.Spares lineNames) : Calm s' := by
  refine (calm_invariant.serve ⟨hk, fun _ => hc⟩ ?_ hs).2 hr
  intro e t heq hd
  exact ⟨(writes_direct hd).reachable hk, fun _ => (hc.direct (he e heq) hd).2⟩

theorem ran_serveAll (hk : s.keymap.Reachable) {rs : List Request} (hs : s.serveAll rs = some s') :
    ∀ r ∈ s.ran, r ∈ s'.ran :=
  ((logged_invariant s.ran).serveAll ⟨hk, fun _ h => h⟩
    (fun _ _ _ _ h hd => ⟨(writes_direct hd).reachable h.1, fun r hr => by
      rw [(writes_direct hd).ran]
      exact h.2 r hr⟩) hs).2

/-- A calm session is undisturbed by requests and by runs that name no variable of the display. -/
theorem undisturbed_of_spares (hk : s.keymap.Reachable) (hc : Calm s) {rs : List Request}
    (he : ∀ e, .event e ∈ rs → e.Spares lineNames) (hs : s.serveAll rs = some s')
    (hr : ∀ r ∈ s'.ran, r.Spares lineNames) : s.undisturbed rs = true := by
  -- The log only grows, so what is known of the runs at the end holds of those of each request.
  induction rs generalizing s with
  | nil => rfl
  | cons r rs ih =>
    obtain ⟨next, hn, hrest⟩ := Option.bind_eq_some_iff.1 hs
    have hk' : next.keymap.Reachable := reachable_invariant.serve hk
      (fun _ _ _ hd => (writes_direct hd).reachable hk) hn
    have hran : ∀ run ∈ next.ran, run.Spares lineNames :=
      fun run hm => hr run (ran_serveAll hk' hrest run hm)
    have hhead : ∀ e, r = .event e → e.Spares lineNames :=
      fun e heq => he e (heq ▸ List.mem_cons_self)
    have hc' := hc.serve hk hhead hn hran
    have hi := ih hk' hc' (fun e hm => he e (List.mem_cons_of_mem r hm)) hrest
    rw [undisturbed, hc.requestSparesLine hk hhead hn hran, hn, Option.all_some, hc'.typing, hi]
    rfl

end Events

/-- Holds when settings name no variable of the display. -/
structure SettingsSpare (settings : Settings) : Prop where
  vars : ∀ name value, (name, value) ∈ settings.vars → name ∉ lineNames
  modeConfig : ∀ mode vars, (mode, vars) ∈ settings.modeConfig →
    ∀ name value, (name, value) ∈ vars → name ∉ lineNames

/-- A calm session that shows nothing yet. -/
structure Fresh (s : Session) : Prop where
  shown : s.shown = none
  calm : Calm s

section Start

variable {s s' : Session} {settings : Settings}

theorem Fresh.of_leaves (h : Fresh s) (hl : Leaves s s') : Fresh s' :=
  ⟨hl.shown.trans h.shown, h.calm.of_leaves hl⟩

theorem Fresh.configureAll (h : Fresh s) (hs : SettingsSpare settings) :
    Fresh (s.configureAll settings.modeConfig) := by
  refine List.foldlRecOn (motive := Fresh) settings.modeConfig _ h fun t ht entry hentry => ?_
  refine List.foldlRecOn (motive := Fresh) entry.2 _ ht fun t ht var hvar => ?_
  have hn := hs.modeConfig entry.1 entry.2 hentry var.1 var.2 hvar
  obtain ⟨hshown, hcalm⟩ := ht.calm.configureMode entry.1 hn var.2
  exact ⟨hshown.trans ht.shown, hcalm⟩

theorem Fresh.assignAll (h : Fresh s) (hs : SettingsSpare settings) :
    Fresh (s.assignAll settings.vars) :=
  h.of_leaves (frame_assignAll (fun name value hm _ => hs.vars name value hm) s).leaves

theorem Fresh.setMode (h : Fresh s) : Fresh (s.setMode []) :=
  h.of_leaves (.setMode h.calm.config [])

theorem fresh_start (hs : SettingsSpare settings) (r : Registry) : Fresh (start settings r) := by
  have hfirst (k : Keyboard) : Fresh ⟨k, .ofRegistry r, .empty, .empty, .empty,
      settings.defaultMode, [], [], []⟩ := ⟨rfl, rfl, fun _ _ _ hm => by cases hm⟩
  exact (((hfirst _).configureAll hs).assignAll hs).setMode

end Start

/-- If neither settings nor events nor handlers name a variable of the display, the host always
shows the line as it is. -/
theorem displayed_of_spares {settings : Settings} (h : SettingsSpare settings)
    (es : List Registry.Edit) {rs : List Request} {s : Session}
    (he : ∀ e, .event e ∈ rs → e.Spares lineNames)
    (hs : (start settings (Registry.empty.editAll es)).serveAll rs = some s)
    (hr : ∀ r ∈ s.ran, r.Spares lineNames) : Displayed s := by
  have hf := fresh_start h (Registry.empty.editAll es)
  have hk := reachable_start settings es
  exact (Cleared.displayed ⟨line_start settings _, hf.shown⟩).serveAll hk
    (undisturbed_of_spares hk hf.calm he hs hr) hs

end Session

end ModalKeys
