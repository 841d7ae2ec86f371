import ModalKeys.Proofs.Definition.Install
import ModalKeys.Proofs.Session.Turn

namespace ModalKeys.Session

/-- A property that turns, changes of the registry and the display of the input keep. -/
structure Invariant (P : Session → Prop) : Prop where
  reachable : ∀ s, P s → s.keymap.Reachable
  display : ∀ s s', Frame (· ∈ displayNames) s s' → P s → P s'
  turn : ∀ s note text, P s → P (s.turn note text)
  register : ∀ s e, P s → P (s.withRegistry (s.keymap.registry.edit e))

/-- What becomes of a session by an event that itself sets a mode or a variable. -/
def direct? (s : Session) : Event → Option Session
  | .modeConfig mode name value => some (s.configureMode mode name value)
  | .modeChanged mode => some (s.modeChanged mode)
  | .variableSet name value => some (s.variableSet name value)
  | _ => none

/-- What a host asks of a session: to handle an event, to add a bind, or to hand out the effects. -/
inductive Request
  | event (e : Event)
  | bind (mode : Text) (b : Bind)
  | drain

def serve (s : Session) : Request → Option Session
  | .event e => (s.handle e).map (·.session)
  | .bind mode b => some (s.withRegistry (s.keymap.registry.edit (.add mode b)))
  | .drain => some s.drain.2

def serveAll (s : Session) (rs : List Request) : Option Session := rs.foldlM serve s

/-- An event that is never refused is served by its step. -/
theorem map_session_accepted (s? : Option Session) :
    (s?.map Reply.accepted).map (·.session) = s? := by
  cases s? <;> rfl

namespace Invariant

variable {P : Session → Prop} (hP : Invariant P) {s s' : Session}

include hP

theorem dispatch {changed : Session → Option Session}
    (hc : ∀ s s', P s → changed s = some s' → P s') (h : P s) {note : Notification} {text : Text}
    (hd : s.dispatch changed note text = some s') : P s' := by
  rw [dispatch_eq (hP.reachable s h).sound] at hd
  have ht := hP.turn s note text h
  split at hd
  · exact hc _ _ ht hd
  · cases hd
    exact ht

theorem updateWithin (limit : Nat) (modifiers : Modifiers) :
    ∀ s s', P s → Session.updateWithin limit modifiers s = some s' → P s' := by
  -- On the limit: a line that is filled in is matched under the limit below.
  induction limit generalizing modifiers with
  | zero => intro s s' _ hu; cases hu
  | succ limit ih =>
    intro s s' h hu
    obtain ⟨matched, hm, rfl⟩ := Option.map_eq_some_iff.1 hu
    refine hP.display _ _ (frame_refresh matched modifiers s.input) ?_
    split at hm
    · exact hP.dispatch (ih ∅) h hm
    · exact hP.dispatch (ih ∅) h hm

theorem update {modifiers : Modifiers} (h : P s) (hu : s.update modifiers = some s') : P s' :=
  hP.updateWithin s.limit modifiers s s' h hu

theorem notify {note : Notification} {text : Text} (h : P s)
    (hn : s.notify note text = some s') : P s' :=
  hP.dispatch (hP.updateWithin s.limit ∅) h hn

theorem edit {i : Input} (h : P s) (he : s.edit i = some s') : P s' :=
  hP.update (hP.display _ _ (frame_withInput s i) h) he

theorem edit? {i : Option Input} (h : P s) (he : s.edit? i = some s') : P s' := by
  unfold Session.edit? at he
  split at he
  · exact hP.edit h he
  · cases he
    exact h

theorem keyPress {field key : Text} (h : P s) (hk : s.keyPress field key = some s') : P s' := by
  have hb := hP.display _ _ (frame_keyboard s (s.keyboard.press field key s.isTyping).2) h
  unfold Session.keyPress at hk
  dsimp only at hk
  split at hk
  · exact hP.update hb hk
  · cases hk
    exact hP.display _ _ (frame_display (by simp [displayNames]) _ _) hb

theorem keyRelease {field key : Text} (h : P s) (hk : s.keyRelease field key = some s') :
    P s' := by
  have hb := hP.display _ _ (frame_keyboard s (s.keyboard.release field key).2) h
  unfold Session.keyRelease at hk
  dsimp only at hk
  split at hk
  · cases hk
    exact hb
  · cases hk
    exact hP.display _ _ (frame_clearChord _) hb
  · obtain ⟨matched, hm, rfl⟩ := Option.map_eq_some_iff.1 hk
    exact hP.display _ _ (frame_clearChord matched) (hP.notify hb hm)

theorem submit (h : P s) (hs : s.submit = some s') : P s' := by
  obtain ⟨matched, hm, rfl⟩ := Option.map_eq_some_iff.1 hs
  exact hP.display _ _ (frame_clearLine matched) (hP.notify (hP.display _ _ (frame_history s _) h) hm)

theorem showHistory {found : Option Text × History} (h : P s)
    (hs : s.showHistory found = some s') : P s' := by
  have hb := hP.display _ _ (frame_history s found.2) h
  unfold Session.showHistory at hs
  dsimp only at hs
  split at hs
  · exact hP.edit hb hs
  · cases hs
    exact hb

theorem startCompletion (h : P s) (hs : s.startCompletion = some s') : P s' := by
  unfold Session.startCompletion at hs
  split at hs
  · cases hs
    exact hP.display _ _ (frame_stopCompletion s) h
  · next p _ =>
    have hb := hP.display _ _ (frame_completion s (s.completion.advance p).2) h
    dsimp only at hs
    split at hs
    · cases hs
      exact hb
    · obtain ⟨matched, hm, rfl⟩ := Option.map_eq_some_iff.1 hs
      exact hP.display _ _ (frame_stopCompletion matched) (hP.edit hb hm)
    · obtain ⟨matched, hm, rfl⟩ := Option.map_eq_some_iff.1 hs
      refine hP.display _ _ (frame_refreshHints matched) ?_
      split at hm
      · cases hm
        exact hb
      · exact hP.edit hb hm

theorem editAll (es : List Registry.Edit) (h : P s) :
    P (s.withRegistry (s.keymap.registry.editAll es)) := by
  induction es generalizing s with
  | nil => exact h
  | cons e es ih => exact ih (hP.register s e h)

theorem define (d : Except SyntaxError Definition) (h : P s) : P (s.define d).session := by
  cases d with
  | error e => exact h
  | ok d =>
    change P (s.withRegistry (d.apply s.keymap.registry).registry)
    rcases d.apply_cases s.keymap.registry with ⟨e, -, ha⟩ | ⟨-, ha⟩
    · rw [ha]
      exact h
    · rw [ha]
      exact hP.editAll d.edits h

theorem addModmap (source target : Text) (h : P s) : P (s.addModmap source target).session := by
  unfold Session.addModmap
  split
  · exact hP.display _ _ (frame_keyboard s _) h
  · exact h

theorem addIgnore (rule : Text) (h : P s) : P (s.addIgnore rule).session := by
  unfold Session.addIgnore
  split
  · exact hP.display _ _ (frame_keyboard s _) h
  · exact h

omit hP in
theorem withVariable {next : Session} (name : Text) (h : P s) (hn : P next) :
    P (s.withVariable name next).session := by
  unfold Session.withVariable
  split
  · exact hn
  · exact h

/-- An event keeps an invariant, unless it sets a mode or a variable by itself and breaks it. -/
theorem handle {e : Event} {reply : Reply} (h : P s) (hw : ∀ s', s.direct? e = some s' → P s')
    (hr : s.handle e = some reply) : P reply.session := by
  have accepted {x : Option Session} (hx : ∀ s', x = some s' → P s')
      (he : x.map Reply.accepted = some reply) : P reply.session := by
    obtain ⟨s', hs', rfl⟩ := Option.map_eq_some_iff.1 he
    exact hx s' hs'
  cases e with
  | keyPress field key => exact accepted (fun _ => hP.keyPress h) hr
  | keyRelease field key => exact accepted (fun _ => hP.keyRelease h) hr
  | setLine t => exact accepted (fun _ => hP.edit h) hr
  | inject t => exact accepted (fun _ => hP.edit h) hr
  | append t => exact accepted (fun _ => hP.edit h) hr
  | backspace => exact accepted (fun _ => hP.edit? h) hr
  | delete => exact accepted (fun _ => hP.edit? h) hr
  | stripWord seps => exact accepted (fun _ => hP.edit? h) hr
  | submit => exact accepted (fun _ => hP.submit h) hr
  | moveCursor target => exact accepted (fun _ => hP.edit h) hr
  | historyPrev => exact accepted (fun _ => hP.showHistory h) hr
  | historyNext => exact accepted (fun _ => hP.showHistory h) hr
  | historySearch key => exact accepted (fun _ => hP.showHistory h) hr
  | startCompletion => exact accepted (fun _ => hP.startCompletion h) hr
  | clearLine => cases hr; exact hP.display _ _ (frame_clearLine s) h
  | stopCompletion => cases hr; exact hP.display _ _ (frame_stopCompletion s) h
  | builtins names => cases hr; exact hP.display _ _ (frame_completion s _) h
  | modmap source target => cases hr; exact hP.addModmap source target h
  | ignoreKey rule => cases hr; exact hP.addIgnore rule h
  | bind line => cases hr; exact hP.define _ h
  | modeBind line => cases hr; exact hP.define _ h
  | modeConfig mode name value => cases hr; exact withVariable name h (hw _ rfl)
  | modeChanged mode => cases hr; exact hw _ rfl
  | variableSet name value => cases hr; exact withVariable name h (hw _ rfl)

theorem serve {r : Request} (h : P s)
    (hw : ∀ e s', r = .event e → s.direct? e = some s' → P s') (hs : s.serve r = some s') :
    P s' := by
  cases r with
  | event e =>
    obtain ⟨reply, hr, rfl⟩ := Option.map_eq_some_iff.1 hs
    exact hP.handle h (fun s' => hw e s' rfl) hr
  | bind mode b =>
    cases hs
    exact hP.register s (.add mode b) h
  | drain =>
    cases hs
    exact hP.display _ _ (frame_drain s) h

theorem serveAll {rs : List Request} (h : P s)
    (hw : ∀ e, .event e ∈ rs → ∀ s s', P s → s.direct? e = some s' → P s')
    (hs : s.serveAll rs = some s') : P s' := by
  induction rs generalizing s with
  | nil => cases hs; exact h
  | cons r rs ih =>
    obtain ⟨next, hn, ht⟩ := Option.bind_eq_some_iff.1 hs
    refine ih (hP.serve h ?_ hn) (fun e he => hw e (List.mem_cons_of_mem _ he)) ht
    rintro e s' rfl
    exact hw e List.mem_cons_self s s' h

end Invariant

/-- The keymap of a session is always reached from an empty one. -/
theorem reachable_invariant : Invariant (·.keymap.Reachable) where
  reachable := fun _ h => h
  display := fun _ _ hf h => by
    rw [hf.keymap]
    exact h
  turn := fun _ note text h => reachable_turn h note text
  register := fun _ e h => h.edit e

/-- A property that is kept where the keymap is reached from an empty one. -/
theorem Invariant.of_reachable {P : Session → Prop}
    (display : ∀ s s', Frame (· ∈ displayNames) s s' → P s → P s')
    (turn : ∀ s note text, s.keymap.Reachable → P s → P (s.turn note text))
    (register : ∀ s e, P s → P (s.withRegistry (s.keymap.registry.edit e))) :
    Invariant fun s => s.keymap.Reachable ∧ P s where
  reachable := fun _ h => h.1
  display := fun s s' hf h => ⟨reachable_invariant.display s s' hf h.1, display s s' hf h.2⟩
  turn := fun s note text h => ⟨reachable_turn h.1 note text, turn s note text h.1 h.2⟩
  register := fun s e h => ⟨h.1.edit e, register s e h.2⟩

theorem writes_direct {s s' : Session} {e : Event} (he : s.direct? e = some s') : Writes s s' := by
  cases e <;> cases he
  · exact Writes.configureMode s _ _ _
  · exact Writes.modeChanged s _
  · exact Writes.variableSet s _ _

/-- A property that holds when a session starts, as long as it outlasts configuration and writes. -/
theorem start_induction {P : Session → Prop} (settings : Settings) (r : Registry)
    (h : ∀ k, P ⟨k, .ofRegistry r, .empty, .empty, .empty, settings.defaultMode, [], [], []⟩)
    (configure : ∀ s mode name value, P s → P (s.configureMode mode name value))
    (assign : ∀ s name value, name ≠ modeName → P s → P (s.assign name value))
    (setMode : ∀ s mode, P s → P (s.setMode mode)) : P (start settings r) := by
  have hc {s : Session} (hs : P s) : P (s.configureAll settings.modeConfig) :=
    List.foldlRecOn _ _ hs fun _ hs entry _ =>
      List.foldlRecOn _ _ hs fun s hs var _ => configure s entry.1 var.1 var.2 hs
  have ha {s : Session} (hs : P s) : P (s.assignAll settings.vars) := by
    refine List.foldlRecOn _ _ hs fun s hs var _ => ?_
    by_cases hn : var.1 = modeName
    · simpa [hn] using hs
    · simpa [hn] using assign s var.1 var.2 hn hs
  exact setMode _ [] (ha (hc (h _)))

theorem reachable_start (settings : Settings) (es : List Registry.Edit) :
    (start settings (Registry.empty.editAll es)).keymap.Reachable := by
  refine start_induction (P := (·.keymap.Reachable)) settings _ ?_ ?_ ?_ ?_
  · exact fun _ => Keymap.Reachable.empty.editAll es
  · exact fun s mode name value => (Writes.configureMode s mode name value).reachable
  · exact fun s name value _ => (Writes.assign s name value).reachable
  · exact fun s mode => (Writes.setMode s mode).reachable

/-- The keymap of a session that has served requests is one that is reached from an empty one. -/
theorem reachable_serveAll (settings : Settings) (es : List Registry.Edit) (rs : List Request)
    {s : Session} (hs : (start settings (Registry.empty.editAll es)).serveAll rs = some s) :
    s.keymap.Reachable :=
  reachable_invariant.serveAll (reachable_start settings es)
    (fun _ _ _ _ h he => (writes_direct he).reachable h) hs

end ModalKeys.Session
