import Mathlib.Data.List.Induction
import ModalKeys.Proofs.History.Browsing
import ModalKeys.Proofs.Session.Calls
import ModalKeys.Proofs.Session.Nesting
import ModalKeys.Proofs.Session.Typing

namespace ModalKeys

namespace History

variable {h : History}

/-- The text that a step on from the newest line puts back, if a browse is in progress. -/
def kept? (h : History) : Option Text := h.cursor.map fun _ => h.draft.getD []

theorem kept?_eq_none_iff : h.kept? = none ↔ h.isBrowsing = false := by
  rw [kept?, Option.map_eq_none_iff, isBrowsing, Option.isSome_eq_false_iff, Option.isNone_iff_eq_none]

theorem newest?_nil (key : Option Text) (n : Nat) : newest? key [] n = none := by
  induction n with
  | zero => rfl
  | succ n ih => exact ih

theorem lines_keepDraft (h : History) (current : Text) : (h.keepDraft current).lines = h.lines := by
  unfold keepDraft
  split <;> rfl

/-- The text that a browse keeps is the one at which it began. -/
theorem draft_keepDraft (hr : h.Rests) (current : Text) :
    (h.keepDraft current).draft.getD [] = h.kept?.getD current := by
  cases hc : h.cursor with
  | none =>
    rw [keepDraft_of_rest hc (hr.draft hc), kept?, hc]
    exact getD_keyFor current
  | some n =>
    rw [keepDraft_of_browsing hc, kept?, hc]
    rfl

theorem stepBack_of_nil (hl : h.lines = []) : h.stepBack = (none, { h with cursor := some 0 }) := by
  rw [stepBack_eq, hl, newest?_nil]

/-- Holds when `h'` has the lines of `h` and keeps a text. -/
structure Keeps (h h' : History) (text : Text) : Prop where
  lines : h'.lines = h.lines
  kept : h'.kept? = some text

theorem prev_of_nil (hl : h.lines = []) (hr : h.Rests) (current : Text) :
    (h.prev current).1 = none ∧ h.Keeps (h.prev current).2 (h.kept?.getD current) := by
  have hl' : (h.keepDraft current).lines = [] := (h.lines_keepDraft current).trans hl
  rw [prev, stepBack_of_nil hl']
  exact ⟨rfl, h.lines_keepDraft current, congrArg some (draft_keepDraft hr current)⟩

theorem search_of_nil (hl : h.lines = []) (hr : h.Rests) (key current : Text) :
    (h.search key current).1 = none ∧ h.Keeps (h.search key current).2 (h.kept?.getD current) := by
  have hl' : (h.keepDraft current).lines = [] := (h.lines_keepDraft current).trans hl
  let sought : History :=
    { h.keepDraft current with key := if key.isEmpty then none else some key, cursor := none }
  have hstep : h.search key current = (none, { sought with cursor := some 0 }) :=
    stepBack_of_nil (h := sought) hl'
  rw [hstep]
  exact ⟨rfl, h.lines_keepDraft current, congrArg some (draft_keepDraft hr current)⟩

/-- A step on ends the browse, if one is in progress. -/
theorem next_of_nil (hl : h.lines = []) :
    h.next = match h.kept? with
      | none => (none, h)
      | some text => (some text, h.stop) := by
  unfold next kept?
  cases h.cursor with
  | none => rfl
  | some n =>
    have hnone : oldest? h.key n (h.lines.drop n) = none := by
      rw [hl, List.drop_nil]
      rfl
    dsimp only
    rw [hnone]
    rfl

end History

/-- Holds of keys and of edits of the line. -/
def Event.edits : Event → Bool
  | .keyPress .. | .keyRelease .. | .setLine _ | .inject _ | .append _ | .backspace | .delete
  | .stripWord _ | .clearLine | .moveCursor _ => true
  | _ => false

/-- Holds of events that begin a browse, or go on with one. -/
def Event.browses : Event → Bool
  | .historyPrev | .historySearch _ => true
  | _ => false

namespace Session

/-- Holds when two sessions have the same binds and the same history. -/
structure Remembers (s s' : Session) : Prop where
  keymap : s'.keymap = s.keymap
  history : s'.history = s.history

section Remembers

variable {s s' s'' : Session}

theorem Remembers.refl (s : Session) : Remembers s s := ⟨rfl, rfl⟩

theorem Remembers.trans (h : s.Remembers s') (h' : s'.Remembers s'') : s.Remembers s'' :=
  ⟨h'.keymap.trans h.keymap, h'.history.trans h.history⟩

/-- Only the variable of the prompt counts for the history. -/
theorem Remembers.assign {name : Text} (h : name ∈ displayNames) (s : Session) (value : Text) :
    s.Remembers (s.assign name value) := by
  have hall : ∀ n ∈ displayNames, n ≠ promptName := by decide
  refine ⟨(frame_display h s value).keymap, ?_⟩
  unfold Session.assign
  split
  · unfold noteVariable
    dsimp only
    rw [if_neg (hall name h)]
    rfl
  · rfl

theorem Remembers.stopCompletion (s : Session) : s.Remembers s.stopCompletion :=
  have hstop : s.Remembers { s with completion := s.completion.stop } := ⟨rfl, rfl⟩
  hstop.trans (assign (by decide) _ _)

theorem Remembers.clearLine (s : Session) : s.Remembers s.clearLine :=
  have hclear : s.Remembers { s with keyboard := s.keyboard.clearLine } := ⟨rfl, rfl⟩
  (hclear.trans (assign (by decide) _ _)).trans (stopCompletion _)

theorem Remembers.clearChord (s : Session) : s.Remembers s.clearChord :=
  have hclear : s.Remembers { s with keyboard := s.keyboard.clearChord } := ⟨rfl, rfl⟩
  hclear.trans (assign (by decide) _ _)

theorem Remembers.refreshHints (s : Session) : s.Remembers s.refreshHints := by
  unfold Session.refreshHints
  split
  · exact stopCompletion s
  · split
    · exact assign (by decide) s _
    · exact refl s

theorem Remembers.showChord (s : Session) (m : Modifiers) (old : Input) :
    s.Remembers (s.showChord m old) := by
  obtain h | ⟨value, h⟩ := s.showChord_cases m old
  · rw [h]
    exact refl s
  · rw [h]
    exact assign (by decide) s value

theorem Remembers.showLine (s : Session) (old : Input) : s.Remembers (s.showLine old) := by
  obtain h | ⟨value, h⟩ := s.showLine_cases old
  · rw [h]
    exact refl s
  · rw [h]
    exact assign (by decide) s value

theorem Remembers.refresh (s : Session) (m : Modifiers) (old : Input) :
    s.Remembers (s.refresh m old) := by
  have hhints : s.Remembers (if old.chording then s else s.refreshHints) := by
    split
    · exact refl s
    · exact refreshHints s
  exact (hhints.trans (showChord _ m old)).trans (showLine _ old)

end Remembers

/-- Holds of a session without binds, with no lines recorded at its prompt. -/
structure Bare (s : Session) : Prop where
  reachable : s.keymap.Reachable
  bindless : s.allBinds = []
  lines : s.history.lines = []
  rests : s.history.Rests

namespace Bare

variable {s s' : Session} (h : s.Bare)

include h

theorem of_remembers (hr : s.Remembers s') : s'.Bare where
  reachable := hr.keymap ▸ h.reachable
  bindless := by
    rw [allBinds, hr.keymap]
    exact h.bindless
  lines := hr.history ▸ h.lines
  rests := hr.history ▸ h.rests

theorem update (m : Modifiers) :
    ∃ s', s.update m = some s' ∧ s.Remembers s' ∧ s'.input = s.input := by
  refine ⟨_, update_of_bindless h.reachable h.bindless m, .refresh s m s.input, ?_⟩
  exact congrArg (·.keyboard.input) (core_refresh s m s.input)

theorem edit (i : Input) : ∃ s', s.edit i = some s' ∧ s.Remembers s' ∧ s'.input = i := by
  have hr : s.Remembers (s.withInput i) := ⟨rfl, rfl⟩
  obtain ⟨s', hs', hr', hi⟩ := (h.of_remembers hr).update ∅
  exact ⟨s', hs', hr.trans hr', hi⟩

theorem edit? (i? : Option Input) : ∃ s', s.edit? i? = some s' ∧ s.Remembers s' := by
  cases i? with
  | none => exact ⟨s, rfl, .refl s⟩
  | some i =>
    obtain ⟨s', hs', hr, -⟩ := h.edit i
    exact ⟨s', hs', hr⟩

theorem keyPress (field key : Text) : ∃ s', s.keyPress field key = some s' ∧ s.Remembers s' := by
  unfold Session.keyPress
  generalize s.keyboard.press field key s.isTyping = pressed
  obtain ⟨press, keyboard⟩ := pressed
  have hr : s.Remembers { s with keyboard } := ⟨rfl, rfl⟩
  cases press with
  | update m =>
    obtain ⟨s', hs', hr', -⟩ := (h.of_remembers hr).update m
    exact ⟨s', hs', hr.trans hr'⟩
  | cleared => exact ⟨_, rfl, hr.trans (.assign (by decide) _ _)⟩

theorem keyRelease (field key : Text) :
    ∃ s', s.keyRelease field key = some s' ∧ s.Remembers s' := by
  unfold Session.keyRelease
  generalize s.keyboard.release field key = released
  obtain ⟨release, keyboard⟩ := released
  have hr : s.Remembers { s with keyboard } := ⟨rfl, rfl⟩
  cases release with
  | printable => exact ⟨_, rfl, hr⟩
  | named exec =>
    cases exec with
    | none => exact ⟨_, rfl, hr.trans (.clearChord _)⟩
    | some m =>
      have hn := notify_of_bindless (s := { s with keyboard }) h.reachable h.bindless (.chordExec m)
        keyboard.input.chordText
      exact ⟨_, congrArg (Option.map Session.clearChord) hn, hr.trans (.clearChord _)⟩

/-- Keys and edits leave the history alone. -/
theorem serve_edits {e : Event} (he : e.edits = true) :
    ∃ s', s.serve (.event e) = some s' ∧ s.Remembers s' := by
  have accepted {x : Option Session} (hx : ∃ s', x = some s' ∧ s.Remembers s') :
      ∃ s', (x.map Reply.accepted).map (·.session) = some s' ∧ s.Remembers s' := by
    rw [map_session_accepted]
    exact hx
  have edited (i : Input) : ∃ s', s.edit i = some s' ∧ s.Remembers s' := h.edit? (some i)
  cases e with
  | keyPress field key => exact accepted (h.keyPress field key)
  | keyRelease field key => exact accepted (h.keyRelease field key)
  | setLine t => exact accepted (edited (s.input.setLine t))
  | inject t => exact accepted (edited (s.input.insert t))
  | append t => exact accepted (edited (s.input.append t))
  | backspace => exact accepted (h.edit? s.input.backspace?)
  | delete => exact accepted (h.edit? s.input.delete?)
  | stripWord seps => exact accepted (h.edit? ((s.input.stripWord? (seps.getD [' '])).map Prod.snd))
  | clearLine => exact ⟨_, rfl, .clearLine s⟩
  | moveCursor target => exact accepted (edited (s.input.moveCursor target))
  | _ => cases he

/-- A step back or a search leaves the input alone, and a text is kept from then on. -/
theorem serve_browses {e : Event} (he : e.browses = true) :
    ∃ s', s.serve (.event e) = some s' ∧ s'.Bare ∧ s'.input = s.input ∧
      s'.history.kept? = some (s.history.kept?.getD s.input.line) := by
  have shown {found : Option Text × History} (hnone : found.1 = none)
      (hkeeps : s.history.Keeps found.2 (s.history.kept?.getD s.input.line)) :
      ∃ s', ((s.showHistory found).map Reply.accepted).map (·.session) = some s' ∧ s'.Bare ∧
        s'.input = s.input ∧ s'.history.kept? = some (s.history.kept?.getD s.input.line) := by
    refine ⟨{ s with history := found.2 }, ?_, ⟨h.reachable, h.bindless, ?_, ?_⟩, rfl, hkeeps.kept⟩
    · rw [map_session_accepted]
      unfold showHistory
      rw [hnone]
    · exact hkeeps.lines.trans h.lines
    · intro hc
      have hkept := hkeeps.kept
      rw [History.kept?, hc] at hkept
      cases hkept
  cases e with
  | historyPrev =>
    obtain ⟨hnone, hkeeps⟩ := History.prev_of_nil h.lines h.rests s.input.line
    exact shown hnone hkeeps
  | historySearch key =>
    obtain ⟨hnone, hkeeps⟩ := History.search_of_nil h.lines h.rests key s.input.line
    exact shown hnone hkeeps
  | _ => cases he

/-- A step on puts the text back that is kept, if one is kept. -/
theorem serve_next :
    ∃ s', s.serve (.event .historyNext) = some s' ∧ s'.Bare ∧ s'.history.kept? = none ∧
      s'.input = match s.history.kept? with
        | none => s.input
        | some text => s.input.setLine text := by
  have hserve : s.serve (.event .historyNext) = s.showHistory s.history.next := map_session_accepted _
  rw [hserve, History.next_of_nil h.lines]
  cases hkept : s.history.kept? with
  | none => exact ⟨s, rfl, h, hkept, rfl⟩
  | some text =>
    have hstopped : Bare { s with history := s.history.stop } :=
      ⟨h.reachable, h.bindless, h.lines, fun _ => rfl⟩
    obtain ⟨s', hs', hr, hi⟩ := hstopped.edit (s.input.setLine text)
    refine ⟨s', hs', hstopped.of_remembers hr, ?_, hi⟩
    rw [hr.history]
    rfl

end Bare

section Rests

variable {s s' : Session}

/-- However a session is used, its history keeps nothing once a browse is over. -/
theorem rests_stable : Stable (·.history.Rests) where
  state := fun _ _ _ _ _ _ h => h
  completion := fun _ _ _ h => h
  configured := fun _ _ _ _ h => h
  mode := fun _ _ _ _ h => h
  noted := fun s name value h => by
    rw [noteVariable_eq]
    dsimp only
    split
    · exact History.rests_stop _
    · exact h
  history := fun _ _ _ rests h => rests h

theorem rests_start (settings : Settings) (r : Registry) : (start settings r).history.Rests :=
  rests_stable.start settings r fun _ _ => rfl

theorem rests_serveAll {rs : List Request} (h : s.history.Rests) (hs : s.serveAll rs = some s') :
    s'.history.Rests := by
  rw [serveAll_eq_callAll] at hs
  exact rests_stable.callAll hs h

end Rests

/-- Holds when a browse is in progress after some events that began at the line `text`. Either it
was so before the events, or one of them began it, and there has been no step on since. -/
def Pending (s : Session) (es : List Event) (text : Text) : Prop :=
  (s.history.kept? = some text ∧ .historyNext ∉ es) ∨
  ∃ before e since r, es = before ++ e :: since ∧ e.browses = true ∧ .historyNext ∉ since ∧
    s.serveAll (before.map .event) = some r ∧ r.history.isBrowsing = false ∧ r.input.line = text

section Pending

variable {s t : Session} {es : List Event}

theorem pending_nil_iff (text : Text) : s.Pending [] text ↔ s.history.kept? = some text := by
  constructor
  · rintro (⟨h, -⟩ | ⟨before, e, since, r, hes, -⟩)
    · exact h
    · simp at hes
  · exact fun h => .inl ⟨h, List.not_mem_nil⟩

/-- Only a step on ends what is pending, and an event that begins a browse adds to it. -/
theorem pending_concat_iff (ht : s.serveAll (es.map .event) = some t) (e : Event) (text : Text) :
    s.Pending (es ++ [e]) text ↔ e ≠ .historyNext ∧
      (s.Pending es text ∨
        e.browses = true ∧ t.history.isBrowsing = false ∧ t.input.line = text) := by
  constructor
  · rintro (⟨hkept, hnext⟩ | ⟨before, b, since, r, hes, hb, hnext, hr, hrest, hline⟩)
    · rw [List.mem_append, not_or, List.mem_singleton] at hnext
      exact ⟨Ne.symm hnext.2, .inl (.inl ⟨hkept, hnext.1⟩)⟩
    · rcases List.eq_nil_or_concat since with rfl | ⟨since, last, rfl⟩
      · obtain ⟨rfl, hlast⟩ := List.append_inj' hes rfl
        obtain rfl : e = b := List.head_eq_of_cons_eq hlast
        obtain rfl : t = r := Option.some.inj (ht.symm.trans hr)
        refine ⟨?_, .inr ⟨hb, hrest, hline⟩⟩
        rintro rfl
        cases hb
      · rw [List.concat_eq_append, ← List.cons_append, ← List.append_assoc] at hes
        obtain ⟨rfl, hlast⟩ := List.append_inj' hes rfl
        obtain rfl : e = last := List.head_eq_of_cons_eq hlast
        rw [List.concat_eq_append, List.mem_append, not_or, List.mem_singleton] at hnext
        exact ⟨Ne.symm hnext.2, .inl (.inr ⟨before, b, since, r, rfl, hb, hnext.1, hr, hrest, hline⟩)⟩
  · rintro ⟨hne, (⟨hkept, hnext⟩ | ⟨before, b, since, r, rfl, hb, hnext, hr, hrest, hline⟩) |
      ⟨hb, hrest, hline⟩⟩
    · exact .inl ⟨hkept, by simpa using ⟨hnext, hne.symm⟩⟩
    · refine .inr ⟨before, b, since ++ [e], r, by simp, hb, ?_, hr, hrest, hline⟩
      simpa using ⟨hnext, hne.symm⟩
    · exact .inr ⟨es, e, [], t, rfl, hb, List.not_mem_nil, ht, hrest, hline⟩

/-- A run of keys, edits and steps through the history keeps the text that is pending. -/
theorem Bare.serveAll (h : s.Bare)
    (hes : ∀ e ∈ es, e.edits = true ∨ e.browses = true ∨ e = .historyNext) :
    ∃ t, s.serveAll (es.map .event) = some t ∧ t.Bare ∧
      ∀ text, t.history.kept? = some text ↔ s.Pending es text := by
  induction es using List.reverseRecOn with
  | nil => exact ⟨s, rfl, h, fun text => (pending_nil_iff text).symm⟩
  | append_singleton es e ih =>
    obtain ⟨t, ht, hbare, hkept⟩ := ih fun e he => hes e (List.mem_append_left _ he)
    have extend {t' : Session} (ht' : t.serve (.event e) = some t') (hbare' : t'.Bare)
        (hkept' : ∀ text, t'.history.kept? = some text ↔ e ≠ .historyNext ∧
          (t.history.kept? = some text ∨
            e.browses = true ∧ t.history.isBrowsing = false ∧ t.input.line = text)) :
        ∃ t', s.serveAll ((es ++ [e]).map .event) = some t' ∧ t'.Bare ∧
          ∀ text, t'.history.kept? = some text ↔ s.Pending (es ++ [e]) text := by
      refine ⟨t', ?_, hbare', fun text => ?_⟩
      · rw [List.map_append, serveAll_append ht]
        exact serveAll_singleton ht'
      · rw [hkept', pending_concat_iff ht, hkept]
    rcases hes e (by simp) with he | he | rfl
    · obtain ⟨t', ht', hr⟩ := hbare.serve_edits he
      refine extend ht' (hbare.of_remembers hr) fun text => ?_
      have hne : e ≠ .historyNext := by
        rintro rfl
        cases he
      have hother : e.browses = false := by cases e <;> first | rfl | cases he
      simp [hr.history, hne, hother]
    · obtain ⟨t', ht', hbare', -, hline⟩ := hbare.serve_browses he
      refine extend ht' hbare' fun text => ?_
      have hne : e ≠ .historyNext := by
        rintro rfl
        cases he
      rw [hline]
      cases hk : t.history.kept? with
      | none => simp [hne, he, History.kept?_eq_none_iff.1 hk]
      | some draft =>
        have hbrowsing : ¬t.history.isBrowsing = false := by
          rw [← History.kept?_eq_none_iff, hk]
          exact Option.some_ne_none draft
        simp [hne, hbrowsing]
    · obtain ⟨t', ht', hbare', hline, -⟩ := hbare.serve_next
      exact extend ht' hbare' fun text => by simp [hline]

end Pending

/-- Where no binds are and no lines are recorded at the prompt, keys, edits and steps through the
history have a result in any order. A step back and a search leave the input alone. A step on leaves
it alone too unless a browse is in progress, and else the line at which that browse began takes the
place of the one there is. -/
theorem history_without_lines {settings : Settings} (edits : List Registry.Edit) {rs : List Request}
    {s : Session} (hs : (start settings (Registry.empty.editAll edits)).serveAll rs = some s)
    (hb : s.allBinds = []) (hl : s.history.lines = []) {es : List Event}
    (hes : ∀ e ∈ es, e.edits = true ∨ e.browses = true ∨ e = .historyNext) :
    (∃ s', s.serveAll (es.map .event) = some s') ∧
    ∀ earlier e later t, es = earlier ++ e :: later → s.serveAll (earlier.map .event) = some t →
      (e.browses = true → ∃ t', t.serve (.event e) = some t' ∧ t'.input = t.input) ∧
      (e = .historyNext → ∃ t', t.serve (.event e) = some t' ∧
        (∀ text, s.Pending earlier text → t'.input = t.input.setLine text) ∧
        ((∀ text, ¬s.Pending earlier text) → t'.input = t.input)) := by
  have hbare : s.Bare :=
    ⟨reachable_serveAll settings edits _ hs, hb, hl, rests_serveAll (rests_start settings _) hs⟩
  constructor
  · obtain ⟨s', hs', -⟩ := hbare.serveAll hes
    exact ⟨s', hs'⟩
  · rintro earlier e later t rfl ht
    obtain ⟨u, hu, hbare', hkept⟩ := hbare.serveAll fun e he => hes e (List.mem_append_left _ he)
    obtain rfl : u = t := Option.some.inj (hu.symm.trans ht)
    constructor
    · intro he
      obtain ⟨t', ht', -, hinput, -⟩ := hbare'.serve_browses he
      exact ⟨t', ht', hinput⟩
    · rintro rfl
      obtain ⟨t', ht', -, -, hinput⟩ := hbare'.serve_next
      refine ⟨t', ht', fun text hp => ?_, fun hnone => ?_⟩
      · rw [hinput, (hkept text).2 hp]
      · have hk : u.history.kept? = none :=
          Option.eq_none_iff_forall_ne_some.2 fun text hk => hnone text ((hkept text).1 hk)
        rw [hinput, hk]

/-- A step on that finds no browse in progress and a step back leave a typed character alone. -/
theorem history_without_lines_stepped_back :
    ∃ t t', (start .initial (Registry.empty.editAll [])).serveAll
        ([.historyNext, .keyPress [] ['a']].map .event) = some t ∧
      t.input.line = ['a'] ∧ t.serve (.event .historyPrev) = some t' ∧ t'.input = t.input := by
  have hview : ((start .initial (Registry.empty.editAll [])).allBinds.isEmpty &&
      (start .initial (Registry.empty.editAll [])).history.lines.isEmpty &&
      ((start .initial (Registry.empty.editAll [])).serveAll
        ([.historyNext, .keyPress [] ['a']].map .event)).any (·.input.line = ['a'])) = true := by
    decide +kernel
  obtain ⟨hempty, hview⟩ := Bool.and_eq_true_iff.1 hview
  obtain ⟨hbinds, hlines⟩ := Bool.and_eq_true_iff.1 hempty
  obtain ⟨t, ht, hline⟩ := (Option.any_eq_true _ _).1 hview
  have hstart : (start .initial (Registry.empty.editAll [])).serveAll [] =
      some (start .initial (Registry.empty.editAll [])) := rfl
  have hes : ∀ e ∈ ([.historyNext, .keyPress [] ['a'], .historyPrev] : List Event),
      e.edits = true ∨ e.browses = true ∨ e = .historyNext := by decide
  obtain ⟨-, hall⟩ := history_without_lines [] hstart (List.isEmpty_iff.1 hbinds)
    (List.isEmpty_iff.1 hlines) hes
  obtain ⟨hback, -⟩ := hall [.historyNext, .keyPress [] ['a']] .historyPrev [] t rfl ht
  obtain ⟨t', ht', hinput⟩ := hback rfl
  exact ⟨t, t', ht, of_decide_eq_true hline, ht', hinput⟩

/-- A step back begins a browse although there is nothing to browse, and the step on after it puts
the empty line back over what has been typed in between. -/
theorem history_without_lines_overwritten :
    ∃ s t t', (start .initial (Registry.empty.editAll [])).serveAll [] = some s ∧
      s.allBinds = [] ∧ s.history.lines = [] ∧
      s.serveAll ([.historyPrev, .keyPress [] ['a'], .keyPress [] ['b']].map .event) = some t ∧
      t.input.line = "ab".toList ∧ t.serve (.event .historyNext) = some t' ∧
      t'.input.line = [] := by
  have hview : ((start .initial (Registry.empty.editAll [])).serveAll []).any (fun s =>
      s.allBinds.isEmpty && s.history.lines.isEmpty &&
        (s.serveAll ([.historyPrev, .keyPress [] ['a'], .keyPress [] ['b']].map .event)).any fun t =>
          (t.input.line = "ab".toList : Bool) &&
            (t.serve (.event .historyNext)).any (·.input.line = [])) = true := by decide +kernel
  obtain ⟨s, hs, hview⟩ := (Option.any_eq_true _ _).1 hview
  obtain ⟨hempty, hview⟩ := Bool.and_eq_true_iff.1 hview
  obtain ⟨hbinds, hlines⟩ := Bool.and_eq_true_iff.1 hempty
  obtain ⟨t, ht, hview⟩ := (Option.any_eq_true _ _).1 hview
  obtain ⟨hline, hview⟩ := Bool.and_eq_true_iff.1 hview
  obtain ⟨t', ht', hwiped⟩ := (Option.any_eq_true _ _).1 hview
  exact ⟨s, t, t', hs, List.isEmpty_iff.1 hbinds, List.isEmpty_iff.1 hlines, ht,
    of_decide_eq_true hline, ht', of_decide_eq_true hwiped⟩

end Session

end ModalKeys
