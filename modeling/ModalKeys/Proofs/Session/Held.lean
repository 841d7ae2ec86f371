import ModalKeys.Proofs.Keyboard.Held
import ModalKeys.Proofs.Session.Released

namespace ModalKeys

open Keyboard (Stroke Struck allReleased)

/-- Whether a character is typed or clears the line makes no difference to the keys. -/
theorem Keyboard.keys_press (k : Keyboard) (field key : Text) (typing : Bool) :
    (k.press field key typing).2.keys = (k.press field key true).2.keys := by
  cases typing with
  | true => rfl
  | false =>
    unfold press
    dsimp only
    split
    · rfl
    · split <;> rfl

namespace Session

section Keys

variable {s s' : Session} {i : Input} {field key : Text}

theorem keys_withInput (hi : i.held = s.input.held) :
    (s.withInput i).keyboard.keys = s.keyboard.keys :=
  congrArg (Keyboard.Keys.mk s.keyboard.modmaps s.keyboard.ignores) hi

theorem keys_edit (hk : s.keymap.Reachable) (hi : i.held = s.input.held) (he : s.edit i = some s') :
    s'.keyboard.keys = s.keyboard.keys :=
  (keys_update (s := s.withInput i) hk he).trans (keys_withInput hi)

theorem keys_edit? {i? : Option Input} (hk : s.keymap.Reachable)
    (hi : ∀ i, i? = some i → i.held = s.input.held) (he : s.edit? i? = some s') :
    s'.keyboard.keys = s.keyboard.keys := by
  cases i? with
  | none => cases he; rfl
  | some i => exact keys_edit hk (hi i rfl) he

theorem keys_notify {note : Notification} {text : Text} (hk : s.keymap.Reachable)
    (hn : s.notify note text = some s') : s'.keyboard.keys = s.keyboard.keys :=
  Dispatch.keys_run (d := ⟨s, note, text⟩) hk hn

theorem keys_submit (hk : s.keymap.Reachable) (hs : s.submit = some s') :
    s'.keyboard.keys = s.keyboard.keys := by
  obtain ⟨matched, hm, rfl⟩ := Option.map_eq_some_iff.1 hs
  let recorded : Session :=
    { s with history := s.history.record (s.vars.getD promptName []) s.input.line }
  exact (keys_clearLine matched).trans (keys_notify (s := recorded) hk hm)

theorem keys_showHistory {found : Option Text × History} (hk : s.keymap.Reachable)
    (hs : s.showHistory found = some s') : s'.keyboard.keys = s.keyboard.keys := by
  unfold showHistory at hs
  dsimp only at hs
  split at hs
  · next line _ =>
    exact keys_edit (s := { s with history := found.2 }) (i := s.input.setLine line) hk rfl hs
  · cases hs; rfl

theorem keys_stopCompletion (s : Session) : s.stopCompletion.keyboard.keys = s.keyboard.keys :=
  congrArg (·.keyboard.keys) (core_stopCompletion s)

theorem keys_refreshHints (s : Session) : s.refreshHints.keyboard.keys = s.keyboard.keys :=
  congrArg (·.keyboard.keys) (core_refreshHints s)

theorem keys_startCompletion (hk : s.keymap.Reachable) (hs : s.startCompletion = some s') :
    s'.keyboard.keys = s.keyboard.keys := by
  unfold startCompletion at hs
  split at hs
  · cases hs
    exact keys_stopCompletion s
  · next p _ =>
    let advanced : Session := { s with completion := (s.completion.advance p).2 }
    have inserted {t : Text} {matched : Session} (hm : advanced.inject t = some matched) :
        matched.keyboard.keys = s.keyboard.keys :=
      keys_edit (s := advanced) (i := s.input.insert t) hk rfl hm
    dsimp only at hs
    split at hs
    · cases hs; rfl
    · obtain ⟨matched, hm, rfl⟩ := Option.map_eq_some_iff.1 hs
      exact (keys_stopCompletion matched).trans (inserted hm)
    · obtain ⟨matched, hm, rfl⟩ := Option.map_eq_some_iff.1 hs
      refine (keys_refreshHints matched).trans ?_
      split at hm
      · cases hm; rfl
      · exact inserted hm

theorem keys_keyRelease (hk : s.keymap.Reachable) (hr : s.keyRelease field key = some s') :
    s'.keyboard.keys = (s.keyboard.strike (.release field key)).keys := by
  unfold keyRelease at hr
  unfold Keyboard.strike
  dsimp only
  generalize s.keyboard.release field key = released at hr ⊢
  obtain ⟨release, keyboard⟩ := released
  cases release with
  | printable => cases hr; rfl
  | named exec =>
    cases exec with
    | none => cases hr; exact keys_clearChord _
    | some m =>
      obtain ⟨matched, hm, rfl⟩ := Option.map_eq_some_iff.1 hr
      exact (keys_clearChord matched).trans (keys_notify (s := { s with keyboard }) hk hm)

end Keys

/-- The strokes that an event tells of. -/
def strokes : Event → List Stroke
  | .keyPress field key => [.press field key true]
  | .keyRelease field key => [.release field key]
  | .ignoreKey rule => [.ignore rule]
  | _ => []

section Events

variable {s s' : Session}

theorem struck_keyPress {field key : Text} (hk : s.keymap.Reachable)
    (hp : s.keyPress field key = some s') :
    Struck s.keyboard [.press field key true] s'.keyboard := by
  refine .strike (.of_keys ?_)
  rw [keys_keyPress hk hp, Keyboard.keys_press]
  rfl

theorem struck_define (s : Session) (d : Except SyntaxError Definition) :
    Struck s.keyboard [] (s.define d).session.keyboard := by
  cases d with
  | error e => exact .refl _
  | ok d => exact .refl _

theorem struck_addIgnore (s : Session) (rule : Text) :
    Struck s.keyboard [.ignore rule] (s.addIgnore rule).session.keyboard := by
  refine .strike (.of_keys ?_)
  unfold addIgnore Keyboard.strike
  dsimp only
  cases s.keyboard.addIgnore rule with
  | ok keyboard => rfl
  | error e => rfl

theorem struck_withVariable {next : Session} (h : next.keyboard = s.keyboard) (name : Text) :
    Struck s.keyboard [] (s.withVariable name next).session.keyboard := by
  unfold withVariable
  split
  · exact .of_keys (congrArg Keyboard.keys h)
  · exact .refl _

/-- Of all events only strokes and modmaps touch the keys. -/
theorem struck_handle {e : Event} {reply : Reply} (hk : s.keymap.Reachable)
    (he : ∀ source target, e ≠ .modmap source target) (hr : s.handle e = some reply) :
    Struck s.keyboard (strokes e) reply.session.keyboard := by
  have accepted {x : Option Session} {ss : List Stroke}
      (hx : ∀ s', x = some s' → Struck s.keyboard ss s'.keyboard)
      (h : x.map Reply.accepted = some reply) : Struck s.keyboard ss reply.session.keyboard := by
    obtain ⟨s', hs', rfl⟩ := Option.map_eq_some_iff.1 h
    exact hx s' hs'
  have edited (i : Input) (hi : i.held = s.input.held) (s' : Session) (h : s.edit i = some s') :
      Struck s.keyboard [] s'.keyboard := .of_keys (keys_edit hk hi h)
  cases e with
  | keyPress field key => exact accepted (fun _ => struck_keyPress hk) hr
  | keyRelease field key =>
    exact accepted (fun _ h => .strike (.of_keys (keys_keyRelease hk h))) hr
  | setLine t => exact accepted (edited (s.input.setLine t) rfl) hr
  | inject t => exact accepted (edited (s.input.insert t) rfl) hr
  | append t => exact accepted (edited (s.input.append t) rfl) hr
  | moveCursor target => exact accepted (edited (s.input.moveCursor target) rfl) hr
  | backspace =>
    refine accepted (fun _ h => .of_keys (keys_edit? hk (fun i hi => ?_) h)) hr
    unfold Input.backspace? at hi
    split at hi <;> cases hi
    rfl
  | delete =>
    refine accepted (fun _ h => .of_keys (keys_edit? hk (fun i hi => ?_) h)) hr
    unfold Input.delete? at hi
    split at hi <;> cases hi
    rfl
  | stripWord seps =>
    refine accepted (fun _ h => .of_keys (keys_edit? hk (fun i hi => ?_) h)) hr
    obtain ⟨cut, hcut, rfl⟩ := Option.map_eq_some_iff.1 hi
    unfold Input.stripWord? at hcut
    split at hcut <;> cases hcut
    rfl
  | submit => exact accepted (fun _ h => .of_keys (keys_submit hk h)) hr
  | historyPrev => exact accepted (fun _ h => .of_keys (keys_showHistory hk h)) hr
  | historyNext => exact accepted (fun _ h => .of_keys (keys_showHistory hk h)) hr
  | historySearch key => exact accepted (fun _ h => .of_keys (keys_showHistory hk h)) hr
  | startCompletion => exact accepted (fun _ h => .of_keys (keys_startCompletion hk h)) hr
  | clearLine => cases hr; exact .of_keys (keys_clearLine s)
  | stopCompletion => cases hr; exact .of_keys (keys_stopCompletion s)
  | builtins names => cases hr; exact .refl _
  | modmap source target => exact absurd rfl (he source target)
  | ignoreKey rule => cases hr; exact struck_addIgnore s rule
  | bind line => cases hr; exact struck_define s _
  | modeBind line => cases hr; exact struck_define s _
  | modeConfig mode name value =>
    cases hr
    exact struck_withVariable (unwritten_keyboard.configureMode s mode name value) name
  | modeChanged mode =>
    cases hr
    exact .of_keys (congrArg Keyboard.keys (unwritten_keyboard.modeChanged s mode))
  | variableSet name value =>
    cases hr
    exact struck_withVariable (unwritten_keyboard.variableSet s name value) name

/-- The strokes that a request tells of. -/
def Request.strokes : Request → List Stroke
  | .event e => Session.strokes e
  | _ => []

theorem struck_serve {r : Request} (hk : s.keymap.Reachable)
    (hr : ∀ source target, r ≠ .event (.modmap source target)) (hs : s.serve r = some s') :
    Struck s.keyboard r.strokes s'.keyboard := by
  cases r with
  | event e =>
    obtain ⟨reply, hreply, rfl⟩ := Option.map_eq_some_iff.1 hs
    exact struck_handle hk (fun source target he => hr source target (he ▸ rfl)) hreply
  | bind mode b => cases hs; exact .refl _
  | drain => cases hs; exact .refl _

/-- As long as no key gets another name, the keys of a session are held as its strokes have it. -/
theorem struck_serveAll {rs : List Request} (hk : s.keymap.Reachable)
    (hr : ∀ source target, .event (.modmap source target) ∉ rs) (hs : s.serveAll rs = some s') :
    Struck s.keyboard (rs.flatMap Request.strokes) s'.keyboard := by
  induction rs generalizing s with
  | nil =>
    cases hs
    exact .refl _
  | cons r rs ih =>
    obtain ⟨next, hn, hrest⟩ := Option.bind_eq_some_iff.1 hs
    have hk' : next.keymap.Reachable := reachable_invariant.serve hk
      (fun _ _ _ hd => (writes_direct hd).reachable hk) hn
    have hhead : ∀ source target, r ≠ .event (.modmap source target) := fun source target heq =>
      hr source target (heq ▸ List.mem_cons_self)
    have htail : ∀ source target, .event (.modmap source target) ∉ rs := fun source target hm =>
      hr source target (List.mem_cons_of_mem r hm)
    exact (struck_serve hk hhead hn).trans (ih hk' htail hrest)

/-- Once every pressed key has been released, whatever else has been asked for in between, no key is
held but those without a name; and with none of these a key types into the line again, which is
matched. -/
theorem typing_resumes {rs : List Request} (hk : s.keymap.Reachable) (hheld : s.input.held = ∅)
    (hr : ∀ source target, .event (.modmap source target) ∉ rs)
    (hreleased : allReleased (rs.flatMap Request.strokes) = true)
    (hnamed : ∀ field key, .event (.keyPress field key) ∈ rs → s.keyboard.mapKey key ≠ [])
    (hs : s.serveAll rs = some s') :
    s'.input.held = ∅ ∧ ∀ key text, s'.isTyping = true → s'.keyboard.types? key = some text →
      s'.keyPress [] key =
        (s'.withInput ({ s'.input with chording := false }.insert text)).update ∅ := by
  have hstruck := struck_serveAll hk hr hs
  have hnamed : ∀ field key typing, .press field key typing ∈ rs.flatMap Request.strokes →
      s.keyboard.mapKey key ≠ [] := by
    intro field key typing hpress
    obtain ⟨r, hmem, hstroke⟩ := List.mem_flatMap.1 hpress
    cases r with
    | event e =>
      cases e with
      | keyPress field' key' =>
        obtain ⟨rfl, rfl, -⟩ := Stroke.press.inj (List.mem_singleton.1 hstroke)
        exact hnamed _ _ hmem
      | keyRelease | ignoreKey => cases List.mem_singleton.1 hstroke
      | _ => cases hstroke
    | bind => cases hstroke
    | drain => cases hstroke
  have hempty : s'.input.held = ∅ := hstruck.held_eq_empty hheld hreleased hnamed
  refine ⟨hempty, fun key text htyping htypes => ?_⟩
  unfold keyPress
  rw [htyping, Keyboard.press_of_not_held hempty htypes]
  rfl

end Events

end Session

end ModalKeys
