import ModalKeys.Proofs.Definition.Install
import ModalKeys.Proofs.Host.Rank
import ModalKeys.Proofs.Session.Nesting

namespace ModalKeys

/-- The definition that an event gives, if it gives one. -/
def Event.definition? : Event → Option Definition
  | bind line => (Definition.ofGlobalLine line).toOption
  | modeBind line => (Definition.ofLine line).toOption
  | _ => none

/-- Holds when an event adds a bind to a registry. -/
def Event.registers (e : Event) : Bool := e.definition?.any Definition.registers

/-- Holds when what a reaction sends has no rank above `n`. -/
def Reaction.StaysWithin (n : Nat) : Reaction → Prop
  | .run b _ => b.staysWithin n = true
  | .prompt p => p.isCommand = true → (Effect.send p.preset).rank ≤ n
  | _ => True

namespace Keymap.Outcome

variable {k : Keymap} {mode : Text} {note : Notification} {text : Text} {rs : List Reaction} {stack : Stack}

/-- What is asked for is a run of a bind that fits, its prompt, or sends nothing. -/
theorem staysWithin (ho : k.Outcome mode note text rs stack) {n : Nat}
    (hm : ∀ b ∈ k.matching mode note text, b.staysWithin n = true) : ∀ r ∈ rs, r.StaysWithin n := by
  have fit {fit : Fit} {later : List Bind} (hf : k.Fitted mode note text fit later) :
      fit.bind.staysWithin n = true := hm _ (hf.matching ▸ List.mem_cons_self)
  cases ho with
  | idle => exact fun _ hr => nomatch hr
  | unwound => simp [Reaction.StaysWithin]
  | alone fitted last free =>
    have hb := fit fitted
    unfold Fit.runAlone
    split <;> simp [Reaction.StaysWithin, hb]
  | live fitted last bound stacked trigger => simp [Reaction.StaysWithin, fit fitted]
  | completed fitted last bound stacked trigger => simp [Reaction.StaysWithin, fit fitted]
  | @moved moved _ fitted more =>
    have hb := fit fitted
    intro r hr
    rcases List.mem_append.1 hr with hr | hr
    · rcases List.mem_append.1 hr with hr | hr
      · split at hr
        · rw [List.mem_singleton.1 hr]
          trivial
        · cases hr
      · split at hr
        · rw [List.mem_singleton.1 hr]
          exact hb
        · cases hr
    · obtain ⟨p, hp, rfl⟩ := List.mem_map.1 hr
      exact Bind.rank_preset_le hb (List.mem_of_getElem? (Option.mem_toList.1 hp))

end Keymap.Outcome

namespace Session

section Writes

variable (s : Session)

theorem sent_noteVariable (name value : Text) : (s.noteVariable name value).sent = s.sent := by
  rw [sent, outbox_noteVariable]
  rfl

theorem sent_assignAll (config : Assoc Text) : (s.assignAll config).sent = s.sent := by
  refine List.foldlRecOn (motive := fun t : Session => t.sent = s.sent) config _ rfl fun t h entry _ => ?_
  by_cases hn : entry.1 = modeName
  · simpa [hn] using h
  · simpa [hn, sent_assign] using h

theorem sent_enteredMode (mode : Text) : (s.enteredMode mode).sent = s.sent := by
  unfold enteredMode
  dsimp only
  split
  · exact sent_assignAll s _
  · rw [sent_assign]
    exact sent_assignAll s _

theorem sent_setMode (mode : Text) : (s.setMode mode).sent = s.sent := by
  by_cases h : s.mode = s.target mode
  · rw [setMode_of_eq h]
  · rw [setMode_of_ne h, sent_enteredMode, sent_emit_set]
    rfl

theorem sent_modeChanged (mode : Text) : (s.modeChanged mode).sent = s.sent := by
  unfold modeChanged
  split
  · rfl
  · exact sent_enteredMode _ mode

theorem sent_configureMode (mode name value : Text) : (s.configureMode mode name value).sent = s.sent := by
  unfold configureMode
  dsimp only
  split
  · exact sent_assign _ name value
  · rfl

theorem sent_variableSet (name value : Text) : (s.variableSet name value).sent = s.sent := by
  unfold variableSet
  dsimp only
  split
  · split
    · exact sent_setMode _ []
    · exact sent_modeChanged s value
  · split
    · split
      · rfl
      · split
        · exact sent_setMode _ []
        · rfl
    · exact sent_noteVariable _ name value

end Writes

/-- Holds when `t` comes from `s` by sending commands that have no rank above `n`, with no bind
besides those of `s`. -/
structure Sends (n : Nat) (s t : Session) : Prop where
  reachable : s.keymap.Reachable → t.keymap.Reachable
  binds : t.allBinds ⊆ s.allBinds
  sent : ∃ commands, t.sent = s.sent ++ commands ∧ ∀ c ∈ commands, (Effect.send c).rank ≤ n

/-- A session with tame binds only. -/
structure Tame (s : Session) : Prop where
  reachable : s.keymap.Reachable
  binds : ∀ b ∈ s.allBinds, b.isTame = true

namespace Sends

variable {m n : Nat} {s t u : Session}

theorem of_writes (h : Writes s t) (hs : t.sent = s.sent) : Sends n s t :=
  ⟨h.reachable, h.allBinds, [], by rw [hs, List.append_nil], fun _ hc => nomatch hc⟩

theorem of_frame {written : Text → Prop} (h : Frame written s t) (hs : t.sent = s.sent) : Sends n s t :=
  of_writes (.of_frame h) hs

theorem refl (s : Session) : Sends n s s := of_writes (.refl s) rfl

theorem trans (h : Sends n s t) (h' : Sends n t u) : Sends n s u := by
  obtain ⟨cs, hs, hc⟩ := h.sent
  obtain ⟨cs', hs', hc'⟩ := h'.sent
  refine ⟨fun hk => h'.reachable (h.reachable hk), fun b hb => h.binds (h'.binds hb), cs ++ cs', ?_, ?_⟩
  · rw [hs', hs, List.append_assoc]
  · intro c hm
    exact (List.mem_append.1 hm).elim (hc c) (hc' c)

theorem mono (h : Sends m s t) (hm : m ≤ n) : Sends n s t := by
  obtain ⟨cs, hs, hc⟩ := h.sent
  exact ⟨h.reachable, h.binds, cs, hs, fun c hmem => (hc c hmem).trans hm⟩

theorem tame (h : Sends n s t) (hs : s.Tame) : t.Tame :=
  ⟨h.reachable hs.reachable, fun b hb => hs.binds b (h.binds hb)⟩

theorem of_keymap (hk : t.keymap = s.keymap) {commands : List Text} (hs : t.sent = s.sent ++ commands)
    (hc : ∀ c ∈ commands, (Effect.send c).rank ≤ n) : Sends n s t := by
  refine ⟨fun h => by rwa [hk], fun b hb => ?_, commands, hs, hc⟩
  rwa [allBinds, hk] at hb

theorem setMode (s : Session) (mode : Text) : Sends n s (s.setMode mode) :=
  of_writes (.setMode s mode) (sent_setMode s mode)

theorem assign (s : Session) (name value : Text) : Sends n s (s.assign name value) :=
  of_writes (.assign s name value) (sent_assign s name value)

theorem clearLine (s : Session) : Sends n s s.clearLine :=
  of_frame (frame_clearLine s) (congrArg Core.sent (core_clearLine s))

theorem clearChord (s : Session) : Sends n s s.clearChord :=
  of_frame (frame_clearChord s) (congrArg Core.sent (core_clearChord s))

theorem clearActive (s : Session) : Sends n s s.clearActive := by
  unfold Session.clearActive
  split
  · exact clearChord s
  · exact clearLine s

theorem stopCompletion (s : Session) : Sends n s s.stopCompletion :=
  of_frame (frame_stopCompletion s) (congrArg Core.sent (core_stopCompletion s))

theorem refresh (s : Session) (modifiers : Modifiers) (old : Input) : Sends n s (s.refresh modifiers old) :=
  of_frame (frame_refresh s modifiers old) (congrArg Core.sent (core_refresh s modifiers old))

theorem run (s : Session) {b : Bind} (hb : b.staysWithin n = true) (args : List Text) :
    Sends n s (s.run b args) := by
  obtain ⟨templates, ha, hr⟩ := Bind.exists_templates_of_staysWithin hb
  have hc : b.isCommands = true := by
    unfold Bind.isCommands
    rw [ha]
  refine of_keymap (keymap_run hc args) (congrArg Core.sent (core_run ha args)) fun c hm => ?_
  obtain ⟨t, ht, rfl⟩ := List.mem_map.1 hm
  exact hr args t ht

theorem prompted (s : Session) {p : Prompt} (hp : p.isCommand = true → (Effect.send p.preset).rank ≤ n) :
    Sends n s (s.prompted p) := by
  have hl : Sends n s (if p.label.isEmpty then s.clearLine else s.clearLine.assign promptName p.label) := by
    split
    · exact clearLine s
    · exact (clearLine s).trans (assign _ _ _)
  unfold Session.prompted
  dsimp only
  split
  · exact hl
  · split
    · next hc =>
      refine hl.trans (of_keymap rfl (congrArg Core.sent (core_send p.preset)) fun c hm => ?_)
      rw [List.mem_singleton.1 hm]
      exact hp hc
    · exact hl.trans (of_frame (frame_withInput _ _ : Frame (· ∈ displayNames) _ _) rfl)

theorem follow (s : Session) {r : Reaction} (hr : r.StaysWithin n) : Sends n s (s.follow r) := by
  cases r with
  | run b args => exact run s hr args
  | clearActive => exact clearActive s
  | enterStack => exact setMode s stackMode
  | prompt p => exact prompted s hr
  | leaveStack restore => exact (assign s promptName []).trans (setMode _ _)

theorem foldl_follow (s : Session) {rs : List Reaction} (hr : ∀ r ∈ rs, r.StaysWithin n) :
    Sends n s (rs.foldl Session.follow s) :=
  List.foldlRecOn rs _ (refl s) fun t h r hm => h.trans (follow t (hr r hm))

/-- A match of tame binds sends no more than its notification can come to. -/
theorem turn (hs : s.Tame) (note : Notification) (text : Text) :
    Sends note.reach s (s.turn note text) := by
  have ho := Keymap.step_outcome hs.reachable.sound s.mode note text
  have hr := ho.staysWithin fun b hb => by
    obtain ⟨hb, hf⟩ := List.mem_filter.1 hb
    exact Bind.staysWithin_of_fits (hs.binds b (mem_allBinds_of_candidates hs.reachable hb)) hf
  exact ⟨fun hk => reachable_turn hk note text, allBinds_turn hs.reachable, (foldl_follow _ hr).sent⟩

end Sends

end Session

theorem Notification.one_le_reach (n : Notification) : 1 ≤ n.reach := by
  unfold reach
  split <;> decide

theorem Session.reach_onChange (s : Session) : (s.onChange ∅).note.reach = 1 := by
  unfold onChange
  split <;> rfl

namespace Dispatch

theorem sends_run {d : Dispatch} (h : d.session.Tame) {limit : Nat} {t : Session}
    (hr : d.run limit = some t) : Session.Sends d.note.reach d.session t := by
  have hs := h.reachable.sound
  have hturn : Session.Sends d.note.reach d.session d.turn := .turn h d.note d.text
  -- On the limit: a line that a prompt fills in is matched under the limit below, and under no modifiers.
  induction limit generalizing d t with
  | zero =>
    cases hf : d.fillsLine with
    | true => rw [run_zero hs hf] at hr; cases hr
    | false =>
      rw [run_of_not_fillsLine hs hf] at hr
      cases hr
      exact hturn
  | succ limit ih =>
    rw [run_succ hs] at hr
    split at hr
    · obtain ⟨u, hu, rfl⟩ := Option.map_eq_some_iff.1 hr
      have hsession : d.inner.session = d.turn := Session.session_onChange d.turn ∅
      have hinner : d.inner.session.Tame := hsession ▸ hturn.tame h
      have hi := ih hinner hu hinner.reachable.sound (.turn hinner _ _)
      rw [hsession, inner, Session.reach_onChange] at hi
      exact (hturn.trans (hi.mono d.note.one_le_reach)).trans (.refresh u ∅ _)
    · cases hr
      exact hturn

end Dispatch

namespace Session

variable {s : Session} {e : Event}

/-- An event raises no match that is out of its reach. -/
theorem reach_of_raised? {d : Dispatch} (h : s.raised? e = some d) : d.note.reach ≤ e.reach := by
  have edited (he : 1 ≤ e.reach) (h : (s.edited? e).map (·.onChange ∅) = some d) :
      d.note.reach ≤ e.reach := by
    obtain ⟨t, -, rfl⟩ := Option.map_eq_some_iff.1 h
    rwa [reach_onChange]
  have key : d.note.reach ≤ 2 := by
    unfold Notification.reach
    split <;> decide
  cases e with
  | keyPress => exact key
  | keyRelease => exact key
  | submit => cases h; exact Nat.le_refl 1
  | clearLine | stopCompletion | builtins | modmap | ignoreKey | bind | modeBind | modeConfig
  | modeChanged | variableSet => cases h
  | _ => exact edited (Nat.le_refl 1) h

/-- A definition that adds no bind only takes binds away, if it does anything. -/
theorem Sends.define {n : Nat} (s : Session) {d : Except SyntaxError Definition}
    (h : d.toOption.any Definition.registers = false) : Sends n s (s.define d).session := by
  cases d with
  | error cause => exact .refl s
  | ok d =>
    change Sends n s (s.withRegistry (d.apply s.keymap.registry).registry)
    have hadds : d.registers = false := h
    refine ⟨fun hk => ?_, fun b hb => ?_, [], (List.append_nil s.sent).symm,
      fun _ hc => nomatch hc⟩
    · rcases d.apply_cases s.keymap.registry with ⟨cause, -, ha⟩ | ⟨-, ha⟩
      · rw [ha]
        exact hk
      · rw [ha]
        exact hk.editAll d.edits
    · refine mem_allBinds.2 ((mem_allBinds.1 hb).imp_right fun hb => ?_)
      exact (Definition.holds_apply hb).resolve_right (by simp [hadds])

/-- An event that raises no match sends nothing. -/
theorem sends_of_not_raised (h : s.raised? e = none) (he : e.registers = false) {reply : Reply}
    (hr : s.handle e = some reply) : Sends 0 s reply.session := by
  have accepted {x : Option Session} (hx : ∀ t, x = some t → Sends 0 s t)
      (he : x.map Reply.accepted = some reply) : Sends 0 s reply.session := by
    obtain ⟨t, ht, rfl⟩ := Option.map_eq_some_iff.1 he
    exact hx t ht
  have record (t : Session) (hk : t.keymap = s.keymap) (hs : t.sent = s.sent) : Sends 0 s t :=
    .of_keymap hk (hs.trans (List.append_nil s.sent).symm) fun _ hc => nomatch hc
  have mapped {i : Option Input} (hi : (i.map s.withInput).map (·.onChange ∅) = none) :
      ∀ t, s.edit? i = some t → Sends 0 s t := by
    rw [Option.map_eq_none_iff, Option.map_eq_none_iff] at hi
    rw [hi]
    rintro _ ⟨⟩
    exact .refl s
  have recalled {found : Option Text × History} (hf : (s.recalled? found).map (·.onChange ∅) = none) :
      ∀ t, s.showHistory found = some t → Sends 0 s t := by
    rw [Option.map_eq_none_iff, recalled?, Option.map_eq_none_iff] at hf
    unfold showHistory
    rw [hf]
    rintro _ ⟨⟩
    exact record _ rfl rfl
  have named {name : Text} {next : Session} (hn : Sends 0 s next) :
      Sends 0 s (s.withVariable name next).session := by
    unfold withVariable
    split
    · exact hn
    · exact .refl s
  cases e with
  | keyPress field key =>
    refine accepted (fun t ht => ?_) hr
    dsimp only [raised?] at h
    split at h
    · cases h
    · next keyboard hp =>
      unfold keyPress at ht
      rw [hp] at ht
      cases ht
      exact (record { s with keyboard } rfl rfl).trans (.assign _ lineName [])
  | keyRelease field key =>
    refine accepted (fun t ht => ?_) hr
    dsimp only [raised?] at h
    split at h
    · cases h
    · next hn =>
      unfold keyRelease at ht
      cases hk : s.keyboard.release field key with
      | mk release keyboard =>
        rw [hk] at ht
        have hb := record { s with keyboard } rfl rfl
        cases release with
        | printable => cases ht; exact hb
        | named exec =>
          cases exec with
          | none => cases ht; exact hb.trans (.clearChord _)
          | some m => exact absurd hk (hn m keyboard)
  | setLine | inject | append | moveCursor | submit => cases h
  | backspace => exact accepted (mapped h) hr
  | delete => exact accepted (mapped h) hr
  | stripWord => exact accepted (mapped h) hr
  | historyPrev => exact accepted (recalled h) hr
  | historyNext => exact accepted (recalled h) hr
  | historySearch => exact accepted (recalled h) hr
  | startCompletion =>
    refine accepted (fun t ht => ?_) hr
    obtain ⟨-, u, hu, hf, hs⟩ | ⟨u, next, hc, -⟩ := s.startCompletion_cases
    · cases hu.symm.trans ht
      exact .of_frame hf hs
    · exact nomatch hc.symm.trans (Option.map_eq_none_iff.1 h)
  | clearLine => cases hr; exact .clearLine s
  | stopCompletion => cases hr; exact .stopCompletion s
  | builtins names => cases hr; exact record _ rfl rfl
  | modmap source target =>
    cases hr
    unfold addModmap
    split
    · exact record _ rfl rfl
    · exact .refl s
  | ignoreKey rule =>
    cases hr
    unfold addIgnore
    split
    · exact record _ rfl rfl
    · exact .refl s
  | bind line => cases hr; exact .define s he
  | modeBind line => cases hr; exact .define s he
  | modeConfig mode name value =>
    cases hr
    exact named (.of_writes (.configureMode s mode name value) (sent_configureMode s mode name value))
  | modeChanged mode => cases hr; exact .of_writes (.modeChanged s mode) (sent_modeChanged s mode)
  | variableSet name value =>
    cases hr
    exact named (.of_writes (.variableSet s name value) (sent_variableSet s name value))

/-- Where all binds are tame every event has a result, and unless it adds a bind itself, no more is
sent than is within its reach. -/
theorem Tame.exists_reply (hs : s.Tame) (he : e.registers = false) :
    ∃ reply, s.handle e = some reply ∧ Sends e.reach s reply.session := by
  cases hd : s.raised? e with
  | none =>
    obtain ⟨reply, hr⟩ := handle_of_not_raised hd
    exact ⟨reply, hr, (sends_of_not_raised hd he hr).mono (Nat.zero_le _)⟩
  | some d =>
    have hc : ∀ b ∈ s.allBinds, b.isCommands = true := fun b hb => by
      obtain ⟨templates, ha, -⟩ := Bind.exists_templates_of_staysWithin (hs.binds b hb)
      rw [Bind.isCommands, ha]
    obtain ⟨-, limit, rest, hlimit, hrest, hh⟩ := raises_of_raised? hd
    have hsome : (d.run limit).isSome = true :=
      (confined_of_raised? hs.reachable hd).run_isSome hc (fun b hb => length_segments_le hb) (by omega)
    obtain ⟨t, ht⟩ := Option.isSome_iff_exists.1 hsome
    obtain ⟨keyboard, history, completion, hsession⟩ := session_of_raised? hd
    have hbefore : Sends e.reach s d.session := by
      rw [hsession]
      exact .of_writes ⟨.inl rfl, rfl⟩ rfl
    have hrun : Sends e.reach d.session t :=
      (Dispatch.sends_run (hbefore.tame hs) ht).mono (reach_of_raised? hd)
    refine ⟨.accepted (rest t), ?_, (hbefore.trans hrun).trans (.of_frame (hrest.frame t) (hrest.sent t))⟩
    rw [hh, ht]
    rfl

end Session

end ModalKeys
