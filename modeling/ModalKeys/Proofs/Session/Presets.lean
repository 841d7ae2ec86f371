import ModalKeys.Proofs.Session.Nesting

namespace ModalKeys

/-- Holds when a bind shows a prompt once the stack has reached a depth, fills in its preset and
then waits for the line to be submitted. -/
structure Bind.Prefills (b : Bind) (depth : Nat) (p : Prompt) : Prop where
  shown : b.prompt? depth = some p
  text : p.isCommand = false
  filled : p.preset ≠ []
  submitted : (b.segment? depth).any (·.trigger.onExec) = true

theorem Bind.goesOn_of_prompt? {b : Bind} {depth : Nat} {p : Prompt}
    (h : b.prompt? (depth + 1) = some p) : b.goesOn depth = true := by
  have hlt : depth < b.pattern.prompts.length := (List.getElem?_eq_some_iff.1 h).1
  have hlen := Pattern.compile_prompts b.compiled
  exact decide_eq_true (by omega)

theorem Bind.Prefills.silent {b : Bind} {depth : Nat} {p : Prompt} (h : b.Prefills depth p)
    {note : Notification} (hn : note.exec = false) (text : Text) :
    b.answer depth note text = .silent := by
  obtain ⟨s, hs, hx⟩ := (Option.any_eq_true _ _).1 h.submitted
  have hh : s.hears note = false := by simp [Segment.hears, hx, hn]
  rw [answer, hs]
  exact if_neg (by simp [hh])

theorem Scan.through_of_silent {depth : Nat} {mode : Text} {note : Notification} {text : Text}
    (c : Scan) {bs : List Bind} (h : ∀ b ∈ bs, b.answer depth note text = .silent) :
    c.through depth mode note text bs = c.close depth note := by
  induction bs with
  | nil => rfl
  | cons b bs ih =>
    rw [through, h b List.mem_cons_self]
    exact ih fun d hd => h d (List.mem_cons_of_mem b hd)

/-- A change of the line of which no candidate hears leaves everything as it is. -/
theorem Keymap.step_of_silent {k : Keymap} (h : k.Sound) {mode : Text} {note : Notification}
    {text : Text} (hs : note.submits = false)
    (hb : ∀ b ∈ k.candidates mode, b.answer k.stack.depth note text = .silent) :
    k.step mode note text = ([], k.stack) := by
  rw [step, Scan.through_of_silent _ hb, start_close h.stack.pending, Stack.giveUp]
  by_cases hd : k.stack.depth = 0
  · simp [hd]
  · have hne := h.binds_ne_nil hd
    simp [hs, hne]

namespace Session

theorem input_prompted {s : Session} {p : Prompt} (hn : p.preset ≠ []) (hc : p.isCommand = false) :
    (s.prompted p).input.before = p.preset ∧ (s.prompted p).input.after = [] := by
  have hp : p.preset.isEmpty = false := by simpa using hn
  unfold prompted
  simp only [hp, hc, Bool.false_eq_true, if_false]
  exact ⟨rfl, rfl⟩

theorem prompt_prompted {s : Session} {p : Prompt} (hl : p.label ≠ []) :
    (s.prompted p).vars.get? promptName = some p.label := by
  have hlabel : p.label.isEmpty = false := by simpa using hl
  have ha : (s.clearLine.assign promptName p.label).vars.get? promptName = some p.label := by
    rw [get?_assign, if_pos rfl, Variables.assigned, hlabel, if_neg Bool.false_ne_true]
  unfold prompted
  simp only [hlabel, Bool.false_eq_true, if_false]
  split
  · exact ha
  · split <;> exact ha

end Session

namespace Dispatch

variable {d : Dispatch}

/-- Where there is a single bind, nothing else matches. -/
theorem matching_of_only {b : Bind} (h : d.Confined [b]) (hn : d.matching ≠ []) :
    ∃ later, d.matching = b :: later := by
  obtain ⟨c, later, hm⟩ := List.exists_cons_of_ne_nil hn
  have hmem : c ∈ d.matching := hm ▸ List.mem_cons_self
  have hc : c = b := List.mem_singleton.1 (h.candidates (List.mem_filter.1 hmem).1)
  exact ⟨later, hc ▸ hm⟩

/-- While a bind waits for a submission, the line that its prompt fills in is matched to no
effect. -/
theorem run_of_prefills {b : Bind} (h : d.Confined [b]) (hb : b.isCommands = true)
    (hf : d.fillsLine = true) {p : Prompt} (hp : b.Prefills (d.depth + 1) p) (limit : Nat) :
    d.run (limit + 1) = some (d.turn.refresh ∅ d.turn.input) := by
  have hc : ∀ c ∈ [b], c.isCommands = true := by simpa using hb
  obtain ⟨h', hdepth⟩ := h.nests hc ((nests_iff h.sound).2 ⟨hf, rfl⟩)
  have hexec : d.inner.note.exec = false := by
    unfold inner Session.onChange
    split <;> rfl
  have hsubmits : d.inner.note.submits = false := by simp [Notification.submits, hexec]
  have hsilent : ∀ c ∈ d.inner.keymap.candidates d.inner.mode,
      c.answer d.inner.depth d.inner.note d.inner.text = .silent := by
    intro c hcand
    rw [List.mem_singleton.1 (h'.candidates hcand), hdepth]
    exact hp.silent hexec _
  rw [run_succ h.sound, if_pos hf, run_of_idle (Keymap.step_of_silent h'.sound hsubmits hsilent),
    Option.map_some, inner, Session.session_onChange]

end Dispatch

namespace Session

theorem confined_of_only {s : Session} (hk : s.keymap.Reachable) {b : Bind}
    (only : ∀ c ∈ s.allBinds, c = b) {e : Event} {d : Dispatch} (hd : s.raised? e = some d) :
    d.Confined [b] := by
  have h := confined_of_raised? hk hd
  exact ⟨h.sound, fun c hc => List.mem_singleton.2 (only c (h.subset hc))⟩

/-- Once an event has been handled that matches the segment ahead of a prompt with a preset, the
prompt is shown. The preset is in the line, with the cursor at its end, unless the event is a
submission, which leaves no line at all. -/
theorem preset_kept_unless_submitted {s : Session} (hk : s.keymap.Reachable) {b : Bind}
    (only : ∀ c ∈ s.allBinds, c = b) (hb : b.isCommands = true) {e : Event} {d : Dispatch}
    (hd : s.raised? e = some d) (hm : b ∈ d.matching) {p : Prompt}
    (hp : b.Prefills (d.depth + 1) p) :
    ∃ reply, s.handle e = some reply ∧
      (p.label ≠ [] → reply.session.vars.get? promptName = some p.label) ∧
      (e ≠ .submit → reply.session.input.line = p.preset ∧
        reply.session.input.cursor = p.preset.length) ∧
      (e = .submit → reply.session.input.line = []) := by
  have hconf : d.Confined [b] := confined_of_only hk only hd
  obtain ⟨later, hmatch⟩ := Dispatch.matching_of_only hconf (List.ne_nil_of_mem hm)
  obtain ⟨q, stack, hq, ht, hfills⟩ :=
    Dispatch.turn_of_more hconf.sound hmatch (Bind.goesOn_of_prompt? hp.shown)
  obtain rfl : q = p := Option.some.inj (hq.symm.trans hp.shown)
  have hf : d.fillsLine = true := hfills (by simp [Reaction.fillsLine, hp.filled, hp.text])
  obtain ⟨-, limit, rest, hlimit, hrest, hh⟩ := raises_of_raised? hd
  obtain ⟨limit, rfl⟩ : ∃ n, limit = n + 1 := by
    have htwo := s.two_le_limit
    exact Nat.exists_eq_succ_of_ne_zero (by omega)
  rw [Dispatch.run_of_prefills hconf hb hf hp] at hh
  have hinput : (d.turn.refresh ∅ d.turn.input).input = d.turn.input :=
    congrArg (·.keyboard.input) (core_refresh d.turn ∅ d.turn.input)
  obtain ⟨hbefore, hafter⟩ : d.turn.input.before = q.preset ∧ d.turn.input.after = [] := by
    rw [ht]
    exact input_prompted hp.filled hp.text
  refine ⟨_, hh, ?_, ?_, ?_⟩
  · intro hl
    have hframe := (frame_refresh d.turn ∅ d.turn.input).trans (hrest.frame _)
    change (rest (d.turn.refresh ∅ d.turn.input)).vars.get? promptName = some q.label
    rw [hframe.vars promptName (by decide), ht, prompt_prompted hl]
  · intro he
    have hkept := hrest.line he (d.turn.refresh ∅ d.turn.input)
    rw [hinput, hbefore, hafter] at hkept
    constructor
    · change (rest _).input.before ++ (rest _).input.after = q.preset
      rw [hkept.1, hkept.2, List.append_nil]
    · exact congrArg List.length hkept.1
  · intro he
    change (rest _).input.line = []
    rw [hrest.cleared he]
    exact congrArg (·.keyboard.input.line) (core_clearLine _)

/-- Holds when an event at depth zero matches the only bind of a session, which then shows a prompt
and waits for a submission. -/
def opensPrompt (s : Session) (e : Event) (p : Prompt) : Bool :=
  (s.allBinds.map fun b => (b.isCommands, b.prompt? 1, (b.segment? 1).any (·.trigger.onExec))) =
      [(true, some p, true)] &&
    ((s.raised? e).map fun d => (d.depth, d.matching.isEmpty)) = some (0, false)

theorem exists_prefills {s : Session} (hk : s.keymap.Reachable) {e : Event} {p : Prompt}
    (text : p.isCommand = false) (filled : p.preset ≠ []) (h : s.opensPrompt e p = true) :
    ∃ b d, s.allBinds = [b] ∧ b.isCommands = true ∧ s.raised? e = some d ∧ b ∈ d.matching ∧
      b.Prefills (d.depth + 1) p := by
  obtain ⟨hbinds, hraised⟩ := Bool.and_eq_true_iff.1 h
  obtain ⟨b, hall, hb⟩ := List.map_eq_singleton_iff.1 (of_decide_eq_true hbinds)
  obtain ⟨hc, hb⟩ := Prod.mk.inj hb
  obtain ⟨hshown, hsubmitted⟩ := Prod.mk.inj hb
  obtain ⟨d, hd, hmatched⟩ := Option.map_eq_some_iff.1 (of_decide_eq_true hraised)
  obtain ⟨hdepth, hne⟩ := Prod.mk.inj hmatched
  have only : ∀ c ∈ s.allBinds, c = b := by simp [hall]
  have hm : d.matching ≠ [] := by
    intro he
    rw [he] at hne
    cases hne
  obtain ⟨later, hm⟩ := Dispatch.matching_of_only (confined_of_only hk only hd) hm
  refine ⟨b, d, hall, hc, hd, hm ▸ List.mem_cons_self, ?_⟩
  rw [hdepth]
  exact ⟨hshown, text, filled, hsubmitted⟩

/-- The preset of a bind for addresses is in the line after the key of the bind. -/
theorem preset_kept_after_key :
    ∃ s b reply, (start .initial (Registry.empty.editAll [])).serveAll
        [.event (.modeBind "command s<uri:http://>_ = uri %s".toList)] = some s ∧
      s.allBinds = [b] ∧ s.handle (.keyPress [] ['s']) = some reply ∧
      reply.session.vars.get? promptName = some "uri:".toList ∧
      reply.session.input.line = "http://".toList ∧ reply.session.input.cursor = 7 := by
  have hview : ((start .initial (Registry.empty.editAll [])).serveAll
      [.event (.modeBind "command s<uri:http://>_ = uri %s".toList)]).any
        (·.opensPrompt (.keyPress [] ['s']) ⟨"uri:".toList, false, "http://".toList⟩) = true := by
    decide +kernel
  obtain ⟨s, hs, hview⟩ := (Option.any_eq_true _ _).1 hview
  have hk := reachable_serveAll _ [] _ hs
  obtain ⟨b, d, hall, hb, hd, hm, hp⟩ := exists_prefills hk rfl (by decide) hview
  have only : ∀ c ∈ s.allBinds, c = b := by simp [hall]
  obtain ⟨reply, hreply, hprompt, hline, -⟩ := preset_kept_unless_submitted hk only hb hd hm hp
  obtain ⟨hline, hcursor⟩ := hline (by simp)
  exact ⟨s, b, reply, hs, hall, hreply, hprompt (by decide), hline, hcursor⟩

/-- If the key has to be submitted, the same prompt is shown, but the line is empty. -/
theorem preset_lost_on_submission :
    ∃ s b d reply, (start .initial (Registry.empty.editAll [])).serveAll
        [.event (.modeBind "command s!<uri:http://>_ = uri %s".toList),
          .event (.setLine ['s'])] = some s ∧
      s.allBinds = [b] ∧ b.isCommands = true ∧ s.raised? .submit = some d ∧ b ∈ d.matching ∧
      b.Prefills (d.depth + 1) ⟨"uri:".toList, false, "http://".toList⟩ ∧
      s.handle .submit = some reply ∧ reply.session.input.line ≠ "http://".toList := by
  have hview : ((start .initial (Registry.empty.editAll [])).serveAll
      [.event (.modeBind "command s!<uri:http://>_ = uri %s".toList),
        .event (.setLine ['s'])]).any (fun s =>
        s.opensPrompt .submit ⟨"uri:".toList, false, "http://".toList⟩ &&
          (s.handle .submit).any (·.session.input.line.isEmpty)) = true := by
    decide +kernel
  obtain ⟨s, hs, hview⟩ := (Option.any_eq_true _ _).1 hview
  obtain ⟨hview, hline⟩ := Bool.and_eq_true_iff.1 hview
  obtain ⟨b, d, hall, hb, hd, hm, hp⟩ :=
    exists_prefills (reachable_serveAll _ [] _ hs) rfl (by decide) hview
  obtain ⟨reply, hreply, hline⟩ := (Option.any_eq_true _ _).1 hline
  refine ⟨s, b, d, reply, hs, hall, hb, hd, hm, hp, hreply, ?_⟩
  rw [List.isEmpty_iff.1 hline]
  decide

end Session

end ModalKeys
