import ModalKeys.Proofs.Keymap.Prompted
import ModalKeys.Proofs.Session.Mirror
import ModalKeys.Proofs.Session.Typing

namespace ModalKeys.Session

open Text

/-- At rest, with a prompted bind as the only one in force. -/
structure Offers (p : Prompted) (templates : List Text) (c : Core) : Prop where
  idle : c.keyboard.Idle
  cleared : c.keyboard.typed [] = c.keyboard
  resting : c.keymap = .ofRegistry c.keymap.registry
  only : c.keymap.registry.bindsIn c.mode = [p.bind templates]
  chords : c.keymap.registry.globalChords = []
  unstacked : c.mode ≠ stackMode
  named : c.mode ≠ []
  unconfigured : c.modeConfig = []
  typing : c.typing = true

/-- What becomes of it once some arguments have been submitted and a line has been typed. -/
def Core.during (c : Core) (p : Prompted) (templates args : List Text) (line : Text) : Core :=
  { c with
    keyboard := c.keyboard.typed line
    keymap := { c.keymap with stack := p.stack templates c.mode args }
    mode := stackMode }

/-- A stage is typed, and submitted. -/
def answering (g : Stage) (text : Text) : List Request :=
  typing (g.literal ++ text) ++ [.event .submit]

/-- The opening is typed, and then each stage is answered. -/
def requests (p : Prompted) (texts : List Text) : List Request :=
  typing p.opening ++ (List.zipWith answering p.stages texts).flatten

section Stages

variable {p : Prompted} {templates args : List Text} {c : Core} (h : Offers p templates c) {s : Session}

include h

/-- What is ahead of the last character of the opening matches nothing. -/
theorem step_ahead {init : Text} {d : Char} (ho : p.opening = init ++ [d]) {u : Text}
    (hu : u <+: init) : c.keymap.step c.mode (.commandUpdate ∅) u = ([], c.keymap.stack) := by
  have hne : u ≠ p.opening := by
    intro he
    have hle := hu.length_le
    rw [he, ho, List.length_append, List.length_singleton] at hle
    omega
  rw [h.resting]
  exact p.step_unopened templates ∅ h.only hne

/-- Once the stack has moved on, the mode is switched and the first prompt is shown. -/
theorem core_opened {line : Text} (hs : s.core = { c.during p templates [] line with mode := c.mode })
    (g : Stage) : ((s.setMode stackMode).prompted g.prompt).core = c.during p templates [] [] := by
  have htarget : s.target stackMode = stackMode := target_of_ne_nil s (by decide)
  have hmode : s.mode = c.mode := congrArg Core.mode hs
  have hother : s.mode ≠ s.target stackMode := by
    rw [htarget, hmode]
    exact h.unstacked
  have hconfig : s.modeConfig = [] := (congrArg Core.modeConfig hs).trans h.unconfigured
  rw [core_prompted rfl, core_setMode hconfig hother, htarget, hs]
  rfl

/-- The opening is typed like any text, up to its last character, which begins the bind. -/
theorem serveAll_opening (hs : s.core = c) :
    ∃ t, s.serveAll (typing p.opening) = some t ∧ t.core = c.during p templates [] [] := by
  obtain ⟨g, hg⟩ : ∃ g, p.stages[0]? = some g := by
    obtain ⟨g, gs, hgs⟩ := List.exists_cons_of_ne_nil p.asks
    exact ⟨g, by rw [hgs]; rfl⟩
  obtain ⟨init, d, ho⟩ : ∃ init d, p.opening = init ++ [d] :=
    ⟨_, _, (List.dropLast_concat_getLast p.opens).symm⟩
  have hstart : s.core = { c with keyboard := c.keyboard.typed [] } := by rw [h.cleared, hs]
  obtain ⟨t, ht, htc⟩ := serveAll_typing h.idle hstart h.typing fun u _ hu => step_ahead h ho hu
  have hkey : t.keyboard = c.keyboard.typed init := congrArg Core.keyboard htc
  have hmode : t.mode = c.mode := congrArg Core.mode htc
  have hmap : t.keymap = c.keymap := congrArg Core.keymap htc
  have htyping : t.isTyping = true := (congrArg Core.typing htc).trans h.typing
  have hstep : t.keymap.step t.mode (.commandUpdate ∅) (init ++ [d]) =
      ([.enterStack, .prompt g.prompt], p.stack templates c.mode []) := by
    rw [hmap, hmode, h.resting, ← ho]
    exact p.step_opened templates ∅ h.only h.unstacked h.named hg
  let v : Session := Session.withStack { t with keyboard := c.keyboard.typed (init ++ [d]) }
    (p.stack templates c.mode [])
  have hv : v.core = { c.during p templates [] (init ++ [d]) with mode := c.mode } := by
    change { t.core with
      keyboard := c.keyboard.typed (init ++ [d])
      keymap := { t.keymap with stack := p.stack templates c.mode [] } } = _
    rw [hmap, htc]
    rfl
  have hu := core_opened h hv g
  have hidle : ((v.setMode stackMode).prompted g.prompt).keyboard.Idle := by
    have hk : ((v.setMode stackMode).prompted g.prompt).keyboard = c.keyboard.typed [] :=
      congrArg Core.keyboard hu
    rw [hk]
    exact h.idle.typed []
  obtain ⟨t', ht', htc'⟩ := serveAll_keystroke h.idle hkey htyping hstep
    (by simp [Reaction.fillsLine, Stage.prompt]) rfl hidle
  refine ⟨t', ?_, htc'.trans hu⟩
  have hkeys : typing p.opening = typing init ++ keystroke d := by
    rw [ho, typing, List.flatMap_append, List.flatMap_singleton]
    rfl
  rw [hkeys, serveAll_append ht]
  exact ht'

/-- Nothing that is typed while the bind is in progress is answered. -/
theorem serveAll_argument (hs : s.core = c.during p templates args []) (text : Text) :
    ∃ t, s.serveAll (typing text) = some t ∧ t.core = c.during p templates args text := by
  have hi : s.core = { c.during p templates args [] with keyboard := c.keyboard.typed [] } := hs
  exact serveAll_typing h.idle hi h.typing fun u _ _ => p.step_typing templates ∅ h.chords args

omit h in
theorem step_of_during {line : Text} (hs : s.core = c.during p templates args line)
    (note : Notification) (text : Text) : s.keymap.step s.mode note text =
      (Keymap.mk c.keymap.registry (p.stack templates c.mode args)).step stackMode note text := by
  have hmode : s.mode = stackMode := congrArg Core.mode hs
  have hmap : s.keymap = ⟨c.keymap.registry, p.stack templates c.mode args⟩ :=
    congrArg Core.keymap hs
  rw [hmode, hmap]

/-- A submission ahead of the last only shows the next prompt. -/
theorem serve_stage {g next : Stage} {text : Text}
    (hs : s.core = c.during p templates args (g.literal ++ text))
    (hg : p.stages[args.length]? = some g) (hnext : p.stages[args.length + 1]? = some next) :
    ∃ t, s.serve (.event .submit) = some t ∧ t.core = c.during p templates (args ++ [text]) [] := by
  have hkey : s.keyboard = c.keyboard.typed (g.literal ++ text) := congrArg Core.keyboard hs
  have hstep : s.keymap.step s.mode (.commandExec ∅) (g.literal ++ text) =
      ([.prompt next.prompt], p.stack templates c.mode (args ++ [text])) := by
    rw [step_of_during hs]
    exact p.step_submitted templates ∅ h.chords hg hnext
  obtain ⟨u, hu, hsubmit⟩ := serve_submit hkey hstep (by simp [Reaction.fillsLine, Stage.prompt])
  refine ⟨_, hsubmit, ?_⟩
  have hp : (follow (u.withStack (p.stack templates c.mode (args ++ [text])))
      (.prompt next.prompt)).core = _ := core_prompted rfl
  rw [List.foldl_cons, List.foldl_nil, core_clearLine, hp, core_withStack, hu, hs]
  rfl

/-- The last submission runs the bind and goes back to where it was begun. -/
theorem serve_last {g : Stage} {text : Text}
    (hs : s.core = c.during p templates args (g.literal ++ text))
    (hg : p.stages[args.length]? = some g) (hl : args.length + 1 = p.stages.length) :
    ∃ t, s.serve (.event .submit) = some t ∧
      t.core = c.send (templates.map (Template.expand (args ++ [text]))) ∧
      t.vars.get? lineName = none ∧ t.vars.get? promptName = none := by
  have hkey : s.keyboard = c.keyboard.typed (g.literal ++ text) := congrArg Core.keyboard hs
  have hstep : s.keymap.step s.mode (.commandExec ∅) (g.literal ++ text) =
      ([.run (p.bind templates) (args ++ [text]), .leaveStack (some c.mode)], .empty) := by
    rw [step_of_during hs]
    exact p.step_completed templates ∅ h.chords hg hl
  obtain ⟨u, hu, hsubmit⟩ := serve_submit hkey hstep (by simp [Reaction.fillsLine])
  let ran : Session := (u.withStack .empty).run (p.bind templates) (args ++ [text])
  let left : Session := (ran.assign promptName []).setMode c.mode
  have hran : (ran.assign promptName []).core = ((c.during p templates args
      (g.literal ++ text)).withStack .empty).send (templates.map (Template.expand (args ++ [text]))) := by
    rw [core_display (by decide), core_run rfl, core_withStack, hu, hs]
  have hconfig : (ran.assign promptName []).modeConfig = [] :=
    (congrArg Core.modeConfig hran).trans h.unconfigured
  have hstacked : (ran.assign promptName []).mode = stackMode := congrArg Core.mode hran
  have htarget : (ran.assign promptName []).target c.mode = c.mode := target_of_ne_nil _ h.named
  have hother : (ran.assign promptName []).mode ≠ (ran.assign promptName []).target c.mode := by
    rw [hstacked, htarget]
    exact h.unstacked.symm
  refine ⟨left.clearLine, hsubmit, ?_, get?_clearLine left, ?_⟩
  · rw [core_clearLine, core_setMode hconfig hother, hran, htarget]
    change Core.mk (c.keyboard.typed []) (if c.mode = stackMode then _ else _) _ _ _ _ _ = _
    rw [h.cleared, if_neg h.unstacked]
    change Core.mk _ (Keymap.ofRegistry c.keymap.registry) _ _ _ _ _ = _
    rw [← h.resting]
    rfl
  · rw [(frame_clearLine left).vars promptName (by decide)]
    exact prompt_setMode (by rw [htarget]; exact h.unstacked) hother

/-- All stages but some of the last, one after the other. -/
theorem serveAll_stages {gs rest : List Stage} {texts : List Text}
    (hs : s.core = c.during p templates args []) (hg : p.stages.drop args.length = gs ++ rest)
    (hrest : rest ≠ []) (hl : texts.length = gs.length) :
    ∃ t, s.serveAll (List.zipWith answering gs texts).flatten = some t ∧
      t.core = c.during p templates (args ++ texts) [] := by
  induction gs generalizing s args texts with
  | nil =>
    obtain rfl : texts = [] := List.eq_nil_of_length_eq_zero hl
    exact ⟨s, rfl, by rw [List.append_nil]; exact hs⟩
  | cons g gs ih =>
    obtain ⟨text, texts, rfl⟩ : ∃ text ts, texts = text :: ts :=
      List.exists_cons_of_length_eq_add_one hl
    obtain ⟨next, more, hn⟩ : ∃ next more, gs ++ rest = next :: more :=
      List.exists_cons_of_ne_nil (by simp [hrest])
    have hat (i : Nat) : p.stages[args.length + i]? = (g :: next :: more)[i]? := by
      rw [← List.getElem?_drop, hg, List.cons_append, hn]
    obtain ⟨t, ht, htc⟩ := serveAll_argument h hs (g.literal ++ text)
    obtain ⟨u, hu, huc⟩ := serve_stage h htc (hat 0) (hat 1)
    have hd : p.stages.drop (args ++ [text]).length = gs ++ rest := by
      rw [List.length_append, ← List.drop_drop, hg]
      rfl
    obtain ⟨v, hv, hvc⟩ := ih huc hd (Nat.succ.inj hl)
    refine ⟨v, ?_, by rw [hvc, List.append_assoc]; rfl⟩
    have hstage : s.serveAll (answering g text) = some u := by
      rw [answering, serveAll_append ht]
      exact serveAll_singleton hu
    rw [List.zipWith_cons_cons, List.flatten_cons, serveAll_append hstage]
    exact hv

/-- From rest to rest. All that is left of the bind is what it has sent. -/
theorem serveAll_prompted (hs : s.core = c) {texts : List Text}
    (hl : texts.length = p.stages.length) :
    ∃ before after, s.serveAll (requests p texts).dropLast = some before ∧
      s.serveAll (requests p texts) = some after ∧ before.sent = c.sent ∧
      after.core = c.send (templates.map (Template.expand texts)) ∧
      after.vars.get? lineName = none ∧ after.vars.get? promptName = none := by
  obtain ⟨gs, g, hstages⟩ : ∃ gs g, p.stages = gs ++ [g] :=
    ⟨_, _, (List.dropLast_concat_getLast p.asks).symm⟩
  have hne : texts ≠ [] := by
    rintro rfl
    exact p.asks (List.eq_nil_of_length_eq_zero hl.symm)
  obtain ⟨ts, text, rfl⟩ : ∃ ts text, texts = ts ++ [text] :=
    ⟨_, _, (List.dropLast_concat_getLast hne).symm⟩
  have hlen : ts.length = gs.length := by
    rw [hstages, List.length_append, List.length_append] at hl
    exact Nat.succ.inj hl
  have hreq : requests p (ts ++ [text]) = (typing p.opening ++
      ((List.zipWith answering gs ts).flatten ++ typing (g.literal ++ text))) ++ [.event .submit] := by
    rw [requests, hstages, List.zipWith_append hlen.symm, List.flatten_append]
    simp [answering]
  have hlast : p.stages[ts.length]? = some g := by
    rw [hstages, hlen]
    exact List.getElem?_concat_length
  have hend : ts.length + 1 = p.stages.length := by
    rw [hstages, hlen, List.length_append]
    rfl
  obtain ⟨opened, ho, hoc⟩ := serveAll_opening h hs
  obtain ⟨answered, ha, hac⟩ := serveAll_stages h hoc hstages (by simp) hlen
  obtain ⟨before, hb, hbc⟩ := serveAll_argument h hac (g.literal ++ text)
  obtain ⟨after, hf, hfc, hline, hprompt⟩ := serve_last h hbc hlast hend
  have hbefore : s.serveAll (typing p.opening ++
      ((List.zipWith answering gs ts).flatten ++ typing (g.literal ++ text))) = some before := by
    rw [serveAll_append ho, serveAll_append ha]
    exact hb
  refine ⟨before, after, ?_, ?_, congrArg Core.sent hbc, hfc, hline, hprompt⟩
  · rw [hreq, List.dropLast_concat]
    exact hbefore
  · rw [hreq, serveAll_append hbefore]
    exact serveAll_singleton hf

end Stages

section Sent

variable {s t : Session}

/-- Commands stay queued until the host takes them. -/
theorem sent_serve {r : Request} (hr : r ≠ .drain) (h : s.serve r = some t) : s.sent <+: t.sent := by
  cases r with
  | event e =>
    have hm : Moves (s.told e.reported?) t := moves_call (c := .request (.event e)) h
    obtain ⟨es, hq⟩ := hm.queues
    have ho := hq.outbox
    rw [outbox_told] at ho
    rw [sent, sent, ho, List.filterMap_append]
    exact List.prefix_append _ _
  | bind mode b => cases h; exact List.prefix_refl _
  | drain => exact absurd rfl hr

theorem sent_serveAll {rs : List Request} (hr : ∀ r ∈ rs, r ≠ .drain) (h : s.serveAll rs = some t) :
    s.sent <+: t.sent := by
  induction rs generalizing s with
  | nil => cases h; exact List.prefix_refl _
  | cons r rs ih =>
    obtain ⟨u, hu, h⟩ := Option.bind_eq_some_iff.1 h
    exact (sent_serve (hr r List.mem_cons_self) hu).trans
      (ih (fun d hd => hr d (List.mem_cons_of_mem r hd)) h)

theorem ne_drain_of_mem_typing {text : Text} {r : Request} (h : r ∈ typing text) : r ≠ .drain := by
  obtain ⟨c, -, hc⟩ := List.mem_flatMap.1 h
  rintro rfl
  simp [keystroke] at hc

theorem ne_drain_of_mem_requests {p : Prompted} {texts : List Text} {r : Request}
    (h : r ∈ requests p texts) : r ≠ .drain := by
  have hstages (gs : List Stage) (ts : List Text)
      (h : r ∈ (List.zipWith answering gs ts).flatten) : r ≠ .drain := by
    induction gs generalizing ts with
    | nil => cases h
    | cons g gs ih =>
      cases ts with
      | nil => cases h
      | cons text ts =>
        rw [List.zipWith_cons_cons, List.flatten_cons, List.mem_append, answering,
          List.mem_append, List.mem_singleton] at h
        rcases h with (h | rfl) | h
        · exact ne_drain_of_mem_typing h
        · exact Request.noConfusion
        · exact ih ts h
  rcases List.mem_append.1 h with h | h
  · exact ne_drain_of_mem_typing h
  · exact hstages _ _ h

end Sent

/-- A bind that is no chord, put where it is in force in the mode that a session begins in. -/
theorem exists_registry {b : Bind} (hb : b.isGlobal = false) {mode : Text}
    (hm : mode = globalMode ∨ mode = Settings.initial.defaultMode) :
    ∃ r, Registry.empty.add mode b = .ok r ∧ r.bindsIn Settings.initial.defaultMode = [b] ∧
      r.globalChords = [] := by
  rcases hm with rfl | rfl
  · refine ⟨⟨[.bound b], [], [b].filter Bind.isGlobal⟩, rfl, rfl, ?_⟩
    rw [List.filter_cons_of_neg (by simp [hb]), List.filter_nil]
  · exact ⟨⟨[], [(Settings.initial.defaultMode, [.bound b])], []⟩, rfl, rfl, rfl⟩

/-- However a prompted bind is answered, it finishes: nothing is sent until all of its arguments
have been submitted, then each template is, once and in order, expanded with the arguments; and the
session is back in its first mode, with no bind in progress, an empty line and no prompt. -/
theorem prompted_bind_answered (p : Prompted) (templates : List Text) {mode : Text}
    (hm : mode = globalMode ∨ mode = Settings.initial.defaultMode) {texts : List Text}
    (hl : texts.length = p.stages.length) :
    ∃ b r after, Bind.ofCommands p.source templates = .ok b ∧ Registry.empty.add mode b = .ok r ∧
      (∀ rs, rs <+: (requests p texts).dropLast →
        ∃ before, (start .initial r).serveAll rs = some before ∧ before.sent = []) ∧
      (start .initial r).serveAll (requests p texts) = some after ∧
      after.sent = templates.map (Template.expand texts) ∧
      after.mode = (start .initial r).mode ∧ after.keymap.stack = .empty ∧
      after.input.line = [] ∧
      after.vars.get? lineName = none ∧ after.vars.get? promptName = none := by
  obtain ⟨r, hr, honly, hchords⟩ := exists_registry (p.isGlobal_bind templates) hm
  obtain ⟨k, hk, hmap, hcore⟩ := core_start r
  have hcleared : k.typed [] = k := by
    have hline : k.input.setLine [] = k.input := by rw [hk]; rfl
    rw [Keyboard.typed, hline]
  have hoffers : Offers p templates (start .initial r).core := by
    rw [hcore]
    exact ⟨idle_of_initial hk hmap, hcleared, rfl, honly, hchords,
      (by decide : Settings.initial.defaultMode ≠ stackMode),
      (by decide : Settings.initial.defaultMode ≠ []), rfl, rfl⟩
  obtain ⟨before, after, hb, ha, hsent, hac, hline, hprompt⟩ := serveAll_prompted hoffers rfl hl
  rw [hcore] at hsent hac
  have hmode : (start .initial r).mode = Settings.initial.defaultMode := congrArg Core.mode hcore
  refine ⟨_, r, after, p.ofCommands_source templates, hr, ?_, ha, congrArg Core.sent hac, ?_, ?_,
    ?_, hline, hprompt⟩
  · rintro rs ⟨rest, hrs⟩
    rw [← hrs, serveAll, List.foldlM_append] at hb
    obtain ⟨t, ht, hrest⟩ := Option.bind_eq_some_iff.1 hb
    have hall : ∀ d ∈ rest, d ≠ .drain := fun d hd =>
      ne_drain_of_mem_requests (List.dropLast_subset _ (hrs ▸ List.mem_append_right rs hd))
    have hle := sent_serveAll hall hrest
    rw [hsent] at hle
    exact ⟨t, ht, List.prefix_nil.1 hle⟩
  · rw [hmode]
    exact congrArg Core.mode hac
  · exact congrArg (·.keymap.stack) hac
  · have hkey : after.keyboard = k := congrArg Core.keyboard hac
    unfold input
    rw [hkey, hk]
    rfl

/-- Two prompts, a literal with a blank in it, and an argument that looks like a token. -/
theorem prompted_bind_answered_twice :
    ∃ b r after, Bind.ofCommands "o<open:>_<with:>in _".toList ["open %1 %2".toList, "done".toList] =
        .ok b ∧
      Registry.empty.add globalMode b = .ok r ∧
      (start .initial r).serveAll (typing "o".toList ++ typing "a b".toList ++ [.event .submit] ++
        typing "in %1".toList ++ [.event .submit]) = some after ∧
      after.sent = ["open a b %1".toList, "done".toList] ∧
      after.mode = (start .initial r).mode ∧ after.keymap.stack = .empty ∧
      after.vars.get? promptName = none := by
  let p : Prompted :=
    ⟨"o".toList,
      [⟨"open".toList, [], by simp [Pattern.isLabelStop, isQuoteMark], by simp⟩,
        ⟨"with".toList, "in ".toList, by simp [Pattern.isLabelStop, isQuoteMark], by simp⟩],
      by decide, by simp, by simp⟩
  obtain ⟨b, r, after, hb, hr, -, ha, hsent, hmode, hstack, -, -, hprompt⟩ :=
    prompted_bind_answered p ["open %1 %2".toList, "done".toList] (.inl rfl)
      (rfl : ["a b".toList, "%1".toList].length = p.stages.length)
  have hexpand : ["open %1 %2".toList, "done".toList].map
      (Template.expand ["a b".toList, "%1".toList]) = ["open a b %1".toList, "done".toList] := by
    decide +kernel
  exact ⟨b, r, after, hb, hr, ha, hsent.trans hexpand, hmode, hstack, hprompt⟩

end ModalKeys.Session
