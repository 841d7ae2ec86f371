import ModalKeys.Proofs.Session.Nesting
import ModalKeys.Proofs.Session.StackMode

namespace ModalKeys

/-- Holds when a run writes a mode, and nothing else. -/
structure Run.SwitchesTo (mode : Text) (r : Run) : Prop where
  switches : .set Session.modeName mode ∈ r.effects
  only : ∀ name value, .set name value ∈ r.effects → name = Session.modeName ∧ value = mode

theorem Run.switchesTo_of_effects {mode : Text} {r : Run}
    (h : r.effects = [.set Session.modeName mode]) : r.SwitchesTo mode := by
  constructor
  · rw [h]
    exact List.mem_singleton_self _
  · intro name value he
    rw [h] at he
    cases List.mem_singleton.1 he
    exact ⟨rfl, rfl⟩

namespace Session

/-- Holds when `s'` comes from `s` by a switch to a mode in which nothing is in progress. -/
structure Arrived (mode : Text) (s s' : Session) : Prop where
  mode : s'.mode = mode
  keymap : s'.keymap = s.keymap.reset
  prompt : s'.vars.get? promptName = none
  defaultMode : s'.defaultMode = s.defaultMode

section Switch

variable {s : Session} {mode : Text} {effects : List Effect}

theorem Arrived.frame {written : Text → Prop} {s' s'' : Session} (h : Arrived mode s s')
    (hf : Frame written s' s'') (hm : ¬ written modeName) (hp : ¬ written promptName) :
    Arrived mode s s'' where
  mode := (hf.mode_eq hm).trans h.mode
  keymap := hf.keymap.trans h.keymap
  prompt := (hf.vars promptName hp).trans h.prompt
  defaultMode := hf.defaultMode.trans h.defaultMode

variable (hn : mode ≠ [])

include hn

theorem setMode_of_mode (h : s.mode = mode) : s.setMode mode = s :=
  setMode_of_eq (by rw [target_of_ne_nil s hn, h])

theorem arrived_setMode (hst : mode ≠ stackMode) (h : s.mode ≠ mode) :
    Arrived mode s (s.setMode mode) := by
  have ht : s.target mode = mode := target_of_ne_nil s hn
  have hne : s.mode ≠ s.target mode := by rwa [ht]
  have hf := frame_setMode hne
  rw [ht] at hf
  refine ⟨by rw [mode_setMode, ht], ?_, prompt_setMode (by rwa [ht]) hne, hf.defaultMode⟩
  rw [hf.keymap, keymap_inMode_of_ne s hst]

/-- In the mode itself the switch is passed over. -/
theorem frame_performAll_of_mode (h : s.mode = mode)
    (only : ∀ name value, Effect.set name value ∈ effects → name = modeName ∧ value = mode) :
    Frame (fun _ => False) s (s.performAll effects) := by
  induction effects generalizing s with
  | nil => exact Frame.refl s
  | cons e effects ih =>
    have hrest := fun name value he => only name value (List.mem_cons_of_mem e he)
    cases e with
    | send command => exact (frame_send s command).trans (ih (s := s.send command) h hrest)
    | set name value =>
      obtain ⟨rfl, rfl⟩ := only name value List.mem_cons_self
      have hs : s.perform (.set modeName value) = s := setMode_of_mode hn h
      change Frame _ s ((s.perform (.set modeName value)).performAll effects)
      rw [hs]
      exact ih h hrest

/-- From any other mode the first switch counts, and those after it are passed over. -/
theorem arrived_performAll (hst : mode ≠ stackMode) (h : s.mode ≠ mode)
    (switches : .set modeName mode ∈ effects)
    (only : ∀ name value, Effect.set name value ∈ effects → name = modeName ∧ value = mode) :
    Arrived mode s (s.performAll effects) := by
  induction effects generalizing s with
  | nil => cases switches
  | cons e effects ih =>
    have hrest := fun name value he => only name value (List.mem_cons_of_mem e he)
    cases e with
    | send command =>
      have hmem : .set modeName mode ∈ effects :=
        (List.mem_cons.1 switches).resolve_left (fun he => by cases he)
      have ha := ih (s := s.send command) h hmem hrest
      exact ⟨ha.mode, ha.keymap, ha.prompt, ha.defaultMode⟩
    | set name value =>
      obtain ⟨rfl, rfl⟩ := only name value List.mem_cons_self
      have ha := arrived_setMode hn hst h
      exact ha.frame (frame_performAll_of_mode hn ha.mode hrest) not_false not_false

variable {b : Bind} {args : List Text} (hr : Run.SwitchesTo mode ⟨b, args⟩)

include hr

theorem frame_run_of_mode (h : s.mode = mode) :
    Frame (fun _ => False) (s.logged [⟨b, args⟩]) (s.run b args) := by
  rw [run_eq]
  exact frame_performAll_of_mode hn h hr.only

theorem arrived_run (hst : mode ≠ stackMode) (h : s.mode ≠ mode) :
    Arrived mode s (s.run b args) := by
  rw [run_eq]
  have ha := arrived_performAll (s := s.logged [⟨b, args⟩]) hn hst h hr.switches hr.only
  exact ⟨ha.mode, ha.keymap, ha.prompt, ha.defaultMode⟩

end Switch

end Session

namespace Dispatch

/-- The mode that takes the place of the mode of a handler once a bind in progress ends. -/
def modeAfter (x : Dispatch) : Text :=
  x.session.target (x.keymap.stack.lastMode.getD [])

section Turn

variable {x : Dispatch} {mode : Text} {b : Bind} {later : List Bind}

/-- A run that is not the last of a bind in progress is followed by the display only. -/
theorem frame_closing (s : Session)
    (hstay : x.keymap.runsAlone b = true ∨ x.keymap.runsOut b x.note = false) :
    Session.Frame (· ∈ Session.displayNames) s
      ((x.keymap.closing b x.note).foldl Session.follow s) := by
  have hc : x.keymap.closing b x.note = [] ∨ x.keymap.closing b x.note = [.clearActive] := by
    unfold Keymap.closing
    cases ha : x.keymap.runsAlone b with
    | true => cases b.captures x.keymap.stack.depth <;> simp
    | false =>
      have ho := hstay.resolve_left (by simp [ha])
      simp [ho]
  rcases hc with hc | hc <;> rw [hc]
  · exact Session.Frame.refl s
  · exact Session.frame_clearActive s

variable (hk : x.keymap.Sound)
  (hs : Session.StackedIn (fun m => m = stackMode ∨ m = []) x.session)
  (hn : mode ≠ []) (hst : mode ≠ stackMode)

section Mode

include hs hn hst

/-- In a mode that can be switched to nothing is in progress. -/
theorem depth_of_mode (h : x.mode = mode) : x.depth = 0 := by
  apply Decidable.byContradiction
  intro hd
  rcases hs.stacked hd with hm | hm
  · exact hst (h.symm.trans hm)
  · exact hn (h.symm.trans hm)

end Mode

variable (hm : x.matching = b :: later)

include hk hn hst hm

section Last

variable (hl : b.goesOn x.depth = false)
  (hr : Run.SwitchesTo mode ⟨b, x.keymap.argsOf b x.text⟩)

include hs hl hr

theorem turn_of_switch
    (hstay : x.keymap.runsAlone b = true ∨ x.keymap.runsOut b x.note = false) :
    x.turn.mode = mode ∧ x.turn.keymap.stack = .empty ∧
      (x.mode ≠ mode → x.turn.vars.get? Session.promptName = none) := by
  rw [turn_of_last hk hm hl]
  let u : Session := { x.session with keymap := x.keymap.closed x.mode x.note x.text b }
  have hframe := frame_closing (x := x) (u.run b (x.keymap.argsOf b x.text)) hstay
  rw [hframe.mode_eq (by decide), hframe.keymap, hframe.vars Session.promptName (by decide)]
  by_cases hmode : x.mode = mode
  · have hrun := Session.frame_run_of_mode (s := u) hn hr hmode
    have hd : x.keymap.stack.depth = 0 := depth_of_mode hs hn hst hmode
    have ha : x.keymap.runsAlone b = true := by simp [Keymap.runsAlone, hd]
    refine ⟨(hrun.mode_eq not_false).trans hmode, ?_, fun hne => absurd hmode hne⟩
    rw [hrun.keymap]
    change (x.keymap.closed x.mode x.note x.text b).stack = .empty
    rw [Keymap.closed, if_pos ha, hk.stack.eq_empty hd]
  · have hrun := Session.arrived_run (s := u) hn hr hst hmode
    refine ⟨hrun.mode, ?_, fun _ => hrun.prompt⟩
    rw [hrun.keymap]
    rfl

theorem turn_of_last_switch (ha : x.keymap.runsAlone b = false)
    (ho : x.keymap.runsOut b x.note = true) :
    x.turn.mode = x.modeAfter ∧ x.turn.keymap.stack = .empty ∧
      (x.modeAfter ≠ stackMode → x.turn.vars.get? Session.promptName = none) := by
  have hd : x.depth ≠ 0 := by
    intro hd
    have hd : x.keymap.stack.depth = 0 := hd
    simp [Keymap.runsAlone, hd] at ha
  have hmode : x.mode ≠ mode := fun h => hd (depth_of_mode hs hn hst h)
  have hc : x.keymap.closing b x.note = [.leaveStack x.keymap.stack.lastMode] := by
    simp [Keymap.closing, ha, ho]
  let u : Session := { x.session with keymap := x.keymap.closed x.mode x.note x.text b }
  have hrun := Session.arrived_run (s := u) hn hr hst hmode
  -- The run is over and the stack mode is left, though the session is not in it any more.
  let w : Session := (u.run b (x.keymap.argsOf b x.text)).assign Session.promptName []
  have hturn : x.turn = w.setMode (x.keymap.stack.lastMode.getD []) := by
    rw [turn_of_last hk hm hl, hc]
    rfl
  have hw : Session.Frame (Session.promptName = ·) (u.run b (x.keymap.argsOf b x.text)) w :=
    Session.frame_assign rfl _ []
  have ht : w.target (x.keymap.stack.lastMode.getD []) = x.modeAfter := by
    unfold modeAfter Session.target
    rw [hw.defaultMode, hrun.defaultMode]
  have hnone : w.vars.get? Session.promptName = none := by
    rw [Session.get?_assign, if_pos rfl]
    rfl
  have hempty : w.keymap.stack = .empty := by
    rw [hw.keymap, hrun.keymap]
    rfl
  rw [hturn]
  refine ⟨by rw [Session.mode_setMode, ht], ?_, fun hne => ?_⟩
  · rcases (Session.Writes.setMode w (x.keymap.stack.lastMode.getD [])).keymap with h | h
    · rw [h, hempty]
    · rw [h]
      rfl
  · by_cases heq : w.mode = w.target (x.keymap.stack.lastMode.getD [])
    · rw [Session.setMode_of_eq heq, hnone]
    · exact Session.prompt_setMode (by rwa [ht]) heq

end Last

theorem turn_of_live_switch (hl : b.goesOn x.depth = true)
    (hlive : Stack.liveNext b (x.depth + 1) = true)
    (hr : Run.SwitchesTo mode ⟨b, x.keymap.stack.args ++ b.captured x.depth x.text ++ [[]]⟩) :
    x.turn.mode = mode ∧ x.turn.keymap.stack = .empty := by
  obtain ⟨p, stack, -, ht, -⟩ := turn_of_more hk hm hl
  -- Ahead of the run the stack mode has been entered, if it was not on.
  let v : Session := (if x.mode = stackMode then [] else [.enterStack]).foldl Session.follow
    (x.session.withStack stack)
  have hv : v.mode = stackMode := by
    by_cases hs : x.mode = stackMode
    · have hv : v = x.session.withStack stack := by simp [v, hs]
      rw [hv]
      exact hs
    · have hv : v = (x.session.withStack stack).setMode stackMode := by
        simp [v, hs, Session.follow]
      rw [hv, Session.mode_setMode, Session.target_of_ne_nil _ (by decide)]
  have hopening : x.keymap.opening x.mode x.text b =
      (if x.mode = stackMode then [] else [.enterStack]) ++
        [.run b (x.keymap.stack.args ++ b.captured x.depth x.text ++ [[]])] := by
    rw [Keymap.opening]
    exact congrArg _ (if_pos hlive)
  have hrun := Session.arrived_run (s := v) hn hr hst (by rw [hv]; exact hst.symm)
  have hturn : x.turn =
      (v.run b (x.keymap.stack.args ++ b.captured x.depth x.text ++ [[]])).prompted p := by
    rw [ht, hopening, List.foldl_append]
    rfl
  have hp := Session.frame_prompted
    (v.run b (x.keymap.stack.args ++ b.captured x.depth x.text ++ [[]])) p
  rw [hturn]
  refine ⟨(hp.mode_eq (by decide)).trans hrun.mode, ?_⟩
  rw [hp.keymap, hrun.keymap]
  rfl

end Turn

end Dispatch

namespace Session

/-- Holds when an event whose match nests `n` others leads only to sessions with a property. It
leads to one as long as the limit allows for as many. -/
def LeadsTo (s : Session) (e : Event) (n : Nat) (P : Session → Prop) : Prop :=
  (n + 2 ≤ s.limit → ∃ reply, s.handle e = some reply) ∧
    ∀ reply, s.handle e = some reply → P reply.session

theorem leadsTo_of_turn {s : Session} (hk : s.keymap.Reachable) {e : Event} {d x : Dispatch}
    {ds : List Dispatch} (hd : s.raised? e = some d) (hn : (d :: ds).IsChain Dispatch.Nests)
    (hx : (d :: ds).getLast? = some x) (hs : x.Settles) {P : Session → Prop}
    (hP : ∀ t, Frame (· ∈ displayNames) x.turn t → P t) : s.LeadsTo e ds.length P := by
  obtain ⟨hf, limit, rest, hlimit, hrest, hh⟩ := raises_of_raised? hd
  have hdk : d.keymap.Reachable := by
    rw [Dispatch.keymap, hf.keymap]
    exact hk
  obtain ⟨hsome, hframe⟩ := Dispatch.run_of_chain hdk hn hx hs limit
  constructor
  · intro hroom
    obtain ⟨t, ht⟩ := hsome (by omega)
    exact ⟨_, by rw [hh, ht, Option.map_some]⟩
  · intro reply hreply
    obtain ⟨t, ht, rfl⟩ := Option.map_eq_some_iff.1 (hh.symm.trans hreply)
    exact hP _ ((hframe t ht).trans (hrest.frame t))

/-- An event whose match runs a handler that switches the mode ends in that mode, with nothing in
progress, if the bind is run alone or stays on the stack; the prompt is gone unless the session was
in that mode before. The last run of a bind in progress gives way to the mode in which the bind was
begun. A live last segment that fires as soon as it is next ends in the mode of the handler, if its
prompt fills in no line that is matched there. -/
theorem mode_switched {settings : Settings} {es : List Registry.Edit} {rs : List Request}
    {s : Session} (hs : (start settings (Registry.empty.editAll es)).serveAll rs = some s)
    {e : Event} {d x : Dispatch} {ds : List Dispatch} (hd : s.raised? e = some d)
    (hn : (d :: ds).IsChain Dispatch.Nests) (hx : (d :: ds).getLast? = some x)
    {b : Bind} {later : List Bind} (hm : x.matching = b :: later)
    {mode : Text} (hne : mode ≠ []) (hst : mode ≠ stackMode) :
    (b.goesOn x.depth = false → Run.SwitchesTo mode ⟨b, x.keymap.argsOf b x.text⟩ →
      x.keymap.runsAlone b = true ∨ x.keymap.runsOut b x.note = false →
        s.LeadsTo e ds.length fun t => t.mode = mode ∧ t.keymap.stack = .empty ∧
          (x.mode ≠ mode → t.vars.get? promptName = none)) ∧
    (b.goesOn x.depth = false → Run.SwitchesTo mode ⟨b, x.keymap.argsOf b x.text⟩ →
      x.keymap.runsAlone b = false → x.keymap.runsOut b x.note = true →
        s.LeadsTo e ds.length fun t => t.mode = x.modeAfter ∧ t.keymap.stack = .empty ∧
          (x.modeAfter ≠ stackMode → t.vars.get? promptName = none)) ∧
    (b.goesOn x.depth = true → Stack.liveNext b (x.depth + 1) = true →
      Run.SwitchesTo mode ⟨b, x.keymap.stack.args ++ b.captured x.depth x.text ++ [[]]⟩ →
      x.Settles →
        s.LeadsTo e ds.length fun t => t.mode = mode ∧ t.keymap.stack = .empty) := by
  have hinv := StackedIn.invariant (P := fun m => m = stackMode ∨ m = []) (.inl rfl)
  have h₀ := StackedIn.serveAll (P := fun m => m = stackMode ∨ m = []) (.inl rfl) (fun _ => .inr rfl)
    es rs hs
  have h₁ := hinv.display s d.session (raises_of_raised? hd).1 h₀
  obtain ⟨hk, hstack⟩ := Dispatch.invariant_of_chain hinv h₁ hn x (List.mem_of_getLast? hx)
  have settles (hl : b.goesOn x.depth = false) : x.Settles := by
    intro hf
    rw [Dispatch.fillsLine_of_last hk.sound hm hl] at hf
    cases hf
  have leads {P : Session → Prop} (hset : x.Settles)
      (hP : ∀ t, Frame (· ∈ displayNames) x.turn t → P t) : s.LeadsTo e ds.length P :=
    leadsTo_of_turn h₀.1 hd hn hx hset hP
  refine ⟨fun hl hr hstay => ?_, fun hl hr ha ho => ?_, fun hl hlive hr hset => ?_⟩
  · obtain ⟨hmode, hempty, hprompt⟩ :=
      Dispatch.turn_of_switch hk.sound hstack hne hst hm hl hr hstay
    refine leads (settles hl) fun t ht => ?_
    rw [ht.mode_eq (by decide), ht.keymap, ht.vars promptName (by decide)]
    exact ⟨hmode, hempty, hprompt⟩
  · obtain ⟨hmode, hempty, hprompt⟩ :=
      Dispatch.turn_of_last_switch hk.sound hstack hne hst hm hl hr ha ho
    refine leads (settles hl) fun t ht => ?_
    rw [ht.mode_eq (by decide), ht.keymap, ht.vars promptName (by decide)]
    exact ⟨hmode, hempty, hprompt⟩
  · obtain ⟨hmode, hempty⟩ := Dispatch.turn_of_live_switch hk.sound hne hst hm hl hlive hr
    refine leads hset fun t ht => ?_
    rw [ht.mode_eq (by decide), ht.keymap]
    exact ⟨hmode, hempty⟩

/-- Holds when the only bind that matches is one on the stack, which is run by its last segment and
switches the mode; `out` tells whether the run is its last. -/
def switchesLast (d : Dispatch) (mode : Text) (out : Bool) : Bool :=
  (d.matching.map fun c => (c.goesOn d.depth, d.keymap.runsAlone c, d.keymap.runsOut c d.note,
    Run.effects ⟨c, d.keymap.argsOf c d.text⟩)) = [(false, false, out, [.set modeName mode])]

theorem exists_switchesLast {d : Dispatch} {mode : Text} {out : Bool}
    (h : switchesLast d mode out = true) :
    ∃ c, d.matching = [c] ∧ c.goesOn d.depth = false ∧
      Run.SwitchesTo mode ⟨c, d.keymap.argsOf c d.text⟩ ∧ d.keymap.runsAlone c = false ∧
      d.keymap.runsOut c d.note = out := by
  obtain ⟨c, hm, hc⟩ := List.map_eq_singleton_iff.1 (of_decide_eq_true h)
  simp only [Prod.mk.injEq] at hc
  obtain ⟨hl, ha, ho, he⟩ := hc
  exact ⟨c, hm, hl, Run.switchesTo_of_effects he, ha, ho⟩

theorem exists_ok_of_any {ε α : Type} {r : Except ε α} {p : α → Bool}
    (h : r.toOption.any p = true) : ∃ a, r = .ok a ∧ p a = true := by
  cases r with
  | error => cases h
  | ok a => exact ⟨a, rfl, h⟩

/-- A live last segment fits on the stack, and its handler leaves for another mode. -/
theorem mode_switched_live :
    ∃ b s d reply, Bind.ofHandler "f<go:>l*".toList
        (fun _ _ => [.set modeName "insert".toList]) false = .ok b ∧
      (start .initial (Registry.empty.editAll [])).serveAll
        [.bind "command".toList b, .event (.keyPress [] ['f'])] = some s ∧
      s.raised? (.keyPress [] ['l']) = some d ∧ d.mode = stackMode ∧
      s.handle (.keyPress [] ['l']) = some reply ∧
      reply.session.mode = "insert".toList ∧ reply.session.keymap.stack = .empty ∧
      reply.session.vars.get? promptName = none := by
  have hview : (Bind.ofHandler "f<go:>l*".toList
      (fun _ _ => [.set modeName "insert".toList]) false).toOption.any (fun b =>
        ((start .initial (Registry.empty.editAll [])).serveAll
          [.bind "command".toList b, .event (.keyPress [] ['f'])]).any fun s =>
            (s.raised? (.keyPress [] ['l'])).any fun d =>
              decide (d.mode = stackMode) && switchesLast d "insert".toList false) = true := by
    decide +kernel
  obtain ⟨b, hb, hview⟩ := exists_ok_of_any hview
  obtain ⟨s, hs, hview⟩ := (Option.any_eq_true _ _).1 hview
  obtain ⟨d, hd, hview⟩ := (Option.any_eq_true _ _).1 hview
  obtain ⟨hstack, hview⟩ := Bool.and_eq_true_iff.1 hview
  have hstack : d.mode = stackMode := of_decide_eq_true hstack
  obtain ⟨c, hm, hl, hr, -, ho⟩ := exists_switchesLast hview
  obtain ⟨hsome, hall⟩ := (mode_switched hs hd (List.isChain_singleton d) rfl hm (by decide)
    (by decide)).1 hl hr (.inr ho)
  obtain ⟨reply, hreply⟩ := hsome s.two_le_limit
  obtain ⟨hmode, hempty, hprompt⟩ := hall reply hreply
  have hother : d.mode ≠ "insert".toList := by
    rw [hstack]
    decide
  exact ⟨b, s, d, reply, hb, hs, hd, hstack, hreply, hmode, hempty, hprompt hother⟩

/-- An exact last segment runs the same handler, and the mode of the handler is given up again. -/
theorem mode_restored_after_switch :
    ∃ b s d c reply, Bind.ofHandler "f<go:>x".toList
        (fun _ _ => [.set modeName "insert".toList]) false = .ok b ∧
      (start .initial (Registry.empty.editAll [])).serveAll
        [.bind "command".toList b, .event (.keyPress [] ['f'])] = some s ∧
      s.raised? (.keyPress [] ['x']) = some d ∧ d.matching = [c] ∧ c.goesOn d.depth = false ∧
      Run.SwitchesTo "insert".toList ⟨c, d.keymap.argsOf c d.text⟩ ∧
      s.handle (.keyPress [] ['x']) = some reply ∧ reply.session.mode = "command".toList := by
  have hview : (Bind.ofHandler "f<go:>x".toList
      (fun _ _ => [.set modeName "insert".toList]) false).toOption.any (fun b =>
        ((start .initial (Registry.empty.editAll [])).serveAll
          [.bind "command".toList b, .event (.keyPress [] ['f'])]).any fun s =>
            (s.raised? (.keyPress [] ['x'])).any (switchesLast · "insert".toList true) &&
              (s.handle (.keyPress [] ['x'])).any (·.session.mode = "command".toList)) = true := by
    decide +kernel
  obtain ⟨b, hb, hview⟩ := exists_ok_of_any hview
  obtain ⟨s, hs, hview⟩ := (Option.any_eq_true _ _).1 hview
  obtain ⟨hraised, hhandled⟩ := Bool.and_eq_true_iff.1 hview
  obtain ⟨d, hd, hview⟩ := (Option.any_eq_true _ _).1 hraised
  obtain ⟨c, hm, hl, hr, -, -⟩ := exists_switchesLast hview
  obtain ⟨reply, hreply, hmode⟩ := (Option.any_eq_true _ _).1 hhandled
  exact ⟨b, s, d, c, reply, hb, hs, hd, hm, hl, hr, hreply, of_decide_eq_true hmode⟩

end Session

end ModalKeys
