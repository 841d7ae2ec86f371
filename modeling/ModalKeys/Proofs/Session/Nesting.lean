import Mathlib.Data.List.Chain
import Mathlib.Data.List.Flatten
import ModalKeys.Proofs.Session.Raised

namespace ModalKeys

/-- Holds when a bind has commands to send, and no handler. -/
def Bind.isCommands (b : Bind) : Bool :=
  match b.action with
  | .commands _ => true
  | .callable .. => false

/-- Holds when a reaction leaves the stack as it is. A handler may switch the mode, and so end the
bind in progress. -/
def Reaction.keepsStack : Reaction → Bool
  | .run b _ => b.isCommands
  | .leaveStack _ => false
  | _ => true

namespace Keymap

variable {k : Keymap} {mode : Text} {note : Notification} {text : Text}

theorem holds_of_mem_candidates (h : k.Sound) {b : Bind} (hb : b ∈ k.candidates mode) :
    b ∈ k.stack.binds ∨ k.registry.Holds b := by
  unfold candidates at hb
  split at hb
  · exact .inr (Registry.holds_of_mem_bindsIn hb)
  · rcases List.mem_append.1 hb with hb | hb
    · exact .inl hb
    · exact .inr (Registry.holds_of_mem_globalChords h.registry hb)

theorem step_of_unmatched (h : k.Sound) (hd : k.stack.depth = 0)
    (hm : k.matching mode note text = []) : k.step mode note text = ([], k.stack) := by
  have hp : (k.kept mode note text).pending = none := by rw [kept_pending, h.stack.pending]
  rw [step_of_no_fit k hm, start_close hp, kept, if_pos hd, Stack.giveUp]
  simp [hd]

/-- No bind comes onto the stack that was not on it and is no candidate. -/
theorem Outcome.mem_binds {reactions : List Reaction} {stack : Stack}
    (ho : k.Outcome mode note text reactions stack) {b : Bind} (hb : b ∈ stack.binds) :
    b ∈ k.stack.binds ∨ b ∈ k.candidates mode := by
  cases ho with
  | idle | live => exact .inl ((kept_sublist k mode note text).subset hb)
  | unwound | completed => cases hb
  | alone => exact .inl hb
  | moved fitted more =>
    refine .inr (fitted.mem_candidates ?_)
    rcases List.mem_cons.1 hb with rfl | hb
    · exact List.mem_cons_self
    · exact List.mem_cons_of_mem _ (List.mem_filter.1 hb).1

/-- The line is filled in only by a bind that goes on. Its stack is one segment deeper and holds
candidates only, and nothing that is asked for takes it away again. -/
theorem Outcome.of_fillsLine {reactions : List Reaction} {stack : Stack}
    (ho : k.Outcome mode note text reactions stack)
    (hc : ∀ b ∈ k.candidates mode, b.isCommands = true)
    (hf : reactions.any (·.fillsLine) = true) :
    stack.depth = k.stack.depth + 1 ∧ stack.binds ⊆ k.candidates mode ∧
      ∀ r ∈ reactions, r.keepsStack = true := by
  cases ho with
  | idle unmatched stays => cases hf
  | unwound unmatched stacked ends => cases hf
  | alone fitted last free =>
    unfold Fit.runAlone at hf
    split at hf <;> cases hf
  | live fitted last bound stacked trigger => cases hf
  | completed fitted last bound stacked trigger => cases hf
  | @moved fit later fitted more =>
    have hm : ∀ b ∈ fit.bind :: later, b ∈ k.candidates mode := fun _ => fitted.mem_candidates
    refine ⟨rfl, ?_, ?_⟩
    · intro b hb
      rcases List.mem_cons.1 hb with rfl | hb
      · exact hm _ List.mem_cons_self
      · exact hm b (List.mem_cons_of_mem _ (List.mem_filter.1 hb).1)
    · have hfit : fit.bind.isCommands = true := hc _ (hm _ List.mem_cons_self)
      intro r hr
      rcases List.mem_append.1 hr with hr | hr
      · rcases List.mem_append.1 hr with hr | hr
        · split at hr
          · rw [List.mem_singleton.1 hr]
            rfl
          · cases hr
        · split at hr
          · rw [List.mem_singleton.1 hr]
            exact hfit
          · cases hr
      · obtain ⟨p, -, rfl⟩ := List.mem_map.1 hr
        rfl

end Keymap

namespace Session

theorem mem_allBinds {s : Session} {b : Bind} :
    b ∈ s.allBinds ↔ b ∈ s.keymap.stack.binds ∨ s.keymap.registry.Holds b := by
  simp [allBinds, Registry.Holds]

theorem mem_allBinds_of_candidates {s : Session} (hk : s.keymap.Reachable) {mode : Text} {b : Bind}
    (hb : b ∈ s.keymap.candidates mode) : b ∈ s.allBinds :=
  mem_allBinds.2 (Keymap.holds_of_mem_candidates hk.sound hb)

/-- Writes bring no further binds. -/
theorem Writes.allBinds {s t : Session} (h : Writes s t) : t.allBinds ⊆ s.allBinds := by
  intro b hb
  rw [mem_allBinds] at hb ⊢
  rcases h.keymap with hk | hk <;> rw [hk] at hb
  · exact hb
  · exact hb.imp_left fun hb => nomatch hb

theorem allBinds_turn {s : Session} (hk : s.keymap.Reachable) {note : Notification} {text : Text} :
    (s.turn note text).allBinds ⊆ s.allBinds := by
  intro b hb
  have ho := Keymap.step_outcome hk.sound s.mode note text
  rcases mem_allBinds.1 ((s.writes_turn note text).allBinds hb) with hm | hm
  · exact (ho.mem_binds hm).elim (fun hm => mem_allBinds.2 (.inl hm)) (mem_allBinds_of_candidates hk)
  · exact mem_allBinds.2 (.inr hm)

section Reactions

variable {s : Session}

theorem keymap_run {b : Bind} (hb : b.isCommands = true) (args : List Text) :
    (s.run b args).keymap = s.keymap := by
  obtain ⟨templates, ht⟩ : ∃ templates, b.action = .commands templates := by
    unfold Bind.isCommands at hb
    split at hb
    · next templates ht => exact ⟨templates, ht⟩
    · cases hb
  exact congrArg Core.keymap (core_run ht args)

theorem keymap_setMode_stackMode (s : Session) : (s.setMode stackMode).keymap = s.keymap := by
  have ht : s.target stackMode = stackMode := target_of_ne_nil s (by decide)
  by_cases hm : s.mode = s.target stackMode
  · rw [setMode_of_eq hm]
  · rw [(frame_setMode hm).keymap, ht, keymap_inMode_stackMode]

theorem keymap_follow {r : Reaction} (h : r.keepsStack = true) :
    (s.follow r).keymap = s.keymap := by
  cases r with
  | run b args => exact keymap_run h args
  | clearActive => exact (frame_clearActive s).keymap
  | enterStack => exact keymap_setMode_stackMode s
  | prompt p => exact (frame_prompted s p).keymap
  | leaveStack restore => cases h

theorem keymap_foldl_follow {rs : List Reaction} (h : ∀ r ∈ rs, r.keepsStack = true) :
    (rs.foldl follow s).keymap = s.keymap := by
  induction rs generalizing s with
  | nil => rfl
  | cons r rs ih =>
    rw [List.foldl_cons, ih fun r hr => h r (List.mem_cons_of_mem _ hr),
      keymap_follow (h r List.mem_cons_self)]

end Reactions

end Session

namespace Dispatch

variable {d d' : Dispatch} {binds : List Bind} {ds : List Dispatch}

/-- Holds when a match has `d'` done before it is done itself: it has no result unless the session
of `d'` is followed to a result. -/
def Nests (d d' : Dispatch) : Prop :=
  ∃ s : Session, d' = s.onChange ∅ ∧
    ∀ changed, changed s = none → d.session.dispatch changed d.note d.text = none

theorem nests_iff (h : d.keymap.Sound) : d.Nests d' ↔ d.fillsLine = true ∧ d' = d.inner := by
  constructor
  · rintro ⟨s, rfl, hs⟩
    cases hf : d.fillsLine with
    | false =>
      have hn := hs (fun _ => none) rfl
      rw [dispatch_eq h, hf] at hn
      cases hn
    | true =>
      -- Of all sessions only the one after the turn is followed.
      have ht : d.turn = s := by
        classical
        apply Decidable.byContradiction
        intro hne
        have hn := hs (fun t => if t = s then none else some t) (if_pos rfl)
        rw [dispatch_eq h, if_pos hf, if_neg hne] at hn
        cases hn
      exact ⟨rfl, by rw [inner, ht]⟩
  · rintro ⟨hf, rfl⟩
    refine ⟨d.turn, rfl, fun changed hn => ?_⟩
    rw [dispatch_eq h, if_pos hf, hn]

theorem reachable_inner (h : d.keymap.Reachable) : d.inner.keymap.Reachable := by
  rw [keymap, inner, Session.session_onChange]
  exact Session.reachable_turn h d.note d.text

/-- An invariant outlasts the matches that are nested in one another. -/
theorem invariant_of_chain {P : Session → Prop} (hP : Session.Invariant P) (h : P d.session)
    (hn : (d :: ds).IsChain Nests) : ∀ x ∈ d :: ds, P x.session := by
  refine hn.induction (fun x => P x.session) _ ?_ fun _ => h
  intro x y hxy hx
  obtain ⟨-, rfl⟩ := (nests_iff (hP.reachable _ hx).sound).1 hxy
  rw [inner, Session.session_onChange]
  exact hP.turn _ _ _ hx

/-- Holds when no match of a line that a match fills in has any effect. -/
def Settles (x : Dispatch) : Prop := x.fillsLine = true → x.inner.depth = 0 ∧ x.inner.matching = []

theorem Settles.run {x : Dispatch} (hs : x.Settles) (h : x.keymap.Reachable) (limit : Nat) :
    (limit ≠ 0 → ∃ s, x.run limit = some s) ∧
      ∀ s, x.run limit = some s → Session.Frame (· ∈ Session.displayNames) x.turn s := by
  cases hf : x.fillsLine with
  | false =>
    rw [run_of_not_fillsLine h.sound hf]
    refine ⟨fun _ => ⟨_, rfl⟩, ?_⟩
    rintro _ ⟨⟩
    exact Session.Frame.refl _
  | true =>
    cases limit with
    | zero =>
      rw [run_zero h.sound hf]
      exact ⟨fun hne => absurd rfl hne, fun _ hn => nomatch hn⟩
    | succ limit =>
      obtain ⟨hdepth, hm⟩ := hs hf
      have hidle := Keymap.step_of_unmatched (reachable_inner h).sound hdepth hm
      rw [run_succ h.sound, if_pos hf, run_of_idle hidle, Option.map_some, inner,
        Session.session_onChange]
      refine ⟨fun _ => ⟨_, rfl⟩, ?_⟩
      rintro _ ⟨⟩
      exact Session.frame_refresh x.turn ∅ x.turn.input

/-- What is left to do after the last of the matches that are nested in one another only
displays. -/
theorem run_of_chain (h : d.keymap.Reachable) (hn : (d :: ds).IsChain Nests) {x : Dispatch}
    (hx : (d :: ds).getLast? = some x) (hs : x.Settles) (limit : Nat) :
    (ds.length < limit → ∃ s, d.run limit = some s) ∧
      ∀ s, d.run limit = some s → Session.Frame (· ∈ Session.displayNames) x.turn s := by
  induction ds generalizing d limit with
  | nil =>
    obtain rfl : d = x := Option.some.inj hx
    obtain ⟨hsome, hframe⟩ := hs.run h limit
    exact ⟨fun hl => hsome (Nat.ne_of_gt hl), hframe⟩
  | cons d' ds ih =>
    obtain ⟨hnest, htail⟩ := List.isChain_cons_cons.1 hn
    obtain ⟨hf, rfl⟩ := (nests_iff h.sound).1 hnest
    cases limit with
    | zero =>
      rw [run_zero h.sound hf]
      exact ⟨fun hl => absurd hl (Nat.not_lt_zero _), fun _ hn => nomatch hn⟩
    | succ limit =>
      have hlast : (d.inner :: ds).getLast? = some x := by simpa using hx
      obtain ⟨hsome, hframe⟩ := ih (reachable_inner h) htail hlast limit
      rw [run_succ h.sound, if_pos hf]
      constructor
      · intro hl
        obtain ⟨s, hs⟩ := hsome (Nat.lt_of_succ_lt_succ hl)
        exact ⟨_, by rw [hs, Option.map_some]⟩
      · intro s hr
        obtain ⟨s, hs, rfl⟩ := Option.map_eq_some_iff.1 hr
        exact (hframe s hs).trans (Session.frame_refresh s ∅ d.turn.input)

/-- Holds when a match is on a sound stack and can come to these binds only. -/
structure Confined (binds : List Bind) (d : Dispatch) : Prop where
  sound : d.keymap.Sound
  subset : d.session.allBinds ⊆ binds

theorem Confined.candidates (h : d.Confined binds) : d.keymap.candidates d.mode ⊆ binds :=
  fun _ hb => h.subset (Session.mem_allBinds.2 (Keymap.holds_of_mem_candidates h.sound hb))

/-- Nothing comes of a match where there are no binds. -/
theorem Confined.idle (h : d.Confined []) :
    d.keymap.step d.mode d.note d.text = ([], d.keymap.stack) := by
  have hnone : d.keymap.candidates d.mode = [] := List.subset_nil.1 h.candidates
  have hdepth : d.keymap.stack.depth = 0 := by
    by_contra hd
    obtain ⟨b, hb⟩ := List.exists_mem_of_ne_nil _ (h.sound.binds_ne_nil hd)
    cases h.subset (Session.mem_allBinds.2 (.inl hb))
  refine Keymap.step_of_unmatched h.sound hdepth ?_
  rw [Keymap.matching, hnone, List.filter_nil]

theorem Confined.exists_longer (h : d.Confined binds) (hd : d.depth ≠ 0) :
    ∃ b ∈ binds, d.depth < b.pattern.segments.length := by
  obtain ⟨b, hb⟩ := List.exists_mem_of_ne_nil _ (h.sound.binds_ne_nil hd)
  exact ⟨b, h.subset (Session.mem_allBinds.2 (.inl hb)), h.sound.stack.longer b hb⟩

section Nests

variable (hc : ∀ b ∈ binds, b.isCommands = true)

include hc

/-- A nested match is one segment deeper, and can come to no further binds. -/
theorem Confined.nests (h : d.Confined binds) (hn : d.Nests d') :
    d'.Confined binds ∧ d'.depth = d.depth + 1 := by
  obtain ⟨hf, rfl⟩ := (nests_iff h.sound).1 hn
  have ho := Keymap.step_outcome h.sound d.mode d.note d.text
  obtain ⟨hdepth, hbinds, hkeeps⟩ := ho.of_fillsLine (fun b hb => hc b (h.candidates hb)) hf
  have hk : d.inner.keymap = (d.keymap.respond d.mode d.note d.text).2 := by
    rw [keymap, inner, Session.session_onChange]
    exact Session.keymap_foldl_follow hkeeps
  refine ⟨⟨?_, ?_⟩, ?_⟩
  · rw [hk]
    exact Keymap.sound_respond h.sound d.mode d.note d.text
  · intro b hb
    have hb := Session.mem_allBinds.1 hb
    change b ∈ d.inner.keymap.stack.binds ∨ d.inner.keymap.registry.Holds b at hb
    rw [hk] at hb
    rcases hb with hb | hb
    · exact h.candidates (hbinds hb)
    · exact h.subset (Session.mem_allBinds.2 (.inr hb))
  · rw [depth, hk]
    exact hdepth

/-- The stacks of matches that are nested in one another grow by one segment each. -/
theorem Confined.chain (h : d.Confined binds) (hn : (d :: ds).IsChain Nests) :
    (∀ inner ∈ d :: ds, inner.Confined binds) ∧
      (d :: ds).IsChain (fun outer inner => inner.depth = outer.depth + 1) := by
  have hall : ∀ inner ∈ d :: ds, inner.Confined binds :=
    hn.induction (Confined binds) _ (fun _ _ hxy hx => (hx.nests hc hxy).1) fun _ => h
  refine ⟨hall, hn.imp_of_mem_imp fun outer inner houter _ hnest => ?_⟩
  exact ((hall outer houter).nests hc hnest).2

/-- If no bind has more segments than there are steps left to the limit, the limit is not
reached. -/
theorem Confined.run_isSome {n limit : Nat} (hl : ∀ b ∈ binds, b.pattern.segments.length ≤ n)
    (h : d.Confined binds) (hn : n ≤ limit + d.depth + 1) : (d.run limit).isSome = true := by
  -- On the limit: each nested match has one less, and is one segment deeper.
  induction limit generalizing d with
  | zero =>
    cases hf : d.fillsLine with
    | false => rw [run_of_not_fillsLine h.sound hf, Option.isSome_some]
    | true =>
      obtain ⟨h', hdepth⟩ := h.nests hc ((nests_iff h.sound).2 ⟨hf, rfl⟩)
      obtain ⟨b, hb, hlong⟩ := h'.exists_longer (by omega)
      have hle := hl b hb
      omega
  | succ limit ih =>
    rw [run_succ h.sound]
    split
    · next hf =>
      obtain ⟨h', hdepth⟩ := h.nests hc ((nests_iff h.sound).2 ⟨hf, rfl⟩)
      rw [Option.isSome_map]
      exact ih h' (by omega)
    · rfl

end Nests

/-- The last of the matches that are nested in one another is deeper by as many segments as there
are of them. -/
theorem exists_depth_eq
    (hn : (d :: ds).IsChain fun outer inner => inner.depth = outer.depth + 1) :
    ∃ inner ∈ d :: ds, inner.depth = d.depth + ds.length := by
  induction ds generalizing d with
  | nil => exact ⟨d, List.mem_singleton_self d, rfl⟩
  | cons d' ds ih =>
    obtain ⟨hstep, htail⟩ := List.isChain_cons_cons.1 hn
    obtain ⟨inner, hi, hdepth⟩ := ih htail
    refine ⟨inner, List.mem_cons_of_mem d hi, ?_⟩
    rw [hdepth, hstep, List.length_cons]
    omega

end Dispatch

namespace Session

theorem length_segments_le {s : Session} {b : Bind} (hb : b ∈ s.allBinds) :
    b.pattern.segments.length ≤ s.limit := by
  have hle : b.pattern.segments.length ≤ (s.allBinds.flatMap (·.pattern.segments)).length := by
    have hs := (List.singleton_sublist.2 hb).flatMap (·.pattern.segments)
    rw [List.flatMap_singleton] at hs
    exact hs.length_le
  have hsq := Nat.le_mul_self ((s.allBinds.flatMap (·.pattern.segments)).length + 2)
  rw [limit]
  omega

/-- Where there are no binds, a change of the input is displayed and that is all. -/
theorem update_of_bindless {s : Session} (hk : s.keymap.Reachable) (hb : s.allBinds = [])
    (m : Modifiers) : s.update m = some (s.refresh m s.input) := by
  have hconf : (s.onChange m).Confined [] := by
    constructor
    · rw [Dispatch.keymap, session_onChange]
      exact hk.sound
    · rw [session_onChange]
      exact List.subset_nil.2 hb
  exact update_of_idle hconf.idle

theorem notify_of_bindless {s : Session} (hk : s.keymap.Reachable) (hb : s.allBinds = [])
    (note : Notification) (text : Text) : s.notify note text = some s := by
  have hconf : Dispatch.Confined [] ⟨s, note, text⟩ := ⟨hk.sound, List.subset_nil.2 hb⟩
  exact Dispatch.run_of_idle hconf.idle s.limit

theorem confined_of_raised? {s : Session} (hk : s.keymap.Reachable) {e : Event} {d : Dispatch}
    (hd : s.raised? e = some d) : d.Confined s.allBinds := by
  have hkeymap := (raises_of_raised? hd).1.keymap
  refine ⟨?_, fun b hb => ?_⟩
  · rw [Dispatch.keymap, hkeymap]
    exact hk.sound
  · rw [mem_allBinds, hkeymap] at hb
    exact mem_allBinds.2 hb

/-- With commands for all binds every event has a result. The matches that it nests in one another
go deeper and deeper on a stack that stays shorter than the binds on it, so there are fewer of them
than some bind has segments. -/
theorem nested_deeper {s : Session} (hk : s.keymap.Reachable)
    (hc : ∀ b ∈ s.allBinds, b.isCommands = true) (e : Event) :
    (∃ reply, s.handle e = some reply) ∧
    ∀ d ds, s.raised? e = some d → (d :: ds).IsChain Dispatch.Nests →
      (d :: ds).IsChain (fun outer inner => outer.depth < inner.depth) ∧
      (∀ inner ∈ ds, ∀ b ∈ inner.keymap.stack.binds, inner.depth < b.pattern.segments.length) ∧
      (ds ≠ [] → ∃ b ∈ s.allBinds, ds.length < b.pattern.segments.length) := by
  constructor
  · cases hd : s.raised? e with
    | none => exact handle_of_not_raised hd
    | some d =>
      obtain ⟨-, limit, rest, hlimit, -, hh⟩ := raises_of_raised? hd
      have hsome : (d.run limit).isSome = true :=
        (confined_of_raised? hk hd).run_isSome hc (fun b hb => length_segments_le hb) (by omega)
      obtain ⟨t, ht⟩ := Option.isSome_iff_exists.1 hsome
      refine ⟨.accepted (rest t), ?_⟩
      rw [hh, ht]
      rfl
  · intro d ds hd hn
    obtain ⟨hall, hgrow⟩ := (confined_of_raised? hk hd).chain hc hn
    refine ⟨hgrow.imp fun _ _ h => by omega, fun inner hi b hb => ?_, fun hne => ?_⟩
    · exact (hall inner (List.mem_cons_of_mem d hi)).sound.stack.longer b hb
    · obtain ⟨inner, hi, hdepth⟩ := Dispatch.exists_depth_eq hgrow
      have hpos := List.length_pos_iff.2 hne
      obtain ⟨b, hb, hlong⟩ := (hall inner hi).exists_longer (by omega)
      exact ⟨b, hb, by omega⟩

/-- A bind of four segments whose first key has three lines filled in, one within the other. -/
theorem nested_deeper_thrice :
    ∃ s d ds, (start .initial (Registry.empty.editAll [])).serveAll
        [.event (.modeBind "command a<p:b>b<q:c>c<r:d>_ = go %1".toList)] = some s ∧
      (∀ b ∈ s.allBinds, b.isCommands = true) ∧
      s.raised? (.keyPress [] ['a']) = some d ∧ (d :: ds).IsChain Dispatch.Nests ∧ ds.length = 3 ∧
      (∃ reply, s.handle (.keyPress [] ['a']) = some reply) ∧
      (d :: ds).IsChain (fun outer inner => outer.depth < inner.depth) ∧
      (∀ inner ∈ ds, ∀ b ∈ inner.keymap.stack.binds, inner.depth < b.pattern.segments.length) ∧
      ∃ b ∈ s.allBinds, 3 < b.pattern.segments.length := by
  have hb : ((start .initial (Registry.empty.editAll [])).serveAll
      [.event (.modeBind "command a<p:b>b<q:c>c<r:d>_ = go %1".toList)]).map (fun s =>
        (s.allBinds.all (·.isCommands), (s.raised? (.keyPress [] ['a'])).map fun d =>
          [d.fillsLine, d.inner.fillsLine, d.inner.inner.fillsLine])) =
      some (true, some [true, true, true]) := by decide +kernel
  obtain ⟨s, hs, hb⟩ := Option.map_eq_some_iff.1 hb
  obtain ⟨hc, hr⟩ := Prod.mk.inj hb
  obtain ⟨d, hd, hf⟩ := Option.map_eq_some_iff.1 hr
  simp only [List.cons.injEq, and_true] at hf
  obtain ⟨hf₁, hf₂, hf₃⟩ := hf
  have hk := reachable_serveAll _ [] _ hs
  have hc : ∀ b ∈ s.allBinds, b.isCommands = true := List.all_eq_true.1 hc
  have h₀ := confined_of_raised? hk hd
  have hn₁ := (Dispatch.nests_iff h₀.sound).2 ⟨hf₁, rfl⟩
  have h₁ := (h₀.nests hc hn₁).1
  have hn₂ := (Dispatch.nests_iff h₁.sound).2 ⟨hf₂, rfl⟩
  have h₂ := (h₁.nests hc hn₂).1
  have hn₃ := (Dispatch.nests_iff h₂.sound).2 ⟨hf₃, rfl⟩
  have hn : [d, d.inner, d.inner.inner, d.inner.inner.inner].IsChain Dispatch.Nests := by
    simp [hn₁, hn₂, hn₃]
  obtain ⟨hreply, hnested⟩ := nested_deeper hk hc (.keyPress [] ['a'])
  obtain ⟨hgrow, hlonger, hbound⟩ := hnested d _ hd hn
  exact ⟨s, d, _, hs, hc, hd, hn, rfl, hreply, hgrow, hlonger, hbound (by simp)⟩

end Session

end ModalKeys
