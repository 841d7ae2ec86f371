import Mathlib.Logic.Hydra
import ModalKeys.Proofs.Host.Agreement
import ModalKeys.Proofs.Session.Sends

namespace ModalKeys

open Text

/-- Holds when a line adds a bind to a registry. -/
def Event.lineRegisters (line : Text) : Bool := (ofLine? line).any registers

theorem Event.ofLine?_trim (line : Text) : ofLine? (trim line) = ofLine? line := by
  have hc : cutName (trim line) = cutName line := by
    unfold cutName
    rw [(trimmed_trim line).trim_eq]
  unfold ofLine? parse
  rw [hc]

/-- An event within the reach of what is echoed is no definition. -/
theorem Event.registers_of_reach {e : Event} (h : e.reach ≤ 1) : e.registers = false := by
  cases e with
  | bind | modeBind => exact absurd h (by simp [reach])
  | _ => rfl

namespace Session

/-- Holds of what input comes to: lines and events that add no bind, and the removal of the
effects. -/
def Call.isInput : Call → Bool
  | .line t => !Event.lineRegisters t
  | .request (.event e) => !e.registers
  | .request .drain => true
  | _ => false

/-- Holds when input that adds no bind leads from one session to another. -/
def Reaches (s t : Session) : Prop :=
  ∃ calls : List Call, (∀ c ∈ calls, c.isInput = true) ∧ s.callAll calls = some t

namespace Reaches

variable {s t u : Session}

theorem refl (s : Session) : Reaches s s := ⟨[], by simp, rfl⟩

theorem trans (h : Reaches s t) (h' : Reaches t u) : Reaches s u := by
  obtain ⟨calls, hc, hs⟩ := h
  obtain ⟨calls', hc', ht⟩ := h'
  refine ⟨calls ++ calls', fun c hm => (List.mem_append.1 hm).elim (hc c) (hc' c), ?_⟩
  rw [callAll, List.foldlM_append]
  exact Option.bind_eq_some_iff.2 ⟨t, hs, ht⟩

theorem call {c : Call} (hc : c.isInput = true) (h : s.call c = some t) : Reaches s t := by
  refine ⟨[c], by simpa using hc, ?_⟩
  rw [callAll, List.foldlM_cons, h]
  rfl

theorem line {line : Text} {reply : Reply} (hl : Event.lineRegisters line = false)
    (h : s.handleLine line = some reply) : Reaches s reply.session := by
  refine call (c := .line line) ?_ ?_
  · rw [Call.isInput, hl]
    rfl
  · rw [Session.call, h]
    rfl

theorem drain (s : Session) : Reaches s s.drain.2 := call (c := .request .drain) rfl rfl

end Reaches

/-- A tame session with no effect queued whose echo could stand for a key or for a definition. -/
structure Ranked (s : Session) : Prop extends Tame s where
  queued : ∀ e ∈ s.outbox, e.rank ≤ 2

section Ranked

variable {s t : Session}

theorem rank_le_of_sent {n : Nat} (h : ∀ c ∈ s.sent, (Effect.send c).rank ≤ n) :
    ∀ e ∈ s.outbox, e.rank ≤ n := by
  intro e he
  cases e with
  | set name value => exact Nat.zero_le n
  | send command => exact h command (List.mem_filterMap.2 ⟨_, he, rfl⟩)

/-- The effects that are queued on the way have the ranks of the commands among them. -/
theorem Sends.queued {n : Nat} {es : List Effect} (h : Sends n s t) (ho : t.outbox = s.outbox ++ es) :
    ∀ e ∈ es, e.rank ≤ n := by
  obtain ⟨commands, hs, hc⟩ := h.sent
  have he : es.filterMap Effect.command? = commands := by
    rw [Session.sent, Session.sent, ho, List.filterMap_append] at hs
    exact List.append_cancel_left hs
  exact rank_le_of_sent (s := { t with outbox := es }) fun c hm => hc c (he ▸ hm)

theorem Ranked.sends (hs : s.Ranked) (h : Sends 2 s t) : t.Ranked := by
  refine ⟨h.tame hs.toTame, rank_le_of_sent fun c hm => ?_⟩
  obtain ⟨commands, hsent, hc⟩ := h.sent
  rw [hsent] at hm
  rcases List.mem_append.1 hm with hm | hm
  · obtain ⟨e, he, hcommand⟩ := List.mem_filterMap.1 hm
    cases e with
    | set name value => cases hcommand
    | send command =>
      cases hcommand
      exact hs.queued _ he
  · exact hc c hm

/-- A line that says no event is refused. -/
theorem handleLine_of_no_event (s : Session) {line : Text} (h : Event.ofLine? line = none) :
    ∃ refusal, s.handleLine line = some (.refused s refusal) := by
  unfold Event.ofLine? at h
  unfold handleLine
  cases hp : Event.parse line with
  | error cause => exact ⟨_, rfl⟩
  | ok event => rw [hp] at h; cases h

/-- A line that adds no bind has a result, and sends no more than is within the reach of its
event. -/
theorem Tame.exists_reply_line (hs : s.Tame) {line : Text} (hl : Event.lineRegisters line = false) :
    ∃ reply, s.handleLine line = some reply ∧
      Sends (((Event.ofLine? line).map Event.reach).getD 0) s reply.session := by
  unfold Event.lineRegisters Event.ofLine? at hl
  unfold handleLine Event.ofLine?
  cases hp : Event.parse line with
  | error cause => exact ⟨_, rfl, .refl s⟩
  | ok event =>
    rw [hp] at hl
    exact hs.exists_reply hl

theorem Ranked.exists_call (hs : s.Ranked) {c : Call} (hc : c.isInput = true) :
    ∃ t, s.call c = some t ∧ t.Ranked := by
  have line {t : Text} (hl : Event.lineRegisters t = false) :
      ∃ u, (s.handleLine t).map (·.session) = some u ∧ u.Ranked := by
    obtain ⟨reply, hr, hsends⟩ := hs.exists_reply_line hl
    refine ⟨reply.session, by rw [hr]; rfl, hs.sends (hsends.mono ?_)⟩
    cases Event.ofLine? t with
    | none => exact Nat.zero_le 2
    | some event => exact event.reach_le
  cases c with
  | line t => exact line (by simpa [Call.isInput] using hc)
  | request r =>
    cases r with
    | bind => cases hc
    | drain => exact ⟨_, rfl, ⟨hs.reachable, hs.binds⟩, fun _ he => nomatch he⟩
    | event e =>
      obtain ⟨reply, hr, hsends⟩ := hs.exists_reply (e := e) (by simpa [Call.isInput] using hc)
      exact ⟨reply.session, by rw [call, serve, hr]; rfl, hs.sends (hsends.mono e.reach_le)⟩
  | _ => cases hc

theorem Ranked.reaches (hs : s.Ranked) (h : Reaches s t) : t.Ranked := by
  obtain ⟨calls, hc, ht⟩ := h
  induction calls generalizing s with
  | nil => cases ht; exact hs
  | cons c calls ih =>
    obtain ⟨u, hu, hr⟩ := hs.exists_call (hc c List.mem_cons_self)
    rw [callAll, List.foldlM_cons, hu] at ht
    exact ih hr (fun c hm => hc c (List.mem_cons_of_mem _ hm)) ht

end Ranked

end Session

namespace Host

open Session

variable {s t : Session}

/-- The echo of an effect brings about effects of lower ranks only. -/
theorem exists_reflect (hs : s.Tame) {e : Effect} (he : e.rank ≤ 2) :
    ∃ t es, reflect true s e = some t ∧ t.outbox = s.outbox ++ es ∧ (∀ d ∈ es, d.rank < e.rank) ∧
      s.Reaches t := by
  unfold reflect
  rw [if_pos rfl]
  cases hecho : e.echo? with
  | none => exact ⟨s, [], rfl, (List.append_nil _).symm, by simp, .refl s⟩
  | some line =>
    cases hp : Event.ofLine? line with
    | none =>
      obtain ⟨refusal, hr⟩ := s.handleLine_of_no_event hp
      exact ⟨s, [], by simp [hr, Reply.refused], (List.append_nil _).symm, by simp, .refl s⟩
    | some event =>
      have hrank := Effect.rank_of_echoed? (Option.bind_eq_some_iff.2 ⟨line, hecho, hp⟩)
      have hl : Event.lineRegisters line = false := by
        rw [Event.lineRegisters, hp]
        exact Event.registers_of_reach (by omega)
      obtain ⟨reply, hr, hsends⟩ := hs.exists_reply_line hl
      obtain ⟨es, hq⟩ := (moves_handleLine hr).queues
      have ho := hq.outbox
      rw [outbox_told] at ho
      rw [hp] at hsends
      refine ⟨reply.session, es, by simp [hr], ho, fun d hd => ?_, .line hl hr⟩
      have hle : d.rank ≤ event.reach := hsends.queued ho d hd
      omega

/-- What is put behind a queue for its first effect is lower than that effect, as in a hydra
game. -/
theorem cutExpand_ranks {e : Effect} {es more : List Effect} (h : ∀ d ∈ more, d.rank < e.rank) :
    Relation.CutExpand (· < ·) (((es ++ more).map Effect.rank : List Nat) : Multiset Nat)
      (((e :: es).map Effect.rank : List Nat) : Multiset Nat) := by
  refine ⟨((more.map Effect.rank : List Nat) : Multiset Nat), e.rank, ?_, ?_⟩
  · intro n hn
    obtain ⟨d, hd, rfl⟩ := List.mem_map.1 (Multiset.mem_coe.1 hn)
    exact h d hd
  · rw [List.map_append, List.map_cons, ← Multiset.coe_add, ← Multiset.cons_coe, add_comm,
      Multiset.singleton_add, Multiset.cons_add]

/-- A queue of ranked effects is printed to its end, and what it brings about with it. -/
theorem exists_print (hs : s.Ranked) (ho : s.outbox = []) {es : List Effect}
    (hes : ∀ e ∈ es, e.rank ≤ 2) :
    ∃ n lines t, (∀ fuel, n ≤ fuel → print true fuel es s = some (lines, t)) ∧ t.outbox = [] ∧
      s.Reaches t := by
  have hwf : WellFounded (Relation.CutExpand ((· < ·) : Nat → Nat → Prop)) :=
    WellFounded.cutExpand wellFounded_lt
  -- On the ranks in the queue, as the heads of a hydra.
  induction hm : ((es.map Effect.rank : List Nat) : Multiset Nat) using hwf.induction
    generalizing es s with
  | _ ranks ih =>
    subst hm
    cases es with
    | nil => exact ⟨0, [], s, fun fuel _ => by cases fuel <;> rfl, ho, .refl s⟩
    | cons e es =>
      have he := hes e List.mem_cons_self
      obtain ⟨u, more, hu, hmore, hlower, hreach⟩ := exists_reflect hs.toTame he
      rw [ho, List.nil_append] at hmore
      have hdrained : s.Reaches u.drain.2 := hreach.trans (.drain u)
      have hrest : ∀ d ∈ es ++ more, d.rank ≤ 2 := fun d hd =>
        (List.mem_append.1 hd).elim (fun hd => hes d (List.mem_cons_of_mem e hd)) fun hd => by
          have := hlower d hd
          omega
      obtain ⟨n, lines, t, hprint, hempty, hr⟩ :=
        ih _ (cutExpand_ranks hlower) (hs.reaches hdrained) rfl hrest rfl
      refine ⟨n + 1, e.line :: lines, t, fun fuel hfuel => ?_, hempty, hdrained.trans hr⟩
      obtain ⟨fuel, rfl⟩ : ∃ k, fuel = k + 1 := ⟨fuel - 1, by omega⟩
      rw [print, hu]
      change (print true fuel (es ++ u.outbox) u.drain.2).bind (fun r => some (e.line :: r.1, r.2)) = _
      rw [hmore, hprint fuel (by omega)]
      rfl

theorem exists_flush (hs : s.Ranked) :
    ∃ n lines t, (∀ fuel, n ≤ fuel → flush true fuel s = some (lines, t)) ∧ t.outbox = [] ∧
      s.Reaches t := by
  have hd : s.Reaches s.drain.2 := .drain s
  obtain ⟨n, lines, t, hp, ho, hr⟩ := exists_print (hs.reaches hd) rfl hs.queued
  exact ⟨n, lines, t, hp, ho, hd.trans hr⟩

theorem exists_feed (hs : s.Ranked) {line : Text} (hl : Event.lineRegisters line = false) :
    ∃ n out, (∀ fuel, n ≤ fuel → feed true fuel s line = some out) ∧ s.Reaches out.session := by
  by_cases hremark : (trim line).isEmpty || (trim line).head? = some '#'
  · refine ⟨0, ⟨[], none, s⟩, fun fuel _ => ?_, .refl s⟩
    unfold feed
    exact if_pos hremark
  · have ht : Event.lineRegisters (trim line) = false := by
      rwa [Event.lineRegisters, Event.ofLine?_trim]
    obtain ⟨reply, hr, -⟩ := hs.exists_reply_line ht
    have hcall : s.Reaches reply.session := .line ht hr
    obtain ⟨n, lines, t, hf, -, hreach⟩ := exists_flush (hs.reaches hcall)
    refine ⟨n, ⟨lines, reply.refusal, t⟩, fun fuel hfuel => ?_, hcall.trans hreach⟩
    unfold feed
    dsimp only
    rw [if_neg hremark, hr]
    change (flush true fuel reply.session).bind (fun r => some (Output.mk r.1 reply.refusal r.2)) = _
    rw [hf fuel hfuel]
    rfl

end Host

namespace Definition

def shippedRegistry : Registry := (install .empty shipped).1

theorem isTame_shipped : ∀ b, shippedRegistry.Holds b → b.isTame = true := by
  have hall : (shippedRegistry.global.binds ++ shippedRegistry.named.flatMap (·.2.binds)).all
      Bind.isTame = true := by decide +kernel
  intro b hb
  refine List.all_eq_true.1 hall b (List.mem_append.2 (hb.imp_right fun ⟨entry, he, hb⟩ => ?_))
  exact List.mem_flatMap.2 ⟨entry, he, hb⟩

end Definition

/-- Whatever the settings are, a session with the shipped keymap has only writes to hand out
first. -/
theorem Session.ranked_start (settings : Settings) : (start settings Definition.shippedRegistry).Ranked := by
  have hstart : (start settings Definition.shippedRegistry).Tame ∧
      (start settings Definition.shippedRegistry).sent = [] := by
    refine start_induction (P := fun s => s.Tame ∧ s.sent = []) settings _ (fun k => ?_) ?_ ?_ ?_
    · refine ⟨⟨?_, fun b hb => ?_⟩, rfl⟩
      · change (Keymap.ofRegistry (Definition.install .empty Definition.shipped).1).Reachable
        rw [Definition.install_eq]
        exact Keymap.Reachable.empty.editAll _
      · exact Definition.isTame_shipped b ((mem_allBinds.1 hb).resolve_left fun hb => nomatch hb)
    · intro s mode name value ⟨ht, hs⟩
      have hsent := sent_configureMode s mode name value
      exact ⟨(Sends.of_writes (n := 0) (.configureMode s mode name value) hsent).tame ht, hsent.trans hs⟩
    · intro s name value _ ⟨ht, hs⟩
      exact ⟨(Sends.assign (n := 0) s name value).tame ht, (sent_assign s name value).trans hs⟩
    · intro s mode ⟨ht, hs⟩
      exact ⟨(Sends.setMode (n := 0) s mode).tame ht, (sent_setMode s mode).trans hs⟩
  refine ⟨hstart.1, rank_le_of_sent fun c hc => ?_⟩
  rw [hstart.2] at hc
  cases hc

namespace Host

/-- With the shipped keymap, whatever the settings are and wherever lines that add no bind have led:
with the echo on, what is queued is printed to its end, and so is all that comes of a further such
line. Either leaves a session of which the same can be said. -/
theorem echo_ends {settings : Settings} {s : Session}
    (hs : (Session.start settings Definition.shippedRegistry).Reaches s) :
    (∃ n lines t, (∀ fuel, n ≤ fuel → flush true fuel s = some (lines, t)) ∧ t.outbox = [] ∧
      s.Reaches t) ∧
    ∀ line, Event.lineRegisters line = false →
      ∃ n out, (∀ fuel, n ≤ fuel → feed true fuel s line = some out) ∧ s.Reaches out.session :=
  have hr := (Session.ranked_start settings).reaches hs
  ⟨exists_flush hr, fun _ => exists_feed hr⟩

/-- The key that submits a value has the prompt ended and a variable assigned, one echo after the
other. -/
theorem echo_ends_assignment :
    ∃ s, (Session.start .initial Definition.shippedRegistry).Reaches s ∧
      (feed true 5 s "KEY_PRESS Return".toList).map (·.lines) = some ["event KEYCMD_EXEC_CURRENT".toList,
        "set volume = 5".toList, "set keycmd_prompt =".toList, "set mode = command".toList,
        "set keycmd =".toList] ∧
      (∃ n lines t, (∀ fuel, n ≤ fuel → flush true fuel s = some (lines, t)) ∧ t.outbox = [] ∧
        s.Reaches t) ∧
      ∃ n out, (∀ fuel, n ≤ fuel → feed true fuel s "KEY_PRESS Return".toList = some out) ∧
        s.Reaches out.session := by
  let calls : List Session.Call := [.line "MODE_BIND -insert ZZ = quit".toList,
    .line "KEY_PRESS s".toList, .line "SET_KEYCMD volume".toList,
    .line "KEYCMD_EXEC_CURRENT".toList, .line "SET_KEYCMD 5".toList, .request .drain]
  have hrun : ((Session.start .initial Definition.shippedRegistry).callAll calls).bind (fun s =>
      (feed true 5 s "KEY_PRESS Return".toList).map (·.lines)) =
        some ["event KEYCMD_EXEC_CURRENT".toList, "set volume = 5".toList, "set keycmd_prompt =".toList,
          "set mode = command".toList, "set keycmd =".toList] := by decide +kernel
  obtain ⟨s, hs, hlines⟩ := Option.bind_eq_some_iff.1 hrun
  have hall : calls.all (·.isInput) = true := by decide +kernel
  have hinput : ∀ c ∈ calls, c.isInput = true := List.all_eq_true.1 hall
  have hr : (Session.start .initial Definition.shippedRegistry).Reaches s := ⟨calls, hinput, hs⟩
  obtain ⟨hflush, hfeed⟩ := echo_ends hr
  exact ⟨s, hr, hlines, hflush, hfeed _ (by decide +kernel)⟩

end Host

end ModalKeys
