import ModalKeys.Proofs.Event.Report
import ModalKeys.Proofs.Keymap.Candidates
import ModalKeys.Proofs.Template.Substitution

namespace ModalKeys

open Text

/-- What an event can bring about: `0` if it raises no match, and `1` if it raises matches under no
modifiers only. -/
def Event.reach : Event → Nat
  | keyPress _ _ | keyRelease _ _ | bind _ | modeBind _ => 2
  | setLine _ | inject _ | append _ | backspace | delete | stripWord _ | submit | moveCursor _
  | historyPrev | historyNext | historySearch _ | startCompletion => 1
  | clearLine | stopCompletion | builtins _ | modmap _ _ | ignoreKey _ | modeConfig _ _ _
  | modeChanged _ | variableSet _ _ => 0

theorem Event.reach_le (e : Event) : e.reach ≤ 2 := by
  cases e <;> simp [reach]

/-- What a match can come to: without modifiers no chord fits. -/
def Notification.reach (n : Notification) : Nat := if n.modifiers.isEmpty then 1 else 2

namespace Event

/-- The event that a line says, if it says one. -/
def ofLine? (line : Text) : Option Event := (parse line).toOption

/-- The line by which a host reports an assignment comes to a report, if to anything. -/
theorem reach_of_report {name value : Text} {e : Event}
    (h : ofLine? (trimEnd ("VARIABLE_SET ".toList ++ name ++ ' ' :: value)) = some e) :
    e.reach = 0 := by
  have hp : parse (trimEnd ("VARIABLE_SET ".toList ++ name ++ ' ' :: value)) =
      readVariableSet (trimStart (trimEnd (name ++ ' ' :: value))) := by
    unfold parse
    rw [cutName_report]
    rfl
  unfold ofLine? at h
  rw [hp] at h
  unfold readVariableSet at h
  split at h <;> cases h
  rfl

end Event

namespace Effect

/-- The event that the host raises for an effect. -/
def echoed? (e : Effect) : Option Event := e.echo?.bind Event.ofLine?

/-- How many echoes in a row an effect can bring about. -/
def rank (e : Effect) : Nat := (e.echoed?.map (·.reach + 1)).getD 0

theorem rank_of_echoed? {e : Effect} {event : Event} (h : e.echoed? = some event) :
    e.rank = event.reach + 1 := by
  rw [rank, h]
  rfl

theorem rank_le (e : Effect) : e.rank ≤ 3 := by
  unfold rank
  cases e.echoed? with
  | none => exact Nat.zero_le 3
  | some event => exact Nat.succ_le_succ event.reach_le

/-- An assignment is reported back, and that is all. -/
theorem rank_of_set {command : Text} (h : "set ".toList <+: command) : (send command).rank ≤ 1 := by
  cases he : (send command).echoed? with
  | none =>
    rw [rank, he]
    exact Nat.zero_le 1
  | some event =>
    obtain ⟨line, hline, hevent⟩ := Option.bind_eq_some_iff.1 he
    obtain ⟨name, value, ha⟩ : ∃ name value, assignment? command = some (name, value) := by
      obtain ⟨body, rfl⟩ := h
      cases ha : assignment? ("set ".toList ++ body) with
      | some a => exact ⟨a.1, a.2, rfl⟩
      | none =>
        have hnone : (send ("set ".toList ++ body)).echo? = none := by
          change (assignment? ("set ".toList ++ body)).map _ = none
          rw [ha]
          rfl
        exact nomatch hnone.symm.trans hline
    rw [echo?_of_assignment? ha] at hline
    cases hline
    rw [rank_of_echoed? he, Event.reach_of_report hevent]

theorem rank_of_other {command : Text} (he : ¬ "event ".toList <+: command)
    (hs : ¬ "set ".toList <+: command) : (send command).rank = 0 := by
  have hnone {key : Text} (h : ¬ key <+: command) : key.isPrefixOf? command = none :=
    Option.eq_none_iff_forall_ne_some.2 fun rest hr =>
      h ⟨rest, List.append_eq_of_isPrefixOf?_eq_some hr⟩
  have hecho : (send command).echo? = none := by
    unfold echo? assignment?
    dsimp only
    rw [hnone he, hnone hs]
    rfl
  rw [rank, echoed?, hecho]
  rfl

end Effect

namespace Template

/-- The text of a template ahead of its first token, with which all of its expansions begin. -/
def opening (t : Text) : Text := t.takeWhile (· ≠ '%')

theorem expand_begins (args : List Text) (t : Text) : opening t <+: expand args t := by
  have hplain : '%' ∉ opening t := fun h => by simpa using List.mem_takeWhile_imp h
  have ht : opening t ++ t.dropWhile (· ≠ '%') = t := List.takeWhile_append_dropWhile
  exact ⟨expand args (t.dropWhile (· ≠ '%')), by rw [← expand_text args hplain, ht]⟩

/-- Holds when no expansion of a template begins with a text. -/
def avoids (t key : Text) : Bool := !(opening t).isPrefixOf key && !key.isPrefixOf (opening t)

theorem not_prefix_of_avoids {t key : Text} (h : avoids t key = true) (args : List Text) :
    ¬ key <+: expand args t := by
  simp only [avoids, Bool.and_eq_true, Bool.not_eq_true', ← Bool.not_eq_true,
    List.isPrefixOf_iff_prefix] at h
  intro hk
  exact (List.prefix_or_prefix_of_prefix (expand_begins args t) hk).elim h.1 h.2

/-- A bound on the rank of what a template sends, whatever its arguments are. -/
def rank (t : Text) : Nat :=
  if '%' ∉ t then (Effect.send t).rank
  else if "set ".toList.isPrefixOf (opening t) then 1
  else if avoids t "event ".toList && avoids t "set ".toList then 0
  else 3

theorem rank_send_expand (args : List Text) (t : Text) :
    (Effect.send (expand args t)).rank ≤ rank t := by
  unfold rank
  split
  · next h =>
    have ht : expand args t = t := by
      have h' := expand_text args h []
      rwa [expand_nil, List.append_nil] at h'
    rw [ht]
  · split
    · next h => exact Effect.rank_of_set ((List.isPrefixOf_iff_prefix.1 h).trans (expand_begins args t))
    · split
      · next h =>
        obtain ⟨he, hs⟩ := Bool.and_eq_true_iff.1 h
        exact Nat.le_of_eq
          (Effect.rank_of_other (not_prefix_of_avoids he args) (not_prefix_of_avoids hs args))
      · exact Effect.rank_le _

end Template

namespace Bind

/-- Holds when no command that a bind sends has a rank above `n`. -/
def staysWithin (b : Bind) (n : Nat) : Bool :=
  (match b.action with
    | .commands templates => templates.all (Template.rank · ≤ n)
    | .callable .. => false) &&
  b.pattern.prompts.all fun p => !p.isCommand || (Effect.send p.preset).rank ≤ n

/-- Holds when what a bind sends has a lower rank than the commands whose echo can bring the bind
about. A chord takes a key. -/
def isTame (b : Bind) : Bool := b.staysWithin (if b.isGlobal then 2 else 1)

section StaysWithin

variable {b : Bind} {n : Nat} (h : b.staysWithin n = true)

include h

theorem exists_templates_of_staysWithin : ∃ templates, b.action = .commands templates ∧
    ∀ args, ∀ t ∈ templates, (Effect.send (Template.expand args t)).rank ≤ n := by
  have ha := (Bool.and_eq_true_iff.1 h).1
  cases hb : b.action with
  | callable => rw [hb] at ha; cases ha
  | commands templates =>
    rw [hb] at ha
    refine ⟨templates, rfl, fun args t ht => ?_⟩
    exact (Template.rank_send_expand args t).trans (of_decide_eq_true (List.all_eq_true.1 ha t ht))

theorem rank_preset_le {p : Prompt} (hp : p ∈ b.pattern.prompts) (hc : p.isCommand = true) :
    (Effect.send p.preset).rank ≤ n := by
  have ha := List.all_eq_true.1 (Bool.and_eq_true_iff.1 h).2 p hp
  rw [hc] at ha
  exact of_decide_eq_true ha

theorem staysWithin_mono {m : Nat} (hm : n ≤ m) : b.staysWithin m = true := by
  obtain ⟨ha, hp⟩ := Bool.and_eq_true_iff.1 h
  refine Bool.and_eq_true_iff.2 ⟨?_, ?_⟩
  · split at ha
    · exact List.all_eq_true.2 fun t ht =>
        decide_eq_true ((of_decide_eq_true (List.all_eq_true.1 ha t ht)).trans hm)
    · cases ha
  · refine List.all_eq_true.2 fun p hmem => ?_
    rcases Bool.or_eq_true_iff.1 (List.all_eq_true.1 hp p hmem) with hc | hr
    · exact Bool.or_eq_true_iff.2 (.inl hc)
    · exact Bool.or_eq_true_iff.2 (.inr (decide_eq_true ((of_decide_eq_true hr).trans hm)))

end StaysWithin

/-- A tame bind sends no more than a match that it fits can come to: without modifiers it is no
chord. -/
theorem staysWithin_of_fits {b : Bind} (h : b.isTame = true) {depth : Nat} {note : Notification} {text : Text}
    (hf : b.fits depth note text = true) : b.staysWithin note.reach = true := by
  unfold Notification.reach
  split
  · next hm =>
    have hg : b.isGlobal = false := by
      by_contra hg
      have hg : b.isGlobal = true := Bool.not_eq_false _ ▸ hg
      obtain ⟨s, hs, hfits, -, -⟩ := answer_of_fits hf
      have hc := isChord_of_isGlobal hg hs
      have he : s.modifiers = note.modifiers := (of_decide_eq_true hfits).2.2.1 hc
      rw [Segment.isChord, he, hm] at hc
      cases hc
    rwa [isTame, hg] at h
  · refine staysWithin_mono h ?_
    split <;> decide

end Bind

end ModalKeys
