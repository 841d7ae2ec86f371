import ModalKeys.Definition.Basic
import ModalKeys.Proofs.Registry.Tables

namespace ModalKeys

theorem checkMode_of_isModeName {mode : Text} (h : isModeName mode = true) :
    checkMode mode = .ok () := if_pos h

namespace Registry

/-- The change that puts a row into the table of a mode. -/
def Edit.ofSlot (slot : Slot) (mode : Text) : Edit :=
  match slot with
  | .bound b => .add mode b
  | .removed source => .delete mode source

/-- A name that is a mode's is refused by no table. -/
theorem putChecked_of_isModeName {mode : Text} (h : isModeName mode = true) (r : Registry)
    (slot : Slot) : r.putChecked mode slot = .ok (r.edit (.ofSlot slot mode)) := by
  obtain ⟨r', hr⟩ : ∃ r', r.putChecked mode slot = .ok r' := by
    unfold putChecked
    rw [checkMode_of_isModeName h]
    dsimp only
    split
    · exact ⟨_, rfl⟩
    · exact ⟨_, rfl⟩
  cases slot with
  | bound b => simp [Edit.ofSlot, edit, add, hr]
  | removed source => simp [Edit.ofSlot, edit, delete, hr]

end Registry

theorem Bind.isOk_ofAction (source : Text) (action : Action) :
    (Bind.ofAction source action).isOk = (Pattern.compile source).isOk := by
  unfold Bind.ofAction
  split
  · next h => exact (congrArg Except.isOk h).symm
  · next h => exact (congrArg Except.isOk h).symm

namespace Definition

/-- Why a definition is refused, whatever the tables hold. -/
def refusal? (d : Definition) : Option Refusal :=
  match d.modes.find? (!isModeName ·) with
  | some mode => some (.modeName ⟨mode⟩)
  | none =>
    match d.slot with
    | .error e => some (.pattern e)
    | .ok _ => none

/-- All names are modes', and the pattern compiles if commands are bound to it. -/
def Valid (d : Definition) : Prop :=
  (∀ mode ∈ d.modes, isModeName mode = true) ∧
    (d.commands = [] ∨ (Pattern.compile d.source).isOk = true)

instance (d : Definition) : Decidable d.Valid := inferInstanceAs (Decidable (_ ∧ _))

/-- The changes that a definition stands for, one for each mode that it names. -/
def edits (d : Definition) : List Registry.Edit :=
  match d.slot with
  | .ok slot => d.modes.map (.ofSlot slot)
  | .error _ => []

theorem slot_isOk (d : Definition) :
    d.slot.isOk = true ↔ d.commands = [] ∨ (Pattern.compile d.source).isOk = true := by
  unfold slot
  by_cases hc : d.commands = []
  · rw [if_pos (List.isEmpty_iff.2 hc)]
    exact ⟨fun _ => .inl hc, fun _ => rfl⟩
  · have hbind := Bind.isOk_ofAction d.source (.commands d.commands)
    rw [if_neg (by simpa using hc), ← hbind, or_iff_right hc, Bind.ofCommands]
    cases Bind.ofAction d.source (.commands d.commands) <;> rfl

theorem refusal?_eq_none_iff (d : Definition) : d.refusal? = none ↔ d.Valid := by
  have hm : d.modes.find? (!isModeName ·) = none ↔ ∀ mode ∈ d.modes, isModeName mode = true := by
    simp
  unfold refusal? Valid
  rw [← slot_isOk, ← hm]
  cases d.modes.find? (!isModeName ·) with
  | some mode => simp
  | none => cases d.slot <;> simp [Except.isOk, Except.toBool]

/-- Once all names have been checked, every table takes the row. -/
theorem putAll_eq {modes : List Text} (h : ∀ mode ∈ modes, isModeName mode = true)
    (r : Registry) (slot : Slot) :
    putAll r slot modes = ⟨r.editAll (modes.map (.ofSlot slot)), none⟩ := by
  induction modes generalizing r with
  | nil => rfl
  | cons mode modes ih =>
    obtain ⟨hmode, hmodes⟩ := List.forall_mem_cons.1 h
    rw [putAll, Registry.putChecked_of_isModeName hmode]
    exact ih hmodes _

/-- A definition is refused before any table is changed, or by no table. -/
theorem apply_cases (d : Definition) (r : Registry) :
    (∃ e, d.refusal? = some e ∧ d.apply r = ⟨r, some e⟩) ∨
      (d.refusal? = none ∧ d.apply r = ⟨r.editAll d.edits, none⟩) := by
  unfold refusal? apply edits
  cases hm : d.modes.find? (!isModeName ·) with
  | some mode => exact .inl ⟨_, rfl, rfl⟩
  | none =>
    cases d.slot with
    | error cause => exact .inl ⟨_, rfl, rfl⟩
    | ok slot =>
      refine .inr ⟨rfl, putAll_eq (fun mode hmode => ?_) r slot⟩
      simpa using List.find?_eq_none.1 hm mode hmode

theorem Valid.apply_eq {d : Definition} (h : d.Valid) (r : Registry) :
    d.apply r = ⟨r.editAll d.edits, none⟩ := by
  rcases d.apply_cases r with ⟨e, he, -⟩ | ⟨-, ha⟩
  · rw [(refusal?_eq_none_iff d).2 h] at he
    cases he
  · exact ha

theorem apply_of_not_valid {d : Definition} (h : ¬ d.Valid) (r : Registry) :
    ∃ e, d.apply r = ⟨r, some e⟩ := by
  rcases d.apply_cases r with ⟨e, -, ha⟩ | ⟨he, -⟩
  · exact ⟨e, ha⟩
  · exact absurd ((refusal?_eq_none_iff d).1 he) h

/-- Holds when a definition adds a bind to a registry. One that is refused adds none, nor does one
without commands, and a dash in front of a mode asks for a removal. -/
def registers (d : Definition) : Bool :=
  decide d.Valid && !d.commands.isEmpty && d.modes.any (·.head? ≠ some '-')

theorem registers_of_mem_edits {d : Definition} (hv : d.Valid) {mode : Text} {b : Bind}
    (h : .add mode b ∈ d.edits) (hm : mode.head? ≠ some '-') : d.registers = true := by
  unfold edits at h
  split at h
  · next slot hs =>
    obtain ⟨mode', hmode, he⟩ := List.mem_map.1 h
    cases slot with
    | removed source => cases he
    | bound c =>
      cases he
      have hc : d.commands.isEmpty = false := by
        cases hc : d.commands.isEmpty with
        | false => rfl
        | true => rw [slot, if_pos hc] at hs; cases hs
      have hany : ∃ mode ∈ d.modes, mode.head? ≠ some '-' := ⟨mode, hmode, hm⟩
      simpa [registers, hv, hc] using hany
  · cases h

/-- Only a definition that registers brings a bind into the tables. -/
theorem holds_apply {d : Definition} {r : Registry} {b : Bind}
    (h : (d.apply r).registry.Holds b) : r.Holds b ∨ d.registers = true := by
  by_cases hv : d.Valid
  · rw [hv.apply_eq] at h
    exact (Registry.holds_editAll h).imp_right fun ⟨_, he, hm⟩ => registers_of_mem_edits hv he hm
  · obtain ⟨e, ha⟩ := apply_of_not_valid hv r
    rw [ha] at h
    exact .inl h

theorem install_cons (d : Definition) (r : Registry) (ds : List Definition) :
    install r (d :: ds) =
      if d.Valid then ((install (r.editAll d.edits) ds).1, (install (r.editAll d.edits) ds).2 + 1)
      else install r ds := by
  have hstep : install r (d :: ds) =
      ((install (d.apply r).registry ds).1,
        if (d.apply r).refusal.isNone then (install (d.apply r).registry ds).2 + 1
        else (install (d.apply r).registry ds).2) := rfl
  rw [hstep]
  by_cases h : d.Valid
  · rw [if_pos h, h.apply_eq]
    rfl
  · obtain ⟨e, he⟩ := apply_of_not_valid h r
    rw [if_neg h, he]
    rfl

/-- A list of definitions makes the changes of those that are accepted, in order. -/
theorem install_eq (r : Registry) (ds : List Definition) :
    install r ds =
      (r.editAll ((ds.filter (·.Valid)).flatMap edits), (ds.filter (·.Valid)).length) := by
  induction ds generalizing r with
  | nil => rfl
  | cons d ds ih =>
    rw [install_cons, ih, ih]
    by_cases h : d.Valid
    · rw [if_pos h, List.filter_cons_of_pos (by simpa using h), List.flatMap_cons,
        Registry.editAll, Registry.editAll, Registry.editAll, List.foldl_append]
      rfl
    · rw [if_neg h, List.filter_cons_of_neg (by simpa using h)]

/-- Definitions are installed as if those that are refused were not there, and the others are
counted. An accepted one makes its change in every mode that it names; a refused one leaves the
whole registry as it was. -/
theorem install_accepted (r : Registry) (ds : List Definition) :
    (install r ds).1 = (install r (ds.filter (·.Valid))).1 ∧
      (install r ds).1 = r.editAll ((ds.filter (·.Valid)).flatMap edits) ∧
      (install r ds).2 = (ds.filter (·.Valid)).length ∧
      ∀ (d : Definition) (s : Registry), (d.Valid ∧ d.apply s = ⟨s.editAll d.edits, none⟩) ∨
        (¬ d.Valid ∧ ∃ e, d.apply s = ⟨s, some e⟩) := by
  refine ⟨?_, ?_, ?_, fun d s => ?_⟩
  · rw [install_eq, install_eq r (ds.filter _), List.filter_filter]
    simp only [Bool.and_self]
  · rw [install_eq]
  · rw [install_eq]
  · by_cases h : d.Valid
    · exact .inl ⟨h, h.apply_eq s⟩
    · exact .inr ⟨h, apply_of_not_valid h s⟩

example :
    let ds := [make "global".toList "ZZ".toList ["exit".toList],
      make "global".toList "a<x:><y:>_".toList ["bad".toList],
      make "command,no good".toList "q".toList ["bad".toList],
      make "insert".toList "q".toList ["quit".toList]]
    (install .empty ds).2 = 2 ∧ (install .empty ds).1.modes = ["global".toList, "insert".toList] := by
  decide +kernel

end Definition

end ModalKeys
