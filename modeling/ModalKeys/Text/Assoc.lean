import ModalKeys.Text.Basic

namespace ModalKeys

/-- An association list. A key keeps the place of its first insertion. -/
abbrev Assoc (β : Type) := List (Text × β)

namespace Assoc

variable {β : Type}

def get? (m : Assoc β) (key : Text) : Option β :=
  match m with
  | [] => none
  | (k, v) :: m => if k = key then some v else get? m key

/-- Replaces the value of a key in its place, or adds the key at the end. -/
def put (m : Assoc β) (key : Text) (value : β) : Assoc β :=
  match m with
  | [] => [(key, value)]
  | (k, v) :: m => if k = key then (key, value) :: m else (k, v) :: put m key value

def erase (m : Assoc β) (key : Text) : Assoc β :=
  match m with
  | [] => []
  | (k, v) :: m => if k = key then erase m key else (k, v) :: erase m key

theorem get?_put (m : Assoc β) (key other : Text) (value : β) :
    (m.put key value).get? other = if key = other then some value else m.get? other := by
  induction m with
  | nil => simp [put, get?]
  | cons kv m ih =>
    obtain ⟨k, v⟩ := kv
    by_cases hk : k = key
    · subst hk; by_cases ho : k = other <;> simp [put, get?, ho]
    · by_cases ho : k = other
      · subst ho; simp [put, get?, hk, Ne.symm hk]
      · simp [put, get?, hk, ho, ih]

theorem get?_erase (m : Assoc β) (key other : Text) :
    (m.erase key).get? other = if key = other then none else m.get? other := by
  induction m with
  | nil => simp [erase, get?]
  | cons kv m ih =>
    obtain ⟨k, v⟩ := kv
    by_cases hk : k = key
    · subst hk; by_cases ho : k = other <;> simp_all [erase, get?]
    · by_cases ho : k = other
      · subst ho; simp [erase, get?, hk, Ne.symm hk]
      · simp [erase, get?, hk, ho, ih]

theorem put_of_get? {m : Assoc β} {key : Text} {value : β} (h : m.get? key = some value) :
    m.put key value = m := by
  induction m with
  | nil => cases h
  | cons kv m ih =>
    obtain ⟨k, v⟩ := kv
    by_cases hk : k = key
    · simp_all [put, get?]
    · simp_all [put, get?]

theorem mem_of_get? {m : Assoc β} {key : Text} {value : β} (h : m.get? key = some value) :
    (key, value) ∈ m := by
  induction m with
  | nil => cases h
  | cons kv m ih =>
    obtain ⟨k, v⟩ := kv
    rw [get?] at h
    split at h
    · next hk =>
      cases h
      exact hk ▸ List.mem_cons_self
    · exact List.mem_cons_of_mem _ (ih h)

theorem mem_put {m : Assoc β} {key : Text} {value : β} {entry : Text × β}
    (h : entry ∈ m.put key value) : entry = (key, value) ∨ entry ∈ m := by
  induction m with
  | nil => exact .inl (List.mem_singleton.1 h)
  | cons first m ih =>
    rw [put] at h
    split at h
    · exact (List.mem_cons.1 h).imp_right (List.mem_cons_of_mem first)
    · rcases List.mem_cons.1 h with h | h
      · exact .inr (h ▸ List.mem_cons_self)
      · exact (ih h).imp_right (List.mem_cons_of_mem first)

theorem erase_of_get? {m : Assoc β} {key : Text} (h : m.get? key = none) : m.erase key = m := by
  induction m with
  | nil => rfl
  | cons kv m ih =>
    obtain ⟨k, v⟩ := kv
    by_cases hk : k = key
    · simp_all [get?]
    · simp_all [erase, get?]

end Assoc

end ModalKeys
