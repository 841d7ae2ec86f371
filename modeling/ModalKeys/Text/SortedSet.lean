import ModalKeys.Text.Basic

namespace ModalKeys

/-- Puts a text into its place; a text that is there already stays. -/
def insertSorted (x : Text) : List Text → List Text
  | [] => [x]
  | y :: ys => if x < y then x :: y :: ys else if x = y then y :: ys else y :: insertSorted x ys

theorem mem_insertSorted {x z : Text} {l : List Text} :
    z ∈ insertSorted x l ↔ z = x ∨ z ∈ l := by
  induction l with
  | nil => simp [insertSorted]
  | cons y ys ih =>
    rw [insertSorted]
    split
    · simp
    · split
      · next h => subst h; simp
      · simp only [List.mem_cons, ih]
        constructor
        · rintro (h | h | h) <;> simp [h]
        · rintro (h | h | h) <;> simp [h]

theorem insertSorted_of_mem {x : Text} {l : List Text} (h : l.Pairwise (· < ·)) (hx : x ∈ l) :
    insertSorted x l = l := by
  induction l with
  | nil => cases hx
  | cons y ys ih =>
    obtain ⟨hy, hys⟩ := List.pairwise_cons.1 h
    rw [insertSorted]
    rcases List.mem_cons.1 hx with rfl | hx
    · rw [if_neg (List.lt_irrefl x), if_pos rfl]
    · have hlt : y < x := hy x hx
      have hne : x ≠ y := fun he => List.lt_irrefl y (he ▸ hlt)
      rw [if_neg (List.lt_asymm hlt), if_neg hne, ih hys hx]

theorem pairwise_insertSorted {x : Text} {l : List Text} (h : l.Pairwise (· < ·)) :
    (insertSorted x l).Pairwise (· < ·) := by
  induction l with
  | nil => simp [insertSorted]
  | cons y ys ih =>
    obtain ⟨hy, hys⟩ := List.pairwise_cons.1 h
    rw [insertSorted]
    split
    · next hlt =>
      refine List.pairwise_cons.2 ⟨fun z hz => ?_, h⟩
      rcases List.mem_cons.1 hz with rfl | hz
      · exact hlt
      · exact List.lt_trans hlt (hy z hz)
    · split
      · exact h
      · next hlt hne =>
        refine List.pairwise_cons.2 ⟨fun z hz => ?_, ih hys⟩
        rcases mem_insertSorted.1 hz with rfl | hz
        · exact Decidable.byContradiction fun hn =>
            hne (List.le_antisymm (List.not_lt.1 hn) (List.not_lt.1 hlt))
        · exact hy z hz

/-- The texts in the order of their code points. Sets with the same members are equal, however they
were built. -/
structure TextSet where
  toList : List Text
  sorted : toList.Pairwise (· < ·)
  deriving DecidableEq

namespace TextSet

instance : Membership Text TextSet := ⟨fun s x => x ∈ s.toList⟩

instance (x : Text) (s : TextSet) : Decidable (x ∈ s) := inferInstanceAs (Decidable (x ∈ s.toList))

def empty : TextSet := ⟨[], .nil⟩

instance : EmptyCollection TextSet := ⟨empty⟩

instance : Inhabited TextSet := ⟨empty⟩

def isEmpty (s : TextSet) : Bool := s.toList.isEmpty

def size (s : TextSet) : Nat := s.toList.length

def insert (s : TextSet) (x : Text) : TextSet :=
  ⟨insertSorted x s.toList, pairwise_insertSorted s.sorted⟩

def erase (s : TextSet) (x : Text) : TextSet :=
  ⟨s.toList.filter (· ≠ x), s.sorted.filter _⟩

def insertAll (s : TextSet) (xs : List Text) : TextSet := xs.foldl insert s

def ofList (xs : List Text) : TextSet := empty.insertAll xs

def union (s t : TextSet) : TextSet := s.insertAll t.toList

theorem mem_insert {s : TextSet} {x z : Text} : z ∈ s.insert x ↔ z = x ∨ z ∈ s :=
  mem_insertSorted

theorem insert_of_mem {s : TextSet} {x : Text} (h : x ∈ s) : s.insert x = s := by
  obtain ⟨l, sorted⟩ := s
  exact (TextSet.mk.injEq ..).mpr (insertSorted_of_mem sorted h)

theorem mem_erase {s : TextSet} {x z : Text} : z ∈ s.erase x ↔ z ∈ s ∧ z ≠ x := by
  change z ∈ s.toList.filter (· ≠ x) ↔ z ∈ s.toList ∧ z ≠ x
  simp [List.mem_filter]

theorem mem_insertAll {s : TextSet} {xs : List Text} {z : Text} :
    z ∈ s.insertAll xs ↔ z ∈ xs ∨ z ∈ s := by
  induction xs generalizing s with
  | nil => simp [insertAll]
  | cons x xs ih =>
    change z ∈ (s.insert x).insertAll xs ↔ _
    rw [ih, mem_insert, List.mem_cons]
    constructor
    · rintro (h | h | h) <;> simp [h]
    · rintro ((h | h) | h) <;> simp [h]

end TextSet

end ModalKeys
