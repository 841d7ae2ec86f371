import ModalKeys.Refusal
import ModalKeys.Text.Assoc

namespace ModalKeys

/-- The variables of the host as far as they are known. The empty value is no value. -/
structure Variables where
  values : Assoc Text

namespace Variables

def empty : Variables := ⟨[]⟩

def get? (v : Variables) (name : Text) : Option Text := v.values.get? name

def getD (v : Variables) (name default : Text) : Text := (v.get? name).getD default

/-- The value that an assignment leaves. -/
def assigned (value : Text) : Option Text := if value.isEmpty then none else some value

/-- Holds when an assignment makes a difference. -/
def changes (v : Variables) (name value : Text) : Bool := v.get? name != assigned value

def unset (v : Variables) (name : Text) : Variables := ⟨v.values.erase name⟩

def set (v : Variables) (name value : Text) : Variables :=
  if value.isEmpty then v.unset name else ⟨v.values.put name value⟩

/-- Toggles are on unless they are set to anything but `1`. -/
def isEnabled (v : Variables) (name : Text) : Bool := v.getD name ['1'] = ['1']

def size (v : Variables) : Nat := v.values.length

theorem get?_set (v : Variables) (name other value : Text) :
    (v.set name value).get? other = if name = other then assigned value else v.get? other := by
  unfold set assigned unset get?
  split
  · exact Assoc.get?_erase v.values name other
  · exact Assoc.get?_put v.values name other value

theorem set_of_not_changes {v : Variables} {name value : Text} (h : v.changes name value = false)
    (other : Text) : (v.set name value).get? other = v.get? other := by
  rw [get?_set]
  split
  · next hn => subst hn; exact (bne_eq_false_iff_eq.1 h).symm
  · rfl

/-- To assign a value that is held already changes nothing. -/
theorem set_of_get? {v : Variables} {name value : Text} (h : v.get? name = assigned value) :
    v.set name value = v := by
  unfold get? assigned at h
  unfold set unset
  split
  · next hv =>
    rw [if_pos hv] at h
    rw [Assoc.erase_of_get? h]
  · next hv =>
    rw [if_neg hv] at h
    rw [Assoc.put_of_get? h]

end Variables

/-- Variable names are `[A-Za-z0-9_.]+`. -/
def isVariableName (name : Text) : Bool :=
  !name.isEmpty && name.all fun c => c.isAlphanum || c == '_' || c == '.'

def checkVariableName (name : Text) : Except SyntaxError Unit :=
  if isVariableName name then .ok () else .error (.variableName name)

end ModalKeys
