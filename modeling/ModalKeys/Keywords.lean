import ModalKeys.Text.Quoted

namespace ModalKeys

/-- Keyword arguments in the order of their keys. -/
structure Keywords where
  toList : List (Text × Text)
  deriving DecidableEq, Repr

namespace Keywords

def empty : Keywords := ⟨[]⟩

def isEmpty (k : Keywords) : Bool := k.toList.isEmpty

/-- Puts a pair into its place; an equal key takes the new value. -/
def insertPair (key value : Text) : List (Text × Text) → List (Text × Text)
  | [] => [(key, value)]
  | (k, v) :: r =>
    if key < k then (key, value) :: (k, v) :: r
    else if key = k then (key, value) :: r
    else (k, v) :: insertPair key value r

def insert (k : Keywords) (key value : Text) : Keywords := ⟨insertPair key value k.toList⟩

/-- The second one's values win. -/
def merge (k l : Keywords) : Keywords := l.toList.foldl (fun k (key, value) => k.insert key value) k

def ofList (pairs : List (Text × Text)) : Keywords := empty.merge ⟨pairs⟩

def describe (k : Keywords) : String :=
  let pairs := k.toList.map fun (key, value) => Text.quoted key ++ ": " ++ Text.quoted value
  "\x7b" ++ ", ".intercalate pairs ++ "\x7d"

end Keywords

end ModalKeys
