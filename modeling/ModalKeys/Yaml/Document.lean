import ModalKeys.Yaml.Node
import ModalKeys.Yaml.Token

namespace ModalKeys.Yaml

namespace Node

/-- Whether a node begins with these tokens. -/
def begins : List Token → Bool
  | .scalar _ _ :: _ => true
  | .openSeq :: _ => true
  | .openMap :: _ => true
  | .beginSeq :: _ => true
  | .beginMap :: _ => true
  | _ => false

mutual

/-- The node that begins the tokens, and the tokens after it. -/
def read? : Nat → List Token → Option (Node × List Token)
  | 0, _ => none
  | fuel + 1, ts =>
    match ts with
    | .scalar plain text :: ts => some (.scalar plain text, ts)
    | .openSeq :: ts => (flowItems? fuel ts).map fun (items, ts) => (.seq items, ts)
    | .openMap :: ts => (flowPairs? fuel ts).map fun (pairs, ts) => (.map pairs, ts)
    | .beginSeq :: ts => do
      let (items, .endBlock :: ts) ← entries? fuel ts | none
      return (.seq items, ts)
    | .beginMap :: ts => do
      let (pairs, .endBlock :: ts) ← pairs? fuel ts | none
      return (.map pairs, ts)
    | _ => none

/-- A node, or no value where none begins. Where `dashes` allows it, the node may be a sequence
without a block of its own, whose dashes stand at the column of the keys around it. -/
def readOrEmpty? : Nat → Bool → List Token → Option (Node × List Token)
  | 0, _, _ => none
  | fuel + 1, dashes, ts =>
    if begins ts then read? fuel ts
    else if dashes && ts.head? == some .entry then
      (entries? fuel ts).map fun (items, ts) => (.seq items, ts)
    else some (.empty, ts)

/-- The entries that begin with dashes. -/
def entries? : Nat → List Token → Option (List Node × List Token)
  | 0, _ => none
  | fuel + 1, .entry :: ts => do
    let (item, ts) ← readOrEmpty? fuel false ts
    let (items, ts) ← entries? fuel ts
    return (item :: items, ts)
  | _ + 1, ts => some ([], ts)

/-- The pairs of a block. A key without a colon has no value. -/
def pairs? : Nat → List Token → Option (List (Node × Node) × List Token)
  | 0, _ => none
  | fuel + 1, .key :: ts => do
    let (key, ts) ← readOrEmpty? fuel true ts
    let (value, ts) ← value? fuel true ts
    let (pairs, ts) ← pairs? fuel ts
    return ((key, value) :: pairs, ts)
  | _ + 1, ts => some ([], ts)

/-- The value after a colon, or no value where there is none. -/
def value? : Nat → Bool → List Token → Option (Node × List Token)
  | 0, _, _ => none
  | fuel + 1, dashes, .value :: ts => readOrEmpty? fuel dashes ts
  | _ + 1, _, ts => some (.empty, ts)

/-- The items up to the closing bracket. A key makes a map of one pair; one that is announced and
left out takes the mark after it along. -/
def flowItems? : Nat → List Token → Option (List Node × List Token)
  | 0, _ => none
  | _ + 1, .closeSeq :: ts => some ([], ts)
  | fuel + 1, .key :: ts => do
    let (key, ts) ← match ts with
      | .value :: ts => some (.empty, ts)
      | .comma :: ts => some (.empty, ts)
      | .closeSeq :: ts => some (.empty, ts)
      | _ => read? fuel ts
    let (value, ts) ← value? fuel false ts
    moreItems? fuel (.map [(key, value)]) ts
  | fuel + 1, ts => do
    let (item, ts) ← read? fuel ts
    moreItems? fuel item ts

/-- An item with those after it. -/
def moreItems? : Nat → Node → List Token → Option (List Node × List Token)
  | 0, _, _ => none
  | fuel + 1, item, .comma :: ts => (flowItems? fuel ts).map fun (items, ts) => (item :: items, ts)
  | _ + 1, item, .closeSeq :: ts => some ([item], ts)
  | _ + 1, _, _ => none

/-- The pairs up to the closing brace. A node that is no key has no value. -/
def flowPairs? : Nat → List Token → Option (List (Node × Node) × List Token)
  | 0, _ => none
  | _ + 1, .closeMap :: ts => some ([], ts)
  | fuel + 1, .key :: ts => do
    let (key, ts) ← readOrEmpty? fuel false ts
    let (value, ts) ← value? fuel false ts
    morePairs? fuel (key, value) ts
  | fuel + 1, ts => do
    let (key, ts) ← read? fuel ts
    morePairs? fuel (key, .empty) ts

/-- A pair with those after it. -/
def morePairs? : Nat → Node × Node → List Token → Option (List (Node × Node) × List Token)
  | 0, _, _ => none
  | fuel + 1, pair, .comma :: ts => (flowPairs? fuel ts).map fun (pairs, ts) => (pair :: pairs, ts)
  | _ + 1, pair, .closeMap :: ts => some ([pair], ts)
  | _ + 1, _, _ => none

end

/-- Reads the tokens of one document. One that is opened may be empty. -/
def ofTokens? (ts : List Token) : Option Node := do
  let fuel := 4 * ts.length + 4
  let (node, ts) ← match ts with
    | [] => some (.empty, [])
    | .beginDocument :: ts => readOrEmpty? fuel false ts
    | _ => read? fuel ts
  if ts.all (· == .endDocument) then return node else none

end Node

/-- Reads a document of block and flow maps and sequences of scalars, if it is one. The empty text
is an empty scalar; anchors, tags, block scalars and further documents are not read. -/
def parse? (t : Text) : Option Node := do Node.ofTokens? (← tokens? t)

end ModalKeys.Yaml
