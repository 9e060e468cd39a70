import ChargeScreening.Yaml.Token

/-!
# Reading YAML documents

## Main definitions

* `Yaml.readNode?`: a value from the tokens in front
* `Yaml.parse?`: the one document that a text holds
-/

namespace ChargeScreening.Yaml

mutual

/-- A value and the tokens behind it. Where a list may hang on its dashes alone, its dashes stand
at the column of the keys around it. -/
def readNode? : Nat → Bool → List Token → Option (Yaml × List Token)
  | 0, _, _ => none
  | steps + 1, hanging, ts =>
    match ts with
    | .scalar s :: rest => some (.scalar s, rest)
    | .openList :: rest => (readFlowItems? steps rest).map fun (xs, rest) => (.list xs, rest)
    | .openMap :: rest => (readFlowMembers? steps rest).map fun (ms, rest) => (.map ms, rest)
    | .blockMap :: rest => (readMembers? steps rest).map fun (ms, rest) => (.map ms, rest)
    | .blockList :: rest =>
      match readItems? steps rest with
      | some (xs, .blockEnd :: rest) => some (.list xs, rest)
      | _ => none
    | .dash :: rest =>
      if hanging then
        (readItems? steps (.dash :: rest)).map fun (xs, rest) => (.list xs, rest)
      else none
    | _ => none

/-- The items of a block list, as long as dashes follow. -/
def readItems? : Nat → List Token → Option (List Yaml × List Token)
  | 0, _ => none
  | steps + 1, .dash :: rest => do
    let (item, rest) ← match rest with
      | .dash :: _ | .key _ :: _ | .blockEnd :: _ => some (absent, rest)
      | _ => readNode? steps false rest
    let (items, rest) ← readItems? steps rest
    return (item :: items, rest)
  | _ + 1, ts => some ([], ts)

/-- The members of a block map up to its end. -/
def readMembers? : Nat → List Token → Option (List (Scalar × Yaml) × List Token)
  | 0, _ => none
  | steps + 1, .key key :: rest => do
    let (value, rest) ← match rest with
      | .key _ :: _ | .blockEnd :: _ => some (absent, rest)
      | _ => readNode? steps true rest
    let (members, rest) ← readMembers? steps rest
    return ((key, value) :: members, rest)
  | _ + 1, .blockEnd :: rest => some ([], rest)
  | _ + 1, _ => none

/-- The items of a flow list up to its bracket. A comma may follow the last one. A key makes the
item a map of one member. -/
def readFlowItems? : Nat → List Token → Option (List Yaml × List Token)
  | 0, _ => none
  | _ + 1, .closeList :: rest => some ([], rest)
  | steps + 1, ts => do
    let (item, rest) ← match ts with
      | .key key :: rest => do
        let (value, rest) ← readFlowValue? steps rest
        some (.map [(key, value)], rest)
      | _ => readNode? steps false ts
    match rest with
    | .comma :: rest => do
      let (items, rest) ← readFlowItems? steps rest
      return (item :: items, rest)
    | .closeList :: rest => return ([item], rest)
    | _ => none

/-- The members of a flow map up to its brace. A comma may follow the last one. A scalar that is no
key has no value. -/
def readFlowMembers? : Nat → List Token → Option (List (Scalar × Yaml) × List Token)
  | 0, _ => none
  | _ + 1, .closeMap :: rest => some ([], rest)
  | steps + 1, ts => do
    let (member, rest) ← match ts with
      | .key key :: rest => do
        let (value, rest) ← readFlowValue? steps rest
        some ((key, value), rest)
      | .scalar key :: rest => some ((key, absent), rest)
      | _ => none
    match rest with
    | .comma :: rest => do
      let (members, rest) ← readFlowMembers? steps rest
      return (member :: members, rest)
    | .closeMap :: rest => return ([member], rest)
    | _ => none

/-- The value behind a key of a flow collection, which may be left out. -/
def readFlowValue? : Nat → List Token → Option (Yaml × List Token)
  | 0, _ => none
  | steps + 1, ts =>
    match ts with
    | .comma :: _ | .closeList :: _ | .closeMap :: _ => some (absent, ts)
    | _ => readNode? steps false ts

end

/-- The one document that a text holds. A text without any holds a value that is left out. -/
def parse? (text : String) : Option Yaml := do
  let ts ← tokens? text
  let ts := match ts with
    | .documentStart :: rest => rest
    | _ => ts
  let (document, rest) ← match ts with
    | [] | .documentEnd :: _ => some (absent, ts)
    | _ => readNode? (2 * ts.length + 2) false ts
  if rest.all (· = .documentEnd) then some document else none

end ChargeScreening.Yaml
