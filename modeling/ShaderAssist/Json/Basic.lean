import ShaderAssist.Text.Keyed

/-!
# JSON values

The values that settings and vocabularies are read from. An object keeps all its members in order, also
those with the same key, so that a reader can say what a second one means. A number keeps its literal.
A string or a key may be well written and denote no text; such a value can be passed over and not read.
-/

namespace ShaderAssist

/-- A JSON value. -/
inductive Json where
  | null
  | bool (value : Bool)
  | number (literal : String)
  | string (value : String)
  /-- A string with half a surrogate pair, which denotes no text. -/
  | brokenString
  | array (elements : List Json)
  | object (members : List (String × Json))
  /-- An object with a key that has half a surrogate pair. -/
  | brokenObject
deriving Repr, Inhabited

namespace Json

/-- The natural number that a value writes in plain digits. -/
def natural? : Json → Option Nat
  | number literal =>
    if literal.toList.all Char.isDigit then
      some (literal.toList.foldl (fun n c => 10 * n + (c.toNat - '0'.toNat)) 0)
    else none
  | _ => none

/-- The truth value that a value is. -/
def bool? : Json → Option Bool
  | bool value => some value
  | _ => none

/-- The text that a value is. -/
def string? : Json → Option String
  | string value => some value
  | _ => none

/-- The elements of an array. -/
def array? : Json → Option (List Json)
  | array elements => some elements
  | _ => none

/-- The members of an object. -/
def object? : Json → Option (List (String × Json))
  | object members => some members
  | _ => none

/-- The object with some members, whose keys may denote no text. -/
def ofMembers (members : List (Option String × Json)) : Json :=
  match members.mapM fun m => m.1.map fun key => (key, m.2) with
  | some members => object members
  | none => brokenObject

/-- The last member of an object with a key; null counts as missing. -/
def field? (key : String) : Json → Option Json
  | object members =>
    match (members.filter fun m => m.1 == key).getLast? with
    | some (_, null) => none
    | some (_, value) => some value
    | none => none
  | _ => none

/-- The texts of an array of texts. -/
def strings? (j : Json) : Option (List String) := do
  (← j.array?).mapM string?

/-- The table of an object with arrays of texts; of two members with one key the later one counts. -/
def table? (j : Json) : Option (List (String × List String)) := do
  let entries ← (← j.object?).mapM fun m => m.2.strings?.map fun texts => (m.1, texts)
  some (Keyed.ofEntries entries)

/-- The values of a record with the given keys, none for a missing one. A record is an object, in which
other keys do not count and none of the keys may stand twice, or an array with the values in order,
in which the last ones may be missing. -/
def record? (keys : List String) : Json → Option (List (Option Json))
  | object members => keys.mapM fun key =>
    match members.filter fun m => m.1 == key with
    | [] => some none
    | [m] => some (some m.2)
    | _ => none
  | array elements =>
    if elements.length ≤ keys.length then
      some ((List.range keys.length).map fun i => elements[i]?)
    else none
  | _ => none

end Json

end ShaderAssist
