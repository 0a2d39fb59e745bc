import ShaderAssist.Json.Basic

/-!
# Reading JSON

The written form of a JSON value. Every function reads from the front of a text and answers with what is
left of it. Values inside each other are bounded by the length of the text.
-/

namespace ShaderAssist

namespace Json

/-- The text without the white space at its front. -/
def skipSpace (cs : List Char) : List Char :=
  cs.dropWhile fun c => c == ' ' || c == '\n' || c == '\t' || c == '\r'

/-- The value of a hexadecimal digit. -/
def hexDigit? (c : Char) : Option Nat :=
  if c.isDigit then some (c.toNat - '0'.toNat)
  else if 'a' ≤ c && c ≤ 'f' then some (c.toNat - 'a'.toNat + 10)
  else if 'A' ≤ c && c ≤ 'F' then some (c.toNat - 'A'.toNat + 10)
  else none

/-- The number that four hexadecimal digits write. -/
def hexUnit? (a b c d : Char) : Option Nat := do
  let a ← hexDigit? a
  let b ← hexDigit? b
  let c ← hexDigit? c
  let d ← hexDigit? d
  some (((a * 16 + b) * 16 + c) * 16 + d)

/-- The character of an escape of one letter. -/
def escaped? : Char → Option Char
  | '"' => some '"'
  | '\\' => some '\\'
  | '/' => some '/'
  | 'b' => some '\x08'
  | 'f' => some '\x0c'
  | 'n' => some '\n'
  | 'r' => some '\r'
  | 't' => some '\t'
  | _ => none

/-- Reads a string after its opening quotation mark, as the list of its UTF-16 code units and
characters in reverse: a unit of an escape is kept as a number until it is known what follows. -/
def readUnits? (units : List (Nat ⊕ Char)) : List Char → Option (List (Nat ⊕ Char) × List Char)
  | [] => none
  | '"' :: cs => some (units, cs)
  | '\\' :: 'u' :: a :: b :: c :: d :: cs =>
    match hexUnit? a b c d with
    | some unit => readUnits? (.inl unit :: units) cs
    | none => none
  | '\\' :: c :: cs =>
    match escaped? c with
    | some c => readUnits? (.inr c :: units) cs
    | none => none
  | c :: cs => if c.toNat < 0x20 || c == '\\' then none else readUnits? (.inr c :: units) cs

/-- The text of code units and characters; none if it has half a surrogate pair. -/
def joinUnits? : List (Nat ⊕ Char) → Option (List Char)
  | [] => some []
  | .inr c :: rest => (joinUnits? rest).map (c :: ·)
  | .inl high :: .inl low :: rest =>
    if 0xD800 ≤ high && high < 0xDC00 && 0xDC00 ≤ low && low < 0xE000 then
      (joinUnits? rest).map
        (Char.ofNat (0x10000 + (high - 0xD800) * 0x400 + (low - 0xDC00)) :: ·)
    else if 0xD800 ≤ high && high < 0xE000 then none
    else (joinUnits? (.inl low :: rest)).map (Char.ofNat high :: ·)
  | .inl unit :: rest =>
    if 0xD800 ≤ unit && unit < 0xE000 then none
    else (joinUnits? rest).map (Char.ofNat unit :: ·)
termination_by units => units.length

/-- Reads a string after its opening quotation mark. The text is none if the string denotes none. -/
def readString? (cs : List Char) : Option (Option String × List Char) := do
  let (units, rest) ← readUnits? [] cs
  some ((joinUnits? units.reverse).map String.ofList, rest)

/-- The digits at the front of a text. -/
def readDigits (cs : List Char) : List Char × List Char :=
  (cs.takeWhile Char.isDigit, cs.dropWhile Char.isDigit)

/-- Reads the fraction of a number, if there is one. -/
def readFraction? : List Char → Option (List Char × List Char)
  | '.' :: cs =>
    let (digits, rest) := readDigits cs
    if digits.isEmpty then none else some ('.' :: digits, rest)
  | cs => some ([], cs)

/-- Reads the exponent of a number, if there is one. -/
def readExponent? : List Char → Option (List Char × List Char)
  | c :: cs =>
    if c == 'e' || c == 'E' then
      let (sign, cs) := match cs with
        | '+' :: cs => (['+'], cs)
        | '-' :: cs => (['-'], cs)
        | cs => ([], cs)
      let (digits, rest) := readDigits cs
      if digits.isEmpty then none else some (c :: sign ++ digits, rest)
    else some ([], c :: cs)
  | [] => some ([], [])

/-- Reads a number. -/
def readNumber? (cs : List Char) : Option (String × List Char) := do
  let (sign, cs) := match cs with
    | '-' :: cs => (['-'], cs)
    | cs => ([], cs)
  let (digits, cs) := readDigits cs
  if digits.isEmpty || (digits.head? == some '0' && digits.length > 1) then none
  let (fraction, cs) ← readFraction? cs
  let (exponent, cs) ← readExponent? cs
  some (String.ofList (sign ++ digits ++ fraction ++ exponent), cs)

mutual

/-- Reads a value. -/
def readValue? : Nat → List Char → Option (Json × List Char)
  | 0, _ => none
  | n + 1, cs =>
    match skipSpace cs with
    | 'n' :: 'u' :: 'l' :: 'l' :: cs => some (null, cs)
    | 't' :: 'r' :: 'u' :: 'e' :: cs => some (bool true, cs)
    | 'f' :: 'a' :: 'l' :: 's' :: 'e' :: cs => some (bool false, cs)
    | '"' :: cs => do
      let (text, cs) ← readString? cs
      some ((text.map string).getD brokenString, cs)
    | '[' :: cs =>
      match skipSpace cs with
      | ']' :: cs => some (array [], cs)
      | cs => do
        let (elements, cs) ← readElements? n cs
        some (array elements, cs)
    | '\x7b' :: cs =>
      match skipSpace cs with
      | '\x7d' :: cs => some (object [], cs)
      | cs => do
        let (members, cs) ← readMembers? n cs
        some (ofMembers members, cs)
    | cs => (readNumber? cs).map fun r => (number r.1, r.2)

/-- Reads the elements of an array up to its closing bracket. -/
def readElements? : Nat → List Char → Option (List Json × List Char)
  | 0, _ => none
  | n + 1, cs => do
    let (first, cs) ← readValue? n cs
    match skipSpace cs with
    | ',' :: cs =>
      let (rest, cs) ← readElements? n cs
      some (first :: rest, cs)
    | ']' :: cs => some ([first], cs)
    | _ => none

/-- Reads the members of an object up to its closing brace. A key is none if it denotes no text. -/
def readMembers? : Nat → List Char → Option (List (Option String × Json) × List Char)
  | 0, _ => none
  | n + 1, cs => do
    match skipSpace cs with
    | '"' :: cs =>
      let (key, cs) ← readString? cs
      match skipSpace cs with
      | ':' :: cs =>
        let (value, cs) ← readValue? n cs
        match skipSpace cs with
        | ',' :: cs =>
          let (rest, cs) ← readMembers? n cs
          some ((key, value) :: rest, cs)
        | '\x7d' :: cs => some ([(key, value)], cs)
        | _ => none
      | _ => none
    | _ => none

end

/-- The value that a text writes; none if it writes none. -/
def ofString? (text : String) : Option Json := do
  let (value, rest) ← readValue? (2 * text.length + 2) text.toList
  if (skipSpace rest).isEmpty then some value else none

end Json

end ShaderAssist
