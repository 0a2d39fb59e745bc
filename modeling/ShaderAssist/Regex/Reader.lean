import ShaderAssist.Regex.Footprint

/-!
# Reading regular expressions

The written form of an expression: literal characters, `.`, classes in brackets, groups, alternatives,
repetitions, anchors, and escapes with a backslash. Groups may set flags: `i` disregards case, `m` lets
anchors match at lines, `s` lets the point match a line feed, `U` exchanges greedy and lazy. A text
that is no written form has no expression, and neither has one whose parts are nested too deeply or
whose expression is too large. Two parts of the usual notation are left out and count as no written form:
classes by a Unicode property (`\p` and `\P`, with a letter or with a name in braces), and the flags `x`,
`u` and `R`.

Reading goes from left to right and keeps the groups that are still open on a stack, so a group may
close one that was opened by text put in front of the source.
-/

namespace ShaderAssist

namespace Regex

/-- What a group sets for its content. -/
structure Flags where
  ignoreCase : Bool := false
  multiLine : Bool := false
  dotAll : Bool := false
  swapGreed : Bool := false
deriving DecidableEq, Repr, Inhabited

/-! ### Escapes -/

/-- What stands after a backslash. -/
inductive Escape where
  | char (c : Char)
  | set (s : CharSet)
  | assert (a : Assertion)

/-- Whether a character has a meaning of its own in an expression. -/
def isMeta (c : Char) : Bool :=
  "\\.+*?()|[]\x7b\x7d^$#&-~".toList.contains c

/-- Whether a backslash may stand before a character that needs none. -/
def isEscapable (c : Char) : Bool :=
  c.toNat < 0x80 && !c.isAlphanum && c != '<' && c != '>'

/-- The value of a hexadecimal digit. -/
def hexValue? (c : Char) : Option Nat :=
  if c.isDigit then some (c.toNat - '0'.toNat)
  else if 'a' ≤ c && c ≤ 'f' then some (c.toNat - 'a'.toNat + 10)
  else if 'A' ≤ c && c ≤ 'F' then some (c.toNat - 'A'.toNat + 10)
  else none

/-- The character with the code point that some hexadecimal digits write. -/
def charOfHex? (digits : List Char) : Option Char := do
  let values ← digits.mapM hexValue?
  let code := values.foldl (fun n d => 16 * n + d) 0
  if digits.isEmpty then none
  else if h : code.isValidChar then some (Char.ofNatAux code h) else none

/-- A code point in hexadecimal digits: in braces, or exactly `width` of them. -/
def readHex? (width : Nat) : List Char → Option (Char × List Char)
  | '\x7b' :: cs => do
    let c ← charOfHex? (cs.takeWhile (· != '\x7d'))
    match cs.dropWhile (· != '\x7d') with
    | _ :: rest => some (c, rest)
    | [] => none
  | cs => do
    let digits := cs.take width
    if digits.length < width then none
    let c ← charOfHex? digits
    some (c, cs.drop width)

/-- The name in braces after a boundary of a word. A brace that starts no name is left unread. -/
def readBoundary? (cs : List Char) : Option (Assertion × List Char) :=
  let isNameChar := fun c : Char => c.isAlpha || c == '-'
  match cs with
  | ['\x7b'] => none
  | '\x7b' :: c :: cs =>
    if isNameChar c then
      let name := String.ofList ((c :: cs).takeWhile isNameChar)
      match (c :: cs).dropWhile isNameChar with
      | '\x7d' :: rest =>
        if name = "start" then some (.wordStart, rest)
        else if name = "end" then some (.wordEnd, rest)
        else if name = "start-half" then some (.wordStartHalf, rest)
        else if name = "end-half" then some (.wordEndHalf, rest)
        else none
      | _ => none
    else some (.wordBoundary, '\x7b' :: c :: cs)
  | cs => some (.wordBoundary, cs)

/-- Reads what stands after a backslash. -/
def readEscape? : List Char → Option (Escape × List Char)
  | [] => none
  | c :: cs =>
    if isMeta c || isEscapable c then some (.char c, cs)
    else match c with
      | 'd' => some (.set .digit, cs)
      | 'D' => some (.set (.compl .digit), cs)
      | 'w' => some (.set .word, cs)
      | 'W' => some (.set (.compl .word), cs)
      | 's' => some (.set .blank, cs)
      | 'S' => some (.set (.compl .blank), cs)
      | 'x' => (readHex? 2 cs).map fun r => (.char r.1, r.2)
      | 'u' => (readHex? 4 cs).map fun r => (.char r.1, r.2)
      | 'U' => (readHex? 8 cs).map fun r => (.char r.1, r.2)
      | 'a' => some (.char '\x07', cs)
      | 'f' => some (.char '\x0c', cs)
      | 't' => some (.char '\t', cs)
      | 'n' => some (.char '\n', cs)
      | 'r' => some (.char '\r', cs)
      | 'v' => some (.char '\x0b', cs)
      | 'A' => some (.assert .textStart, cs)
      | 'z' => some (.assert .textEnd, cs)
      | 'B' => some (.assert .noWordBoundary, cs)
      | '<' => some (.assert .wordStart, cs)
      | '>' => some (.assert .wordEnd, cs)
      | 'b' => (readBoundary? cs).map fun r => (.assert r.1, r.2)
      | _ => none

/-! ### Classes in brackets -/

/-- How two sets are combined inside brackets. -/
inductive SetOp where
  | inter
  | diff
  | symmDiff

/-- The set that an operation makes of two sets. -/
def SetOp.apply : SetOp → CharSet → CharSet → CharSet
  | inter => .inter
  | diff => .diff
  | symmDiff => .symmDiff

/-- A class whose closing bracket is still to come. -/
structure OpenClass where
  negated : Bool
  /-- The set before an operation, the depth of its written form, and the operation. -/
  left : Option (CharSet × Nat × SetOp) := none
  /-- What was read since then, in reverse. -/
  items : List CharSet := []
  /-- The largest depth among the items. -/
  depth : Nat := 0
  deriving Inhabited

namespace OpenClass

/-- The class with one more set. -/
def add (k : OpenClass) (s : CharSet) (depth : Nat) : OpenClass :=
  { k with items := s :: k.items, depth := max k.depth depth }

/-- The set of the items. -/
def union (k : OpenClass) : CharSet :=
  .unions k.items

/-- The depth of the items; several of them count as one more level. -/
def unionDepth (k : OpenClass) : Nat :=
  if 2 ≤ k.items.length then k.depth + 1 else k.depth

/-- The set of the operation that is under way. -/
def current (k : OpenClass) : CharSet :=
  match k.left with
  | none => k.union
  | some (s, _, op) => op.apply s k.union

/-- The depth of the operation that is under way. -/
def currentDepth (k : OpenClass) : Nat :=
  match k.left with
  | none => k.unionDepth
  | some (_, depth, _) => max depth k.unionDepth + 1

/-- The class after an operation sign. -/
def operate (k : OpenClass) (op : SetOp) : OpenClass :=
  { k with left := some (k.current, k.currentDepth, op), items := [], depth := 0 }

/-- The set of the class. -/
def close (k : OpenClass) : CharSet :=
  if k.negated then .compl k.current else k.current

end OpenClass

/-- The set of a class given by name, such as the letters of ASCII. -/
def namedClass? (name : String) : Option CharSet :=
  let ranges := fun rs : List (Char × Char) =>
    some (CharSet.unions (rs.map fun r => .range r.1 r.2))
  match name with
  | "alnum" => ranges [('0', '9'), ('A', 'Z'), ('a', 'z')]
  | "alpha" => ranges [('A', 'Z'), ('a', 'z')]
  | "ascii" => ranges [('\x00', '\x7f')]
  | "blank" => ranges [('\t', '\t'), (' ', ' ')]
  | "cntrl" => ranges [('\x00', '\x1f'), ('\x7f', '\x7f')]
  | "digit" => ranges [('0', '9')]
  | "graph" => ranges [('!', '~')]
  | "lower" => ranges [('a', 'z')]
  | "print" => ranges [(' ', '~')]
  | "punct" => ranges [('!', '/'), (':', '@'), ('[', '\x60'), ('\x7b', '~')]
  | "space" => ranges [('\t', '\t'), ('\n', '\n'), ('\x0b', '\x0b'), ('\x0c', '\x0c'),
      ('\r', '\r'), (' ', ' ')]
  | "upper" => ranges [('A', 'Z')]
  | "word" => ranges [('0', '9'), ('A', 'Z'), ('_', '_'), ('a', 'z')]
  | "xdigit" => ranges [('0', '9'), ('A', 'F'), ('a', 'f')]
  | _ => none

/-- A named class inside brackets, from after its own opening bracket on. -/
def readNamedClass? (ignoreCase : Bool) : List Char → Option (CharSet × List Char)
  | ':' :: cs => do
    let negated := cs.head? == some '^'
    let cs := if negated then cs.tail else cs
    let s ← namedClass? (String.ofList (cs.takeWhile (· != ':')))
    let s := s.upToCase ignoreCase
    match cs.dropWhile (· != ':') with
    | ':' :: ']' :: rest => some (if negated then .compl s else s, rest)
    | _ => none
  | _ => none

/-- The start of a class after its opening bracket: a negation, then dashes and, if there is none, a
closing bracket that stand for themselves. -/
def openClass (cs : List Char) : OpenClass × List Char :=
  let negated := cs.head? == some '^'
  let cs := if negated then cs.tail else cs
  let dashes := cs.takeWhile (· == '-')
  let rest := cs.dropWhile (· == '-')
  let k := dashes.foldl (fun k _ => k.add (.single '-') 0) (⟨negated, none, [], 0⟩ : OpenClass)
  match dashes, rest with
  | [], ']' :: rest => (k.add (.single ']') 0, rest)
  | _, _ => (k, rest)

/-- One character or escape of a class. -/
def readClassItem? : List Char → Option (Escape × List Char)
  | '\\' :: cs => readEscape? cs
  | c :: cs => some (.char c, cs)
  | [] => none

/-- The set of an item that starts no range. -/
def Escape.toSet? (ignoreCase : Bool) : Escape → Option CharSet
  | .char c => some ((CharSet.single c).upToCase ignoreCase)
  | .set s => some s
  | .assert _ => none

/-- One item of a class, or a range between two characters. -/
def readClassRange? (ignoreCase : Bool) (cs : List Char) : Option (CharSet × List Char) := do
  let (first, rest) ← readClassItem? cs
  match rest with
  | [] => none
  | ['-'] => none
  | '-' :: c :: rest' =>
    if c = ']' || c = '-' then
      let s ← first.toSet? ignoreCase
      some (s, rest)
    else
      let (second, rest) ← readClassItem? (c :: rest')
      match first, second with
      | .char lo, .char hi =>
        if lo ≤ hi then some ((CharSet.range lo hi).upToCase ignoreCase, rest) else none
      | _, _ => none
  | _ =>
    let s ← first.toSet? ignoreCase
    some (s, rest)

/-- Reads a class after its opening bracket, and answers with its set and the depth of its written
form; `outer` holds the classes around it. Every step reads a character, so the length of the text
bounds the steps. -/
def readClass? (ignoreCase : Bool) :
    Nat → OpenClass → List OpenClass → List Char → Option (CharSet × Nat × List Char)
  | 0, _, _, _ => none
  | _ + 1, _, _, [] => none
  | n + 1, k, outer, '[' :: cs =>
    match readNamedClass? ignoreCase cs with
    | some (s, rest) => readClass? ignoreCase n (k.add s 0) outer rest
    | none =>
      let (inner, rest) := openClass cs
      readClass? ignoreCase n inner (k :: outer) rest
  | n + 1, k, outer, ']' :: cs =>
    match outer with
    | [] => some (k.close, k.currentDepth + 1, cs)
    | k' :: outer => readClass? ignoreCase n (k'.add k.close (k.currentDepth + 1)) outer cs
  | n + 1, k, outer, '&' :: '&' :: cs => readClass? ignoreCase n (k.operate .inter) outer cs
  | n + 1, k, outer, '-' :: '-' :: cs => readClass? ignoreCase n (k.operate .diff) outer cs
  | n + 1, k, outer, '~' :: '~' :: cs => readClass? ignoreCase n (k.operate .symmDiff) outer cs
  | n + 1, k, outer, cs =>
    match readClassRange? ignoreCase cs with
    | some (s, rest) => readClass? ignoreCase n (k.add s 0) outer rest
    | none => none

/-! ### Groups -/

/-- An expression with the depth of its written form. Repetitions, groups and classes are one level
deeper than what is in them, and so are several pieces in a row and several alternatives. -/
structure Part where
  regex : Regex
  depth : Nat
  deriving Inhabited

/-- The depth of some parts taken together. -/
def depthOf : List Part → Nat
  | [] => 0
  | [p] => p.depth
  | parts => parts.foldl (fun n p => max n p.depth) 0 + 1

/-- A group whose closing parenthesis is still to come, or the whole expression. -/
structure OpenGroup where
  /-- Flags in force inside. -/
  flags : Flags
  /-- The number of the group, if it has one. -/
  number : Option Nat := none
  /-- The alternatives read so far, in reverse. -/
  alternatives : List Part := []
  /-- The pieces of the current alternative, in reverse. -/
  pieces : List Part := []
  /-- Whether the last piece can be repeated. -/
  repeatable : Bool := false
  deriving Inhabited

namespace OpenGroup

/-- The current alternative. -/
def branch (g : OpenGroup) : Part :=
  ⟨concat (g.pieces.reverse.map Part.regex), depthOf g.pieces⟩

/-- All alternatives together. -/
def content (g : OpenGroup) : Part :=
  match g.alternatives with
  | [] => g.branch
  | before =>
    let parts := (g.branch :: before).reverse
    ⟨alternation (parts.map Part.regex), depthOf parts⟩

/-- The whole group as a part of the one around it. -/
def close (g : OpenGroup) : Part :=
  let ⟨r, depth⟩ := g.content
  match g.number with
  | some n => ⟨.group n r, depth + 1⟩
  | none => ⟨r, depth + 1⟩

/-- The group with one more piece. -/
def add (g : OpenGroup) (p : Part) : OpenGroup :=
  { g with pieces := p :: g.pieces, repeatable := true }

/-- The group after a bar. -/
def alternate (g : OpenGroup) : OpenGroup :=
  { g with alternatives := g.branch :: g.alternatives, pieces := [], repeatable := false }

/-- The group with new flags for what follows; the place where they are set is a piece too. -/
def setFlags (g : OpenGroup) (flags : Flags) : OpenGroup :=
  { g with flags := flags, pieces := ⟨.empty, 0⟩ :: g.pieces, repeatable := false }

/-- The group with its last piece repeated. -/
def repeatLast? (g : OpenGroup) (least : Nat) (most : Option Nat) (greedy : Bool) :
    Option OpenGroup :=
  match g.repeatable, g.pieces with
  | true, ⟨r, depth⟩ :: rest =>
    let r := repetition least most (greedy != g.flags.swapGreed) r
    some { g with pieces := ⟨r, depth + 1⟩ :: rest }
  | _, _ => none

end OpenGroup

/-- The state of reading: the innermost open group, those around it, the number of the next group that
gets one, and the names given to groups. -/
structure ReadState where
  group : OpenGroup
  outer : List OpenGroup := []
  nextNumber : Nat := 1
  names : List String := []
  deriving Inhabited

namespace ReadState

/-- The state with one more piece in its innermost group. -/
def add (s : ReadState) (r : Regex) (depth : Nat) : ReadState :=
  { s with group := s.group.add ⟨r, depth⟩ }

/-- The state inside a new group without a number. -/
def enter (s : ReadState) (flags : Flags) : ReadState :=
  { s with group := ⟨flags, none, [], [], false⟩, outer := s.group :: s.outer }

/-- The state inside a new group with a number. -/
def enterNumbered (s : ReadState) : ReadState :=
  { s with
    group := ⟨s.group.flags, some s.nextNumber, [], [], false⟩
    outer := s.group :: s.outer
    nextNumber := s.nextNumber + 1 }

end ReadState

/-- The flags with one letter set or cleared; none if there is no such letter. -/
def Flags.set? (f : Flags) (c : Char) (value : Bool) : Option Flags :=
  match c with
  | 'i' => some { f with ignoreCase := value }
  | 'm' => some { f with multiLine := value }
  | 's' => some { f with dotAll := value }
  | 'U' => some { f with swapGreed := value }
  | _ => none

/-- Reads flag letters up to a colon or a closing parenthesis, which is answered too. No letter may
stand twice, and a dash has to stand before the letters that are cleared. -/
def readFlags? (f : Flags) (seen : List Char) (value : Bool) :
    List Char → Option (Flags × List Char × Char × List Char)
  | [] => none
  | c :: cs =>
    if c = ':' || c = ')' then
      if seen.head? = some '-' then none else some (f, seen, c, cs)
    else if seen.contains c then none
    else if c = '-' then readFlags? f ('-' :: seen) false cs
    else match f.set? c value with
      | some f => readFlags? f (c :: seen) value cs
      | none => none

/-- Whether a character can stand in the name of a group. -/
def isGroupNameChar (first : Bool) (c : Char) : Bool :=
  if first then c == '_' || isAlphabetic c
  else c == '_' || c == '.' || c == '[' || c == ']' || isAlphanumeric c

/-- Reads the name of a group up to its closing angle. -/
def readGroupName? (cs : List Char) : Option (String × List Char) :=
  let name := cs.takeWhile (· != '>')
  match name, cs.dropWhile (· != '>') with
  | c :: more, _ :: rest =>
    if isGroupNameChar true c && more.all (isGroupNameChar false) then
      some (String.ofList name, rest)
    else none
  | _, _ => none

/-- The state inside a group with a name that no other group has. -/
def ReadState.enterNamed? (s : ReadState) (cs : List Char) : Option (ReadState × List Char) := do
  let (name, rest) ← readGroupName? cs
  if s.names.contains name then none
  some ({ s.enterNumbered with names := name :: s.names }, rest)

/-- Reads the start of a group after its opening parenthesis. -/
def openGroup? (s : ReadState) : List Char → Option (ReadState × List Char)
  | '?' :: '=' :: _ => none
  | '?' :: '!' :: _ => none
  | '?' :: '<' :: '=' :: _ => none
  | '?' :: '<' :: '!' :: _ => none
  | '?' :: 'P' :: '<' :: cs => s.enterNamed? cs
  | '?' :: '<' :: cs => s.enterNamed? cs
  | '?' :: cs => do
    let (flags, seen, last, rest) ← readFlags? s.group.flags [] true cs
    if last = ':' then some (s.enter flags, rest)
    else if seen.isEmpty then none
    else some ({ s with group := s.group.setFlags flags }, rest)
  | cs => some (s.enterNumbered, cs)

/-- The state after a closing parenthesis; none if no group is open. -/
def ReadState.leave? (s : ReadState) : Option ReadState :=
  match s.outer with
  | [] => none
  | g :: outer => some { s with group := g.add s.group.close, outer := outer }

/-! ### Repetitions -/

/-- The largest count of a repetition. -/
def maxCount : Nat :=
  0xFFFFFFFF

/-- A count in decimal digits, with blanks around it. -/
def readCount? (cs : List Char) : Option (Nat × List Char) :=
  let cs := cs.dropWhile isBlank
  let digits := cs.takeWhile Char.isDigit
  let value := digits.foldl (fun n c => 10 * n + (c.toNat - '0'.toNat)) 0
  if digits.isEmpty || maxCount < value then none
  else some (value, (cs.dropWhile Char.isDigit).dropWhile isBlank)

/-- The counts of a repetition after its opening brace. -/
def readCounts? (cs : List Char) : Option (Nat × Option Nat × List Char) := do
  let (least, rest) ← readCount? cs
  match rest with
  | '\x7d' :: rest => some (least, some least, rest)
  | ',' :: '\x7d' :: rest => some (least, none, rest)
  | ',' :: rest =>
    let (most, rest) ← readCount? rest
    match rest with
    | '\x7d' :: rest => if least ≤ most then some (least, some most, rest) else none
    | _ => none
  | _ => none

/-- The state after a repetition sign; a question mark behind it makes the repetition lazy. -/
def ReadState.repeat? (s : ReadState) (least : Nat) (most : Option Nat) (cs : List Char) :
    Option (ReadState × List Char) := do
  let greedy := cs.head? != some '?'
  let group ← s.group.repeatLast? least most greedy
  some ({ s with group := group }, if greedy then cs else cs.tail)

/-! ### Expressions -/

/-- The expression of one character, up to case if `ignoreCase` is set. -/
def ofChar (ignoreCase : Bool) (c : Char) : Regex :=
  .ofSet (if ignoreCase then .variants c else .single c)

/-- Reads the next piece of an expression. -/
def readPiece? (s : ReadState) : List Char → Option (ReadState × List Char)
  | [] => none
  | '(' :: cs => openGroup? s cs
  | ')' :: cs => s.leave?.map fun s => (s, cs)
  | '|' :: cs => some ({ s with group := s.group.alternate }, cs)
  | '[' :: cs => do
    let (k, rest) := openClass cs
    let (chars, depth, rest) ← readClass? s.group.flags.ignoreCase (rest.length + 1) k [] rest
    some (s.add (.ofSet chars) depth, rest)
  | '?' :: cs => s.repeat? 0 (some 1) cs
  | '*' :: cs => s.repeat? 0 none cs
  | '+' :: cs => s.repeat? 1 none cs
  | '\x7b' :: cs => do
    let (least, most, rest) ← readCounts? cs
    s.repeat? least most rest
  | '.' :: cs =>
    let chars := if s.group.flags.dotAll then .all else .compl (.single '\n')
    some (s.add (.ofSet chars) 0, cs)
  | '^' :: cs =>
    some (s.add (.assert (if s.group.flags.multiLine then .lineStart else .textStart)) 0, cs)
  | '$' :: cs =>
    some (s.add (.assert (if s.group.flags.multiLine then .lineEnd else .textEnd)) 0, cs)
  | '\\' :: cs => do
    let (escape, rest) ← readEscape? cs
    match escape with
    | .char c => some (s.add (ofChar s.group.flags.ignoreCase c) 0, rest)
    | .set chars => some (s.add (.ofSet chars) 0, rest)
    | .assert a => some (s.add (.assert a) 0, rest)
  | c :: cs => some (s.add (ofChar s.group.flags.ignoreCase c) 0, cs)

/-- Reads an expression to its end. Every piece reads a character, so the length of the text bounds
the pieces. -/
def readPieces? : Nat → ReadState → List Char → Option Part
  | _, s, [] => if s.outer.isEmpty then some s.group.content else none
  | 0, _, _ => none
  | n + 1, s, cs =>
    match readPiece? s cs with
    | some (s, rest) => readPieces? n s rest
    | none => none

/-- The largest depth of a written form. -/
def maxDepth : Nat :=
  250

/-- The expression that a text writes; none if it writes none, or one that is too deep or too
large. -/
def ofSource? (source : String) : Option Regex := do
  let ⟨r, depth⟩ ← readPieces? source.length ⟨⟨{}, none, [], [], false⟩, [], 1, []⟩ source.toList
  if depth ≤ maxDepth && r.fits then some r else none

/-- A literal text as the source of an expression. -/
def escapeSource (text : List Char) : String :=
  String.ofList (text.flatMap fun c => if isMeta c then ['\\', c] else [c])

end Regex

end ShaderAssist
