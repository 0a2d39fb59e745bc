import ShaderAssist.Pattern.Element

/-!
# Reading patterns

`readElements` turns the written form of a pattern into its elements. It goes from left to right; the
elements around an optional part wait on a stack until its bracket closes. The first fault on the way
is the error.
-/

namespace ShaderAssist

namespace Pattern

/-- Reads the rest of a name up to the character `close`, and answers with what follows. -/
def readName (close : Char) : List Char → Except PatternError (List Char × List Char)
  | [] => .error (.missing close)
  | ['\\'] => .error .danglingEscape
  | '\\' :: c :: cs => (readName close cs).map fun r => (c :: r.1, r.2)
  | c :: cs =>
    if c = close then .ok ([], cs) else (readName close cs).map fun r => (c :: r.1, r.2)

/-- Reads the rest of a regular expression up to its slash, and answers with what follows. An escaped
slash stands for a slash; every other escape is kept for the expression. -/
def readRegex : List Char → Except PatternError (List Char × List Char)
  | [] => .error .unclosedRegex
  | ['\\'] => .error .danglingEscape
  | '\\' :: '/' :: cs => (readRegex cs).map fun r => ('/' :: r.1, r.2)
  | '\\' :: c :: cs => (readRegex cs).map fun r => ('\\' :: c :: r.1, r.2)
  | '/' :: cs => .ok ([], cs)
  | c :: cs => (readRegex cs).map fun r => (c :: r.1, r.2)

/-- The elements read so far, the last one first, with the word that was just read. -/
def flush (word : List Char) (done : List Element) : List Element :=
  if word.isEmpty then done else .text (String.ofList word.reverse) :: done

/-- The elements read so far after some space: runs of space count once. -/
def addSpace (done : List Element) : List Element :=
  match done with
  | .space :: _ => done
  | _ => .space :: done

/-- The text without the three points at its end. -/
def stripDots? (text : String) : Option String :=
  match text.toList.reverse with
  | '.' :: '.' :: '.' :: cs => some (String.ofList cs.reverse)
  | _ => none

/-- The optional part with the given elements, the last one first. Space at its end does not count,
and three points at the end of its last word make it repeatable. -/
def closeOptional (done : List Element) : Except PatternError Element :=
  let finish := fun (done : List Element) (repeats : Bool) =>
    if done.isEmpty then .error .emptyOptional else .ok (.optional done.reverse repeats)
  match done.dropWhile Element.isSpace with
  | .text text :: before =>
    match stripDots? text with
    | some "" => finish (before.dropWhile Element.isSpace) true
    | some stripped => finish (.text stripped :: before) true
    | none => finish (.text text :: before) false
  | done => finish done false

/-- What follows a reading does not change when the reading itself is mapped. -/
theorem exists_of_map_fst {x : Except PatternError (List Char × List Char)}
    {f : List Char → List Char} {r : List Char × List Char}
    (h : (x.map fun r => (f r.1, r.2)) = .ok r) : ∃ s, x = .ok s ∧ r.2 = s.2 := by
  cases x with
  | error e => simp [Except.map] at h
  | ok s => simp only [Except.map, Except.ok.injEq] at h; exact ⟨s, rfl, by rw [← h]⟩

theorem readName_length {close : Char} {cs : List Char} {r : List Char × List Char}
    (h : readName close cs = .ok r) : r.2.length < cs.length := by
  fun_induction readName close cs generalizing r with
  | case1 => simp at h
  | case2 => simp at h
  | case3 c cs ih =>
    obtain ⟨s, hs, hr⟩ := exists_of_map_fst h
    have := ih hs
    simp [hr]; omega
  | case4 cs => simp only [Except.ok.injEq] at h; subst h; simp
  | case5 c cs _ _ _ ih =>
    obtain ⟨s, hs, hr⟩ := exists_of_map_fst h
    have := ih hs
    simp [hr]; omega

theorem readRegex_length {cs : List Char} {r : List Char × List Char}
    (h : readRegex cs = .ok r) : r.2.length < cs.length := by
  fun_induction readRegex cs generalizing r with
  | case1 => simp at h
  | case2 => simp at h
  | case3 cs ih =>
    obtain ⟨s, hs, hr⟩ := exists_of_map_fst h
    have := ih hs
    simp [hr]; omega
  | case4 c cs _ ih =>
    obtain ⟨s, hs, hr⟩ := exists_of_map_fst (f := fun t => '\\' :: c :: t) h
    have := ih hs
    simp [hr]; omega
  | case5 cs => simp only [Except.ok.injEq] at h; subst h; simp
  | case6 c cs _ _ _ _ ih =>
    obtain ⟨s, hs, hr⟩ := exists_of_map_fst h
    have := ih hs
    simp [hr]; omega

/-- Reads elements to the end of the text. `outer` holds the elements around every open bracket,
`done` those since the innermost one, and `word` the characters of a word under way, all of them the
last one first. -/
def readFrom (outer : List (List Element)) (done : List Element) (word : List Char)
    (cs : List Char) : Except PatternError (List Element) :=
  match cs with
  | [] => if outer.isEmpty then .ok (flush word done).reverse else .error .unclosedBracket
  | ['\\'] => .error .danglingEscape
  | '\\' :: c :: cs => readFrom outer done (c :: word) cs
  | '<' :: cs =>
    match h : readName '>' cs with
    | .error e => .error e
    | .ok (name, rest) =>
      have := readName_length h
      if name.isEmpty then .error .emptyReference
      else readFrom outer (.reference (String.ofList name) :: flush word done) [] rest
  | '\x7b' :: cs =>
    match h : readName '\x7d' cs with
    | .error e => .error e
    | .ok (name, rest) =>
      have := readName_length h
      if name.isEmpty then .error .emptyReference
      else readFrom outer (.scope (String.ofList name) :: flush word done) [] rest
  | '/' :: cs =>
    match h : readRegex cs with
    | .error e => .error e
    | .ok (source, rest) =>
      have := readRegex_length h
      if source.isEmpty then .error .emptyRegex
      else readFrom outer (.regex (String.ofList source) :: flush word done) [] rest
  | '[' :: cs => readFrom (flush word done :: outer) [] [] cs
  | ']' :: cs =>
    match outer with
    | [] => .error (.unexpected ']')
    | around :: outer =>
      match closeOptional (flush word done) with
      | .error e => .error e
      | .ok element => readFrom outer (element :: around) [] cs
  | c :: cs =>
    if c = ' ' || c = '\t' then readFrom outer (addSpace (flush word done)) [] cs
    else if c = '>' || c = '\x7d' then .error (.unexpected c)
    else readFrom outer done (c :: word) cs
termination_by cs.length
decreasing_by all_goals simp_all <;> omega

/-- The elements of a pattern. -/
def readElements (source : String) : Except PatternError (List Element) :=
  match readFrom [] [] [] source.toList with
  | .ok [] => .error .emptyPattern
  | result => result

end Pattern

end ShaderAssist
