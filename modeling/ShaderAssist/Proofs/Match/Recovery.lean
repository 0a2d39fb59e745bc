import ShaderAssist.Match.Matcher
import ShaderAssist.Proofs.Match.Nodes
import ShaderAssist.Proofs.Text.LineEnds
import ShaderAssist.Proofs.Text.Positions

/-!
# Skipping a line by its number

A line that nothing explains is skipped from the furthest attempt on. The line is looked up in the document: its
number is in the position of the furthest attempt, its end is the position behind its content, and the next line
starts at column zero. No lookup fails (`skipLine?_eq`), so what is skipped is what stands up to the next line feed
(`skipLine_eq`).

The end of the content lies before the furthest attempt if the attempt came over the carriage return at the end
of the line; then the skipped line ends with the attempt.
-/

namespace ShaderAssist

namespace Document

/-! ### Lengths of lines -/

theorem dropReturn_append (line : List Char) :
    ∃ tail, line = dropReturn line ++ tail ∧ (tail = [] ∨ tail = ['\r']) := by
  refine ⟨lineReturn line, (dropReturn_append_lineReturn line).symm, ?_⟩
  unfold lineReturn
  split
  · exact Or.inr rfl
  · exact Or.inl rfl

theorem byteLength_dropReturn_le (line : List Char) : byteLength (dropReturn line) ≤ byteLength line := by
  obtain ⟨tail, htail, -⟩ := dropReturn_append line
  have hlength := congrArg byteLength htail
  rw [byteLength_append] at hlength
  omega

/-- The content of a line ends behind a part of it, or the part has the carriage return as well. -/
theorem max_byteLength_dropReturn (a b : List Char) :
    max (byteLength (dropReturn (a ++ b))) (byteLength a) = byteLength a + byteLength (dropReturn b) := by
  rcases eq_or_ne b [] with rfl | hb
  · have hle := byteLength_dropReturn_le a
    have hnil : byteLength (dropReturn []) = 0 := rfl
    rw [List.append_nil]
    omega
  · rw [dropReturn_append_of_ne_nil hb, byteLength_append]
    omega

/-- The characters up to the next line feed, and whether there is one. -/
def restOfLine : List Char → List Char × Bool
  | [] => ([], false)
  | c :: cs =>
    if c = '\n' then ([], true) else let (line, ended) := restOfLine cs; (c :: line, ended)

theorem restOfLine_append : ∀ cs : List Char,
    (∃ rest, restOfLine cs = ((restOfLine cs).1, true) ∧ cs = (restOfLine cs).1 ++ '\n' :: rest) ∨
      restOfLine cs = (cs, false)
  | [] => Or.inr rfl
  | c :: cs => by
    rw [restOfLine]
    split_ifs with hc
    · exact Or.inl ⟨cs, rfl, by rw [hc]; rfl⟩
    · rcases restOfLine_append cs with ⟨rest, h1, h2⟩ | h
      · refine Or.inl ⟨rest, ?_, ?_⟩
        · rw [h1]
        · rw [List.cons_append, ← h2]
      · rw [h]
        exact Or.inr rfl

theorem restOfLine_append_of_not_mem {line : List Char} (h : '\n' ∉ line) {rest : List Char}
    (hrest : AtLineEnd rest) : restOfLine (line ++ rest) = (line, !rest.isEmpty) := by
  induction line with
  | nil =>
    rcases hrest with rfl | ⟨rest, rfl⟩
    · rfl
    · rw [List.nil_append, restOfLine, if_pos rfl]
      rfl
  | cons c line ih =>
    rw [List.mem_cons, not_or] at h
    rw [List.cons_append, restOfLine, if_neg (Ne.symm h.1), ih h.2]

/-! ### Lines by their numbers -/

/-- The offset of the line after a line, if there is one. None if the lookup fails. -/
def lineAfter? (d : Document) (line : Nat) : Option (Option Nat) :=
  if line + 1 < d.lineCount then (d.offsetAt ⟨line + 1, 0⟩).toOption.map some else some none

variable {d : Document}

section Line
variable {i : Nat} {front line rest : List Char} (h : IsLine d.text i front line rest)
include h

theorem IsLine.lineEnd? : d.lineEnd? i = some (byteLength (front ++ dropReturn line)) := by
  have hcontent : d.lineAt i = some (dropReturn line) := by
    unfold lineAt lines
    rw [h.take_splitLines.1]
    rfl
  have hoffset : d.offsetAt ⟨i, (dropReturn line).length⟩ = .ok (byteLength (front ++ dropReturn line)) := by
    rw [offsetAt_of_isLine h, if_pos (Nat.le_refl _), List.take_length]
  unfold Document.lineEnd?
  rw [hcontent, Option.bind_eq_bind, Option.bind_some, hoffset]
  rfl

theorem IsLine.lineCount_eq : d.lineCount = i + rest.count '\n' + 1 := by
  have hline : line.count '\n' = 0 := List.count_eq_zero.mpr h.feedless
  unfold lineCount lines
  rw [length_splitLines, h.text_eq, List.count_append, List.count_append, h.count, hline, Nat.zero_add]

/-- The next line starts behind the line feed. -/
theorem IsLine.offsetAt_next {next : List Char} (hnext : rest = '\n' :: next) :
    d.offsetAt ⟨i + 1, 0⟩ = .ok (byteLength (front ++ line) + 1) := by
  obtain ⟨line', rest', hrest, hline', hrest'⟩ := exists_lineEnd next
  have hline : line.count '\n' = 0 := List.count_eq_zero.mpr h.feedless
  have hfeed : byteLength ['\n'] = 1 := rfl
  have hisLine : IsLine d.text (i + 1) (front ++ line ++ ['\n']) line' rest' := by
    refine ⟨?_, Or.inr ⟨_, rfl⟩, ?_, hline', hrest'⟩
    · rw [h.text_eq, hnext, hrest]
      simp
    · rw [List.count_append, List.count_append, h.count, hline]
      rfl
  rw [offsetAt_of_isLine hisLine, if_pos (Nat.zero_le _), List.take_zero, List.append_nil,
    byteLength_append _ ['\n'], hfeed]

theorem IsLine.lineAfter? : d.lineAfter? i =
    some (if rest.isEmpty then none else some (byteLength (front ++ line) + 1)) := by
  have hcount := h.lineCount_eq
  unfold Document.lineAfter?
  rcases h.ends with hrest | ⟨next, hrest⟩
  · rw [hrest, List.count_nil] at hcount
    rw [if_neg (by omega), hrest]
    rfl
  · rw [hrest, List.count_cons_self] at hcount
    rw [if_pos (by omega), h.offsetAt_next hrest, hrest]
    rfl

end Line

/-- **The line of a boundary**: `a` stands before the boundary and `b` behind it, up to the next line feed. -/
theorem RestAt.exists_isLine {o : Nat} {cs : List Char} (h : d.RestAt o cs) :
    ∃ front a b rest, IsLine d.text (d.positionAt o).line front (a ++ b) rest ∧
      o = byteLength (front ++ a) ∧ restOfLine cs = (b, !rest.isEmpty) := by
  obtain ⟨before, htext, rfl⟩ := h
  obtain ⟨front, a, rfl, hfront, ha⟩ := exists_lineStart before
  obtain ⟨b, rest, rfl, hb, hrest⟩ := exists_lineEnd cs
  refine ⟨front, a, b, rest, ⟨?_, hfront, ?_, ?_, hrest⟩, rfl, restOfLine_append_of_not_mem hb hrest⟩
  · rw [htext]
    simp
  · rw [positionAt_byteLength htext, endOf_append hfront ha]
  · simp [ha, hb]

end Document

namespace Matcher

variable {m : Matcher} {o : Nat} {attempts : List Match}

/-- Skips a line by its number: the line on which the furthest of the failed attempts ended is looked up in the
document. None if a lookup fails. -/
def skipLine? (m : Matcher) (o : Nat) (attempts : List Match) : Option (Match × Option Nat) := do
  let furthest := Match.furthest o attempts
  let line := (m.document.positionAt furthest).line
  let stop ← m.document.lineEnd? line
  let next ← m.document.lineAfter? line
  some ((Match.ofChildren none .unmatchedText o attempts).withRange o (max stop furthest),
    next.filter (o < ·))

/-- What is skipped if no lookup fails. -/
theorem skipLine_of_lookups {stop : Nat} {next : Option Nat}
    (hstop : m.document.lineEnd? (m.document.positionAt (Match.furthest o attempts)).line = some stop)
    (hnext : m.document.lineAfter? (m.document.positionAt (Match.furthest o attempts)).line = some next) :
    m.skipLine o attempts = ((Match.ofChildren none .unmatchedText o attempts).withRange o
      (max stop (Match.furthest o attempts)), next.filter (o < ·)) := by
  unfold skipLine
  dsimp only
  rw [hstop, Option.getD_some]
  unfold Document.lineAfter? at hnext
  split_ifs at hnext ⊢
  · obtain ⟨n, hn, rfl⟩ := Option.map_eq_some_iff.mp hnext
    rw [hn]
  · obtain rfl := Option.some.inj hnext
    rfl

/-- **No lookup fails** when a line is skipped by its number. -/
theorem skipLine?_eq (h : m.document.IsBoundary (Match.furthest o attempts)) :
    m.skipLine? o attempts = some (m.skipLine o attempts) := by
  obtain ⟨cs, hcs⟩ := h
  obtain ⟨front, a, b, rest, hline, -, -⟩ := hcs.exists_isLine
  unfold skipLine?
  simp only [hline.lineEnd?, hline.lineAfter?, Option.bind_eq_bind, Option.bind_some,
    skipLine_of_lookups hline.lineEnd? hline.lineAfter?]

/-- **What is skipped** is what stands up to the next line feed. -/
theorem skipLine_eq {cs : List Char} (h : m.document.RestAt (Match.furthest o attempts) cs) :
    m.skipLine o attempts = ((Match.ofChildren none .unmatchedText o attempts).withRange o
      (Match.furthest o attempts + byteLength (Document.dropReturn (Document.restOfLine cs).1)),
      if (Document.restOfLine cs).2 then
        some (Match.furthest o attempts + byteLength (Document.restOfLine cs).1 + 1) else none) := by
  obtain ⟨front, a, b, rest, hline, hfurthest, hrest⟩ := h.exists_isLine
  have hle := Match.le_furthest attempts o
  have hend := Document.max_byteLength_dropReturn a b
  rw [byteLength_append] at hfurthest
  have hstop : max (byteLength (front ++ Document.dropReturn (a ++ b))) (Match.furthest o attempts) =
      Match.furthest o attempts + byteLength (Document.dropReturn b) := by
    rw [byteLength_append]
    omega
  have hnext : byteLength (front ++ (a ++ b)) + 1 = Match.furthest o attempts + byteLength b + 1 := by
    rw [byteLength_append, byteLength_append]
    omega
  have hafter : o < Match.furthest o attempts + byteLength b + 1 := by omega
  rw [skipLine_of_lookups hline.lineEnd? hline.lineAfter?, hstop, hnext, hrest]
  cases rest with
  | nil => rfl
  | cons c rest =>
    have hfilter : (some (Match.furthest o attempts + byteLength b + 1)).filter (decide <| o < ·) =
        some (Match.furthest o attempts + byteLength b + 1) :=
      Option.filter_some_pos (decide_eq_true hafter)
    simp only [List.isEmpty_cons, Bool.false_eq_true, if_false, Bool.not_false, if_true, hfilter]

end Matcher

end ShaderAssist
