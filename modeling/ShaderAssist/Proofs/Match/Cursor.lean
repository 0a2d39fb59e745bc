import ShaderAssist.Proofs.Match.Recovery

/-!
# Moves of the cursor

What moves the cursor without trying an item: passing over blanks and comments, a word that was found,
and the skip of a line. Each of them leads from a boundary to a boundary further on.
-/

namespace ShaderAssist

/-! ### Words -/

theorem Document.RestAt.isBoundary_add {d : Document} {o n : Nat} {cs : List Char}
    (h : d.RestAt o cs) (hn : IsPrefixLength cs n) : d.IsBoundary (o + n) := by
  obtain ⟨word, rest, rfl, rfl⟩ := hn
  exact h.advance.isBoundary

namespace Keyword

theorem split?_eq_some (k : Keyword) : ∀ {text document found rest : List Char},
    k.split? text document = some (found, rest) → document = found ++ rest
  | [], document, found, rest, h => by
    rw [split?, Option.some.injEq, Prod.mk.injEq] at h
    rw [← h.1, ← h.2]
    rfl
  | _ :: _, [], found, rest, h => by simp [split?] at h
  | c :: text, e :: document, found, rest, h => by
    rw [split?] at h
    split_ifs at h
    obtain ⟨⟨found', rest'⟩, hs, he⟩ := Option.map_eq_some_iff.mp h
    obtain ⟨rfl, rfl⟩ := Prod.mk.inj he
    rw [split?_eq_some k hs]
    rfl

theorem isPrefixLength_of_matchLength? {k : Keyword} {s : Slice} {n : Nat}
    (h : k.matchLength? s = some n) : IsPrefixLength s.chars n := by
  unfold matchLength? at h
  obtain ⟨⟨found, rest⟩, hs, h⟩ := Option.bind_eq_some_iff.mp h
  dsimp only at h
  split_ifs at h
  exact ⟨found, rest, split?_eq_some k hs, (Option.some.inj h).symm⟩

end Keyword

namespace Matcher

variable {m : Matcher} {o : Nat}

/-- **Passing over blanks and comments.** -/
theorem passes_skip (ho : m.document.IsBoundary o) (crossLine : Bool) :
    m.document.Passes o (m.skip o crossLine) := by
  obtain ⟨cs, hcs⟩ := ho
  obtain ⟨gap, rest, rfl, hl, hp, -⟩ := triviaLength_split crossLine cs
  have hskip : m.skip o crossLine = o + byteLength gap := by
    unfold skip
    rw [hcs.sliceAt, ← hl]
    rfl
  rw [hskip]
  exact ⟨gap ++ rest, rest, hcs, hcs.advance, hp⟩

/-! ### Lines -/

/-- A carriage return that ends a line is passed over. -/
theorem passes_return {tail rest : List Char} (h : tail = [] ∨ tail = ['\r']) :
    Passes (tail ++ rest) rest := by
  rcases h with rfl | rfl
  · exact .refl
  · exact .single (passesPiece_blank (by decide) rest)

/-- Where a skipped line lies: it starts at the cursor and comes at least as far as the attempts
on it, and from its end only the end of the line leads to the next line, or to the end of the text
if there is none. -/
structure SkippedLine (m : Matcher) (o : Nat) (attempts : List Match) (line : Match)
    (next : Option Nat) : Prop where
  line_eq : line = (Match.ofChildren none .unmatchedText o attempts).withRange o line.stop
  furthest_le : Match.furthest o attempts ≤ line.stop
  stop : m.document.IsBoundary line.stop
  leads : ∀ n ∈ next, line.stop < n ∧ m.document.Passes line.stop n
  ends : next = none → m.document.Passes line.stop m.document.size

/-- A skipped line is the content of a line up to its end, with a carriage return or without. -/
theorem skipLine_cases {attempts : List Match} {cs : List Char}
    (h : m.document.RestAt (Match.furthest o attempts) cs) :
    ∃ content tail, (tail = [] ∨ tail = ['\r']) ∧
      (m.skipLine o attempts).1 = (Match.ofChildren none .unmatchedText o attempts).withRange o
        (Match.furthest o attempts + byteLength content) ∧
      ((∃ rest, cs = content ++ (tail ++ ['\n'] ++ rest) ∧ (m.skipLine o attempts).2 =
          some (Match.furthest o attempts + byteLength content + byteLength (tail ++ ['\n']))) ∨
        (cs = content ++ tail ∧ (m.skipLine o attempts).2 = none)) := by
  obtain ⟨tail, htail, hr⟩ := Document.dropReturn_append (Document.restOfLine cs).1
  rw [skipLine_eq h]
  refine ⟨Document.dropReturn (Document.restOfLine cs).1, tail, hr, rfl, ?_⟩
  rcases Document.restOfLine_append cs with ⟨rest, he, hcs⟩ | he
  · refine Or.inl ⟨rest, ?_, ?_⟩
    · rw [List.append_assoc, ← List.append_assoc, ← htail]
      exact hcs
    · have hlen : byteLength (Document.restOfLine cs).1 =
          byteLength (Document.dropReturn (Document.restOfLine cs).1) + byteLength tail := by
        rw [← byteLength_append, ← htail]
      have hfeed : byteLength (tail ++ ['\n']) = byteLength tail + 1 := by
        rw [byteLength_append]
        rfl
      have hended : (Document.restOfLine cs).2 = true := by rw [he]
      rw [if_pos hended, hfeed, hlen, Option.some.injEq]
      omega
  · refine Or.inr ⟨?_, ?_⟩
    · rw [← htail, he]
    · rw [he]
      rfl

/-- **The skip of a line.** -/
theorem skippedLine_skipLine {attempts : List Match}
    (hf : m.document.IsBoundary (Match.furthest o attempts)) :
    m.SkippedLine o attempts (m.skipLine o attempts).1 (m.skipLine o attempts).2 := by
  obtain ⟨cs, hcs⟩ := hf
  obtain ⟨content, tail, hr, hline, hnext⟩ := skipLine_cases hcs
  have hstop : (m.skipLine o attempts).1.stop = Match.furthest o attempts + byteLength content := by
    rw [hline, Match.stop_withRange]
  have hle : Match.furthest o attempts ≤ (m.skipLine o attempts).1.stop := by
    rw [hstop]
    exact Nat.le_add_right _ _
  rw [← hstop] at hline hnext
  rcases hnext with ⟨rest, rfl, hnext⟩ | ⟨rfl, hnext⟩
  · have hrest : m.document.RestAt (m.skipLine o attempts).1.stop (tail ++ ['\n'] ++ rest) := by
      rw [hstop]
      exact hcs.advance
    have hpasses : Passes (tail ++ ['\n'] ++ rest) rest := by
      rw [List.append_assoc]
      exact (passes_return hr).trans (.single (passesPiece_blank (by decide) rest))
    refine ⟨hline, hle, hrest.isBoundary, fun n hn => ?_, fun h => ?_⟩
    · rw [hnext, Option.mem_some_iff] at hn
      subst hn
      refine ⟨Nat.lt_add_of_pos_right (byteLength_pos ?_), _, _, hrest, hrest.advance, hpasses⟩
      simp
    · rw [hnext] at h
      cases h
  · have hrest : m.document.RestAt (m.skipLine o attempts).1.stop (tail ++ []) := by
      rw [hstop, List.append_nil]
      exact hcs.advance
    refine ⟨hline, hle, hrest.isBoundary, fun n hn => ?_, fun _ => ?_⟩
    · rw [hnext] at hn
      cases hn
    · exact ⟨_, [], hrest, m.document.restAt_size, passes_return hr⟩

end Matcher

end ShaderAssist
