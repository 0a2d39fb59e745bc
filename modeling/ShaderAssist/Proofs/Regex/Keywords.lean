import ShaderAssist.Proofs.Grammar.Building
import ShaderAssist.Proofs.Match.Cursor
import ShaderAssist.Proofs.Regex.Literal

/-!
# Where keywords match

A keyword is looked for directly, character by character, and the boundary of a word is asked for behind it.
It can be used only if its regular expression can, and that expression finds the same: its program is a chain
of instructions, one for each character (`Program.Reads`), between the start of the text and the boundary
(`Keyword.program_source`). So no character of the keyword has a meaning of its own.

With regard to case, a keyword matches where the text starts with it and, if it ends like a word, the boundary
of a word follows. For a last character that is a word character, this means that no word character may follow.
But an alphanumeric character need not be a word character; behind one that is not, the boundary asks for a word
character to follow (`Compile.text_matches_literally`).
-/

namespace ShaderAssist

theorem CharSet.contains_single {c d : Char} : (CharSet.single c).contains d ↔ c = d := by
  unfold contains single range
  simp only [inRanges, Bool.or_false]
  constructor
  · intro h
    split at h
    · cases h
    · refine Char.toNat_inj.mp ?_
      have := of_decide_eq_true h
      omega
  · rintro rfl
    simp

namespace Program

/-! ### Single instructions -/

section Instructions
variable {p : Program} {i next : Nat}

theorem seen_of_code {x : Instruction} (h : p.code[i]? = some x) :
    (Array.replicate p.code.size false)[i]? = some false := by
  obtain ⟨hi, -⟩ := Array.getElem?_eq_some_iff.mp h
  rw [Array.getElem?_replicate, if_pos hi]

/-- Following an instruction that was not followed before. -/
theorem front_singleton (p : Program) (spot : Spot) (i : Nat) : p.front spot [i] =
    p.advance spot (2 * p.code.size + 2) [i] (Array.replicate p.code.size false) [] := by
  unfold front
  rw [List.length_singleton, Nat.add_comm 1]

theorem front_take {s : CharSet} (h : p.code[i]? = some (.take s next)) (spot : Spot) :
    p.front spot [i] = ⟨[(s, next)], false⟩ := by
  rw [front_singleton, advance, seen_of_code h, h]
  rfl

theorem front_accept (h : p.code[i]? = some .accept) (spot : Spot) : p.front spot [i] = ⟨[], true⟩ := by
  rw [front_singleton, advance, seen_of_code h, h]
  rfl

/-- A condition before an instruction that reads or accepts. -/
theorem front_check {a : Assertion} {x : Instruction} (h : p.code[i]? = some (.check a next)) (hne : next ≠ i)
    (hx : p.code[next]? = some x) (hdirect : x = .accept ∨ ∃ s stop, x = .take s stop) (spot : Spot) :
    p.front spot [i] = if spot.satisfies a then p.front spot [next] else ⟨[], false⟩ := by
  have hseen : ((Array.replicate p.code.size false).setIfInBounds i true)[next]? = some false := by
    rw [Array.getElem?_setIfInBounds_ne (Ne.symm hne), seen_of_code hx]
  rw [front_singleton, advance, seen_of_code h, h]
  dsimp only
  split
  · rw [advance, hseen, hx]
    rcases hdirect with rfl | ⟨s, stop, rfl⟩
    · rw [front_accept hx]
      rfl
    · have hsize : 2 * p.code.size = 2 * p.code.size - 1 + 1 := by
        have := (Array.getElem?_eq_some_iff.mp hx).1
        omega
      rw [front_take hx, hsize]
      rfl
  · rfl

/-- Only the ways on from the first place matter. -/
theorem search_congr {before : Option Char} {cs : List Char} {pending pending' : List Nat}
    (h : p.front ⟨before, cs⟩ pending = p.front ⟨before, cs⟩ pending') (read : Nat) (best : Option Nat) :
    p.search before pending read best cs = p.search before pending' read best cs := by
  cases cs with
  | nil => rw [search, search, h]
  | cons c cs => rw [search, search, h]

/-- A way that cannot go on ends the search. -/
theorem search_of_front {before : Option Char} {cs : List Char} {accepted : Bool}
    (h : p.front ⟨before, cs⟩ [i] = ⟨[], accepted⟩) (read : Nat) :
    p.search before [i] read none cs = if accepted then some read else none := by
  cases cs with
  | nil => rw [search, h]
  | cons c cs =>
    rw [search, h]
    rfl

end Instructions

/-! ### Chains of instructions -/

/-- From an instruction on, a text is read character by character, up to another instruction. -/
def Reads (p : Program) : Nat → List Char → Nat → Prop
  | i, [], stop => i = stop
  | i, c :: text, stop => ∃ next, p.code[i]? = some (.take (.single c) next) ∧ p.Reads next text stop

/-- A chain finds its text. -/
theorem Reads.search_append {p : Program} {stop : Nat} (rest : List Char) : ∀ {text : List Char} {i : Nat},
    p.Reads i text stop → ∀ (before : Option Char) (read : Nat),
      p.search before [i] read none (text ++ rest) =
        p.search (text.getLast?.or before) [stop] (read + byteLength text) none rest
  | [], i, h, before, read => by
    cases h
    rfl
  | c :: text, i, ⟨next, hcode, hnext⟩, before, read => by
    have hlast : ((c :: text).getLast?).or before = text.getLast?.or (some c) := by
      cases text with
      | nil => rfl
      | cons d text => rw [List.getLast?_cons_cons, List.getLast?_cons]; rfl
    rw [List.cons_append, search, front_take hcode]
    simp only [Front.after, List.filterMap_cons, CharSet.contains_single.mpr rfl, List.filterMap_nil, if_true,
      Bool.false_eq_true, if_false]
    rw [hnext.search_append rest, hlast, byteLength_cons, Nat.add_assoc]

/-- A chain finds nothing but its text. -/
theorem Reads.search_eq_none {p : Program} {stop : Nat} : ∀ {text cs : List Char} {i : Nat},
    p.Reads i text stop → ¬ text <+: cs → ∀ (before : Option Char) (read : Nat),
      p.search before [i] read none cs = none
  | [], cs, i, _, hcs, _, _ => absurd List.nil_prefix hcs
  | c :: text, [], i, ⟨next, hcode, _⟩, _, before, read => by
    rw [search, front_take hcode]
    rfl
  | c :: text, d :: cs, i, ⟨next, hcode, hnext⟩, hcs, before, read => by
    rw [search, front_take hcode]
    by_cases hcd : c = d
    · subst hcd
      have htail : ¬ text <+: cs := fun h => hcs (List.cons_prefix_cons.mpr ⟨rfl, h⟩)
      simp only [Front.after, List.filterMap_cons, CharSet.contains_single.mpr rfl, List.filterMap_nil, if_true,
        Bool.false_eq_true, if_false]
      exact hnext.search_eq_none htail _ _
    · have hset : (CharSet.single c).contains d = false := by
        rw [← Bool.not_eq_true, CharSet.contains_single]
        exact hcd
      simp [Front.after, hset]

/-! ### Laying out a chain -/

/-- The instructions of a program are also those of another one. -/
def Extends (q p : Program) : Prop :=
  ∀ (i : Nat) (x : Instruction), p.code[i]? = some x → q.code[i]? = some x

theorem Extends.trans {p q r : Program} (hr : r.Extends q) (hq : q.Extends p) : r.Extends p :=
  fun i x h => hr i x (hq i x h)

theorem Reads.mono {p q : Program} {stop : Nat} (h : q.Extends p) : ∀ {text : List Char} {i : Nat},
    p.Reads i text stop → q.Reads i text stop
  | [], _, hr => hr
  | _ :: _, _, ⟨next, hcode, hnext⟩ => ⟨next, h _ _ hcode, hnext.mono h⟩

theorem extends_push (p : Program) (x : Instruction) : (p.push x).Extends p := by
  intro i y h
  obtain ⟨hi, -⟩ := Array.getElem?_eq_some_iff.mp h
  have hcode : (p.push x).code = p.code.push x := rfl
  rw [hcode, Array.getElem?_push, if_neg (Nat.ne_of_lt hi)]
  exact h

theorem code_push_start (p : Program) (x : Instruction) : (p.push x).code[(p.push x).start]? = some x := by
  have hcode : (p.push x).code[(p.push x).start]? = (p.code.push x)[p.code.size]? := rfl
  rw [hcode, Array.getElem?_push_size]

/-- A literal text is laid out as a chain in front of the program. -/
theorem reads_layOut_literal (p : Program) : ∀ text : List Char,
    ((Regex.literal text).layOut p).Extends p ∧
      ((Regex.literal text).layOut p).Reads ((Regex.literal text).layOut p).start text p.start
  | [] => ⟨fun _ _ h => h, rfl⟩
  | c :: text => by
    obtain ⟨hextends, hreads⟩ := reads_layOut_literal p text
    have hstep : (Regex.literal (c :: text)).layOut p =
        ((Regex.literal text).layOut p).push (.take (.single c) ((Regex.literal text).layOut p).start) := rfl
    have hpush := extends_push ((Regex.literal text).layOut p)
      (.take (.single c) ((Regex.literal text).layOut p).start)
    rw [hstep]
    exact ⟨hpush.trans hextends, _, code_push_start _ _, hreads.mono hpush⟩

/-- **A literal text at the start of a slice**: behind it the search goes on with the program that follows. -/
theorem matchLength?_literal (p : Program) (c : Char) (text : List Char) (s : Slice) :
    (∀ rest, s.chars = c :: text ++ rest →
      (((Regex.literal (c :: text)).layOut p).pushCheck .textStart).matchLength? s =
        (((Regex.literal (c :: text)).layOut p).pushCheck .textStart).search ((c :: text).getLast?) [p.start]
          (byteLength (c :: text)) none rest) ∧
      (¬ c :: text <+: s.chars →
        (((Regex.literal (c :: text)).layOut p).pushCheck .textStart).matchLength? s = none) := by
  obtain ⟨-, hreads⟩ := reads_layOut_literal p (c :: text)
  generalize (Regex.literal (c :: text)).layOut p = q at hreads ⊢
  have hpush : (q.pushCheck .textStart).Extends q := extends_push q _
  have hlt : q.start < q.code.size := by
    obtain ⟨next, hcode, -⟩ := hreads
    exact (Array.getElem?_eq_some_iff.mp hcode).1
  replace hreads := hreads.mono hpush
  -- the condition at the start holds there, so that it leads on to the chain
  have hstart : (q.pushCheck .textStart).matchLength? s =
      (q.pushCheck .textStart).search none [q.start] 0 none s.chars := by
    obtain ⟨next, hcode, -⟩ := hreads
    refine search_congr ?_ 0 none
    exact front_check (code_push_start q _) (Nat.ne_of_lt hlt) hcode (Or.inr ⟨_, _, rfl⟩) ⟨none, s.chars⟩
  rw [hstart]
  refine ⟨fun rest hrest => ?_, fun hs => hreads.search_eq_none hs none 0⟩
  rw [hrest, hreads.search_append rest, Nat.zero_add, Option.or_none]

end Program

namespace Keyword

/-! ### Keywords with regard to case -/

variable {text cs rest : List Char} {s : Slice} {n : Nat}

theorem split?_append (k : Keyword) (hk : k.ignoreCase = false) (rest : List Char) :
    ∀ text : List Char, k.split? text (text ++ rest) = some (text, rest)
  | [] => rfl
  | c :: text => by
    have hagrees : k.agrees c c := by simp [agrees, hk]
    rw [List.cons_append, split?, if_pos hagrees, split?_append k hk rest text]
    rfl

theorem eq_of_split? (k : Keyword) (hk : k.ignoreCase = false) : ∀ {text cs found rest : List Char},
    k.split? text cs = some (found, rest) → found = text
  | [], cs, found, rest, h => by
    rw [split?, Option.some.injEq, Prod.mk.injEq] at h
    exact h.1.symm
  | _ :: _, [], found, rest, h => by cases h
  | c :: text, d :: cs, found, rest, h => by
    rw [split?] at h
    split at h
    · next hagrees =>
      obtain ⟨⟨found', rest'⟩, hs, he⟩ := Option.map_eq_some_iff.mp h
      obtain ⟨rfl, rfl⟩ := Prod.mk.inj he
      have hcd : c = d := by simpa [agrees, hk] using hagrees
      rw [eq_of_split? k hk hs, hcd]
    · cases h

/-- Whether the boundary of a word stands behind a keyword, in front of a text. -/
def boundaryBefore (k : Keyword) (rest : List Char) : Bool :=
  k.text.getLast?.any isWordChar != rest.head?.any isWordChar

/-- Where a text starts with a keyword, the boundary decides. -/
theorem matchLength?_append (h : s.chars = text ++ rest) : matchLength? ⟨text, false⟩ s =
    if endsLikeWord ⟨text, false⟩ && !boundaryBefore ⟨text, false⟩ rest then none
    else some (byteLength text) := by
  unfold matchLength? boundaryBefore bne
  rw [h, split?_append _ rfl rest text, Bool.not_not]
  rfl

/-- A keyword matches only where the text starts with it. -/
theorem matchLength?_eq_none (h : ¬ text <+: s.chars) : matchLength? ⟨text, false⟩ s = none := by
  unfold matchLength?
  cases hs : split? ⟨text, false⟩ text s.chars with
  | none => rfl
  | some r =>
    obtain ⟨found, rest⟩ := r
    obtain rfl := eq_of_split? _ rfl hs
    exact absurd ⟨rest, (split?_eq_some _ hs).symm⟩ h

/-- **Where a keyword matches** with regard to case. -/
theorem matchLength?_eq_some_iff : matchLength? ⟨text, false⟩ s = some n ↔
    n = byteLength text ∧ ∃ rest, s.chars = text ++ rest ∧
      (endsLikeWord ⟨text, false⟩ → boundaryBefore ⟨text, false⟩ rest) := by
  by_cases hs : text <+: s.chars
  · obtain ⟨rest, hrest⟩ := hs
    rw [matchLength?_append hrest.symm]
    have hunique : ∀ rest', s.chars = text ++ rest' ↔ rest' = rest := by
      intro rest'
      rw [← hrest, List.append_cancel_left_eq, eq_comm]
    simp only [hunique, exists_eq_left]
    cases endsLikeWord ⟨text, false⟩ <;> cases boundaryBefore ⟨text, false⟩ rest <;> simp [eq_comm]
  · rw [matchLength?_eq_none hs]
    constructor
    · exact fun h => absurd h.symm (Option.some_ne_none n)
    · rintro ⟨-, rest, hrest, -⟩
      exact absurd ⟨rest, hrest.symm⟩ hs

/-! ### The regular expression of a keyword -/

open Regex Program

/-- The expression that the source of a keyword writes. -/
theorem eq_concat_of_ofSource? {k : Keyword} {r : Regex} (h : ofSource? k.source = some r) :
    r = concat k.pieces := by
  obtain ⟨depth, -, hread⟩ := readPieces?_source k
  unfold ofSource? at h
  rw [hread] at h
  simp only [Option.bind_eq_bind, Option.bind_some] at h
  split at h
  · exact (Option.some.inj h).symm
  · cases h

/-- The program that follows the text of a keyword. -/
def boundaryProgram (k : Keyword) : Program :=
  if k.endsLikeWord then accepting.pushCheck .wordBoundary else accepting

/-- The program of a keyword is a chain between the start of the text and the boundary. -/
theorem program_concat_pieces (c : Char) (text : List Char) : (concat (pieces ⟨c :: text, false⟩)).program =
    ((literal (c :: text)).layOut (boundaryProgram ⟨c :: text, false⟩)).pushCheck .textStart := by
  rw [concat_pieces, boundary, boundaryProgram]
  cases endsLikeWord ⟨c :: text, false⟩ <;> rfl

/-- Behind the text of a keyword, its program asks for the boundary. -/
theorem search_boundaryProgram {k : Keyword} {q : Program} (hq : q.Extends k.boundaryProgram) (rest : List Char)
    (read : Nat) : q.search k.text.getLast? [k.boundaryProgram.start] read none rest =
      if k.endsLikeWord && !k.boundaryBefore rest then none else some read := by
  unfold boundaryProgram at hq ⊢
  cases hword : k.endsLikeWord with
  | false =>
    rw [hword] at hq
    exact search_of_front (front_accept (hq 0 .accept rfl) _) read
  | true =>
    rw [hword] at hq
    have hcheck : q.front ⟨k.text.getLast?, rest⟩ [1] = ⟨[], k.boundaryBefore rest⟩ := by
      rw [front_check (hq 1 (.check .wordBoundary 0) rfl) Nat.zero_ne_one (hq 0 .accept rfl) (Or.inl rfl),
        front_accept (hq 0 .accept rfl)]
      change (if k.boundaryBefore rest then _ else _) = _
      cases k.boundaryBefore rest <;> rfl
    refine (search_of_front hcheck read).trans ?_
    cases k.boundaryBefore rest <;> rfl

/-- **The regular expression of a keyword finds the keyword**, where the keyword itself is found. -/
theorem program_source {r : Regex} (hne : text ≠ []) (h : ofSource? (source ⟨text, false⟩) = some r) (s : Slice) :
    r.program.matchLength? s = matchLength? ⟨text, false⟩ s := by
  obtain ⟨c, text, rfl⟩ := List.exists_cons_of_ne_nil hne
  obtain rfl := eq_concat_of_ofSource? h
  obtain ⟨hextends, -⟩ := reads_layOut_literal (boundaryProgram ⟨c :: text, false⟩) (c :: text)
  obtain ⟨hfound, hnone⟩ := matchLength?_literal (boundaryProgram ⟨c :: text, false⟩) c text s
  rw [program_concat_pieces]
  by_cases hs : c :: text <+: s.chars
  · obtain ⟨rest, hrest⟩ := hs
    rw [matchLength?_append hrest.symm, hfound rest hrest.symm]
    exact search_boundaryProgram ((extends_push _ _).trans hextends) rest _
  · rw [matchLength?_eq_none hs, hnone hs]

/-! ### What may follow a keyword -/

/-- A text does not go on with a word character. -/
def EndsWord (rest : List Char) : Prop :=
  ∀ c ∈ rest.head?, ¬ isWordChar c

/-- A text goes on with a word character. -/
def StartsWord (rest : List Char) : Prop :=
  ∃ c ∈ rest.head?, isWordChar c

/-- **A keyword matches literally:** where a text starts with it, and nothing but it; if it ends like a word,
what follows has to be admitted. -/
def MatchesBefore (k : Keyword) (Admits : List Char → Prop) : Prop :=
  ∀ s n, k.matchLength? s = some n ↔
    n = byteLength k.text ∧ ∃ rest, s.chars = k.text ++ rest ∧ (k.endsLikeWord → Admits rest)

/-- What the boundary of a word lets follow a text: no word character behind a word character, and else one. -/
def MayFollow (text rest : List Char) : Prop :=
  if text.getLast?.any isWordChar then EndsWord rest else StartsWord rest

theorem boundaryBefore_iff {k : Keyword} : k.boundaryBefore rest ↔ MayFollow k.text rest := by
  unfold boundaryBefore MayFollow EndsWord StartsWord
  cases rest with
  | nil => cases k.text.getLast?.any isWordChar <;> simp
  | cons c rest => cases k.text.getLast?.any isWordChar <;> cases hc : isWordChar c <;> simp [hc]

theorem matchesBefore_mayFollow (text : List Char) : MatchesBefore ⟨text, false⟩ (MayFollow text) := by
  intro s n
  rw [matchLength?_eq_some_iff]
  simp only [boundaryBefore_iff]

/-- A keyword is kept from starting a longer word exactly if it does not end like a word or its last character is
a word character. -/
theorem matchesBefore_endsWord_iff (text : List Char) : MatchesBefore ⟨text, false⟩ EndsWord ↔
    (endsLikeWord ⟨text, false⟩ → text.getLast?.any isWordChar) := by
  have hboundary := matchesBefore_mayFollow text
  constructor
  · intro h hword
    by_contra hlast
    -- nothing follows the keyword, which only one of the laws admits
    have hmatch : matchLength? ⟨text, false⟩ (.ofList text) = some (byteLength text) :=
      (h _ _).mpr ⟨rfl, [], (List.append_nil _).symm, fun _ c hc => by cases hc⟩
    obtain ⟨-, rest, hrest, hfollow⟩ := (hboundary _ _).mp hmatch
    have hnil : rest = [] := List.self_eq_append_right.mp hrest
    have hstarts := hfollow hword
    rw [MayFollow, if_neg hlast, hnil] at hstarts
    obtain ⟨c, hc, -⟩ := hstarts
    cases hc
  · intro hlast s n
    rw [hboundary s n]
    refine and_congr_right fun _ => exists_congr fun rest => and_congr_right fun _ => ?_
    refine forall_congr' fun hword => ?_
    rw [MayFollow, if_pos (hlast hword)]

end Keyword

namespace Compile

open Keyword

/-- **The item of a literal text** with regard to case finds what its regular expression finds: the text itself,
in which no character has a meaning of its own. If the text ends like a word, no word character may follow it if
its last character is a word character; but if that is alphanumeric only, a word character has to follow it. -/
theorem text_matches_literally {w : String} (hw : w ≠ "") {crossLine : Bool} {b b' : GrammarBuild} {id : ItemId}
    (h : (pushText .standard w false crossLine).run b = .ok (id, b')) :
    b'.items[id.index]? = some (.text ⟨w.toList, false⟩ crossLine) ∧
    (∃ regex, Regex.ofSource? (source ⟨w.toList, false⟩) = some regex ∧
      ∀ s, regex.program.matchLength? s = matchLength? ⟨w.toList, false⟩ s) ∧
    MatchesBefore ⟨w.toList, false⟩ (MayFollow w.toList) ∧
    (MatchesBefore ⟨w.toList, false⟩ EndsWord ↔
      (endsLikeWord ⟨w.toList, false⟩ → w.toList.getLast?.any isWordChar)) := by
  have hne : w.toList ≠ [] := fun hnil => hw (String.toList_eq_nil_iff.mp hnil)
  by_cases haccepted : Engine.standard.accepts (source ⟨w.toList, false⟩)
  · rw [pushText_of_accepts _ haccepted] at h
    cases h
    rw [Engine.accepts_standard] at haccepted
    obtain ⟨regex, hregex⟩ := Option.isSome_iff_exists.mp haccepted
    exact ⟨Array.getElem?_push_size, ⟨regex, hregex, program_source hne hregex⟩, matchesBefore_mayFollow _,
      matchesBefore_endsWord_iff _⟩
  · rw [pushText_of_not_accepts _ haccepted] at h
    cases h

/-- The item of a keyword that ends with a superscript two, behind which a letter has to follow. -/
theorem text_matches_literally_superscript : ∃ b' : GrammarBuild, "m²" ≠ "" ∧
    (pushText .standard "m²" false true).run {} = .ok (⟨0⟩, b') ∧
    b'.items[0]? = some (.text ⟨['m', '²'], false⟩ true) ∧
    MatchesBefore ⟨['m', '²'], false⟩ (MayFollow ['m', '²']) ∧ MayFollow ['m', '²'] ['a'] ∧
    ¬ MatchesBefore ⟨['m', '²'], false⟩ EndsWord := by
  have hlist : "m²".toList = ['m', '²'] := rfl
  have haccepted : Engine.standard.accepts (source ⟨"m²".toList, false⟩) := by
    rw [accepts_source_iff]
    decide +kernel
  have hrun : (pushText .standard "m²" false true).run {} =
      .ok (⟨0⟩, { items := #[.text ⟨"m²".toList, false⟩ true] }) := by
    rewrite [pushText_of_accepts true haccepted]
    rfl
  obtain ⟨hitem, -, hmatches, hiff⟩ := text_matches_literally (by decide) hrun
  rw [hlist] at hitem hmatches hiff
  have hlast : ¬ (['m', '²'].getLast?.any isWordChar) := by decide +kernel
  refine ⟨_, by decide, hrun, hitem, hmatches, ?_, fun h => hlast (hiff.mp h (by decide +kernel))⟩
  rw [MayFollow, if_neg hlast]
  exact ⟨'a', rfl, by decide +kernel⟩

/-- A keyword that ends like a word, is not found where a text consists of it, and starts a longer word. -/
theorem superscript_starts_longer_word : endsLikeWord ⟨['m', '²'], false⟩ ∧
    matchLength? ⟨['m', '²'], false⟩ (.ofList ['m', '²']) = none ∧
    matchLength? ⟨['m', '²'], false⟩ (.ofList ['m', '²', 'a']) = some 3 ∧
    isWordChar 'a' ∧ ¬ MatchesBefore ⟨['m', '²'], false⟩ EndsWord := by
  rw [matchesBefore_endsWord_iff]
  decide +kernel

end Compile

end ShaderAssist
