import Mathlib.Tactic.SplitIfs
import ShaderAssist.Grammar.Engine

/-!
# Literal texts as regular expressions

The source of a keyword is read piece by piece: the start of the text, each character of the keyword, and
the boundary of a word if the keyword ends like one. With regard to case the characters are joined to one
literal, so the memory of the automata is known, and the standard engine accepts a keyword exactly if it is
not too long (`Keyword.accepts_source_iff`).
-/

namespace ShaderAssist

namespace Regex

/-! ### Reading -/

/-- The state with the characters of a text as further pieces. -/
def ReadState.addText (s : ReadState) (text : List Char) : ReadState :=
  text.foldl (fun s c => s.add (ofChar s.group.flags.ignoreCase c) 0) s

theorem readPiece?_of_not_isMeta (s : ReadState) {c : Char} (cs : List Char) (h : ¬ isMeta c) :
    readPiece? s (c :: cs) = some (s.add (ofChar s.group.flags.ignoreCase c) 0, cs) := by
  unfold readPiece?
  split <;> simp_all [isMeta]

theorem readPiece?_of_isMeta (s : ReadState) {c : Char} (cs : List Char) (h : isMeta c) :
    readPiece? s ('\\' :: c :: cs) = some (s.add (ofChar s.group.flags.ignoreCase c) 0, cs) := by
  simp [readPiece?, readEscape?, h]

theorem toList_escapeSource_cons (c : Char) (text : List Char) : (escapeSource (c :: text)).toList =
    (if isMeta c then ['\\', c] else [c]) ++ (escapeSource text).toList := by
  simp [escapeSource]

theorem length_le_length_escapeSource (text : List Char) :
    text.length ≤ (escapeSource text).length := by
  induction text with
  | nil => exact Nat.zero_le _
  | cons c text ih =>
    rw [← String.length_toList] at ih ⊢
    rw [toList_escapeSource_cons, List.length_append, List.length_cons]
    have hpos : 1 ≤ (if isMeta c then ['\\', c] else [c]).length := by split <;> simp
    omega

/-- **An escaped text is read character by character**, and no character has a meaning of its own. -/
theorem readPieces?_escapeSource (text : List Char) : ∀ {n : Nat} (s : ReadState) (rest : List Char),
    text.length ≤ n → readPieces? n s ((escapeSource text).toList ++ rest) =
      readPieces? (n - text.length) (s.addText text) rest := by
  induction text with
  | nil => exact fun s rest _ => rfl
  | cons c text ih =>
    intro n s rest hn
    obtain ⟨n, rfl⟩ : ∃ m, n = m + 1 := ⟨n - 1, by simp at hn; omega⟩
    have hstep : readPieces? (n + 1) s ((escapeSource (c :: text)).toList ++ rest) =
        readPieces? n (s.add (ofChar s.group.flags.ignoreCase c) 0)
          ((escapeSource text).toList ++ rest) := by
      rw [toList_escapeSource_cons]
      by_cases hmeta : isMeta c
      · rw [if_pos hmeta]
        simp only [List.cons_append, List.nil_append, readPieces?, readPiece?_of_isMeta s _ hmeta]
      · rw [if_neg hmeta]
        simp only [List.cons_append, List.nil_append, readPieces?, readPiece?_of_not_isMeta s _ hmeta]
    rw [hstep, ih _ _ (by simpa using hn), List.length_cons, Nat.add_sub_add_right]
    rfl

/-- **Some pieces in a row have been read**, and nothing else. -/
structure ReadState.HasRead (s : ReadState) (ignoreCase : Bool) (rs : List Regex) : Prop where
  ignoreCase : s.group.flags.ignoreCase = ignoreCase
  outer : s.outer = []
  alternatives : s.group.alternatives = []
  pieces : s.group.pieces = (rs.map fun r => ⟨r, 0⟩).reverse

namespace ReadState.HasRead

variable {s : ReadState} {ignoreCase : Bool} {rs : List Regex}

theorem start : HasRead ⟨⟨{}, none, [], [], false⟩, [], 1, []⟩ false [] :=
  ⟨rfl, rfl, rfl, rfl⟩

theorem add (h : s.HasRead ignoreCase rs) (r : Regex) :
    (s.add r 0).HasRead ignoreCase (rs ++ [r]) := by
  refine ⟨h.ignoreCase, h.outer, h.alternatives, ?_⟩
  simp [ReadState.add, OpenGroup.add, h.pieces]

theorem setFlags (h : s.HasRead ignoreCase rs) (flags : Flags) :
    HasRead { s with group := s.group.setFlags flags } flags.ignoreCase (rs ++ [.empty]) := by
  refine ⟨rfl, h.outer, h.alternatives, ?_⟩
  simp [OpenGroup.setFlags, h.pieces]

theorem addText (text : List Char) : ∀ {s : ReadState} {rs : List Regex}, s.HasRead ignoreCase rs →
    (s.addText text).HasRead ignoreCase (rs ++ text.map (ofChar ignoreCase)) := by
  induction text with
  | nil =>
    intro s rs h
    rw [List.map_nil, List.append_nil]
    exact h
  | cons c text ih =>
    intro s rs h
    have hstep := ih (h.add (ofChar ignoreCase c))
    rw [List.append_assoc] at hstep
    unfold ReadState.addText at hstep ⊢
    rw [List.foldl_cons, h.ignoreCase]
    exact hstep

/-- Pieces in a row are not deep. -/
theorem depthOf_le (rs : List Regex) : depthOf (rs.map fun r => ⟨r, 0⟩).reverse ≤ 1 := by
  have hdepth : ∀ parts : List Part, (∀ p ∈ parts, p.depth = 0) →
      parts.foldl (fun n p => max n p.depth) 0 = 0 := by
    intro parts h
    induction parts with
    | nil => rfl
    | cons p parts ih =>
      rw [List.foldl_cons, h p (List.mem_cons_self ..)]
      exact ih fun q hq => h q (List.mem_cons_of_mem _ hq)
  have hzero : ∀ p ∈ (rs.map fun r => (⟨r, 0⟩ : Part)).reverse, p.depth = 0 := by simp
  unfold depthOf
  split
  · exact Nat.zero_le _
  · rename_i p heq
    rw [hzero p (by rw [heq]; exact List.mem_singleton.mpr rfl)]
    exact Nat.zero_le _
  · exact Nat.le_of_eq (congrArg (· + 1) (hdepth _ hzero))

/-- What has been read is the whole expression. -/
theorem readPieces? (h : s.HasRead ignoreCase rs) (n : Nat) :
    ∃ depth ≤ 1, Regex.readPieces? n s [] = some ⟨concat rs, depth⟩ := by
  refine ⟨_, depthOf_le rs, ?_⟩
  have hcontent : s.group.content = ⟨concat rs, depthOf (rs.map fun r => ⟨r, 0⟩).reverse⟩ := by
    unfold OpenGroup.content
    rw [h.alternatives]
    simp [OpenGroup.branch, h.pieces, Function.comp_def]
  unfold Regex.readPieces?
  simp [h.outer, hcontent]

/-- An escaped text, and the boundary of a word, up to the end. -/
theorem readPieces?_text (h : s.HasRead ignoreCase rs) (text : List Char) (isWord : Bool) {n : Nat}
    (hn : ((escapeSource text).toList ++ if isWord then ['\\', 'b'] else []).length ≤ n) :
    ∃ depth ≤ 1, Regex.readPieces? n s
        ((escapeSource text).toList ++ if isWord then ['\\', 'b'] else []) =
      some ⟨concat (rs ++ text.map (ofChar ignoreCase) ++
        if isWord then [.assert .wordBoundary] else []), depth⟩ := by
  have hlength := length_le_length_escapeSource text
  rw [List.length_append, String.length_toList] at hn
  rw [readPieces?_escapeSource text s _ (by omega)]
  cases isWord with
  | false =>
    simp only [Bool.false_eq_true, if_false, List.append_nil]
    exact (h.addText text).readPieces? _
  | true =>
    obtain ⟨m, hm⟩ : ∃ m, n - text.length = m + 1 := ⟨n - text.length - 1, by simp at hn; omega⟩
    have hboundary : Regex.readPieces? (m + 1) (s.addText text) ['\\', 'b'] =
        Regex.readPieces? m ((s.addText text).add (.assert .wordBoundary) 0) [] := rfl
    simp only [if_true, hm, hboundary]
    exact ((h.addText text).add _).readPieces? m

end ReadState.HasRead

end Regex

namespace Keyword

open Regex

/-- The boundary that follows a keyword. -/
def boundary (k : Keyword) : List Regex :=
  if k.endsLikeWord then [.assert .wordBoundary] else []

/-- The pieces that the source of a keyword consists of. A place where flags are set is a piece too. -/
def pieces (k : Keyword) : List Regex :=
  .assert .textStart :: (if k.ignoreCase then [.empty] else []) ++
    k.text.map (ofChar k.ignoreCase) ++ k.boundary

/-- **The source of a keyword is read** as its pieces in a row. -/
theorem readPieces?_source (k : Keyword) : ∃ depth ≤ 1,
    readPieces? k.source.length ⟨⟨{}, none, [], [], false⟩, [], 1, []⟩ k.source.toList =
      some ⟨concat k.pieces, depth⟩ := by
  have hsource : k.source.toList = '^' :: ((if k.ignoreCase then ['(', '?', 'i', ')'] else []) ++
      ((escapeSource k.text).toList ++ if k.endsLikeWord then ['\\', 'b'] else [])) := by
    unfold source
    split <;> split <;> simp
  have hstart := ReadState.HasRead.start.add (.assert .textStart)
  rw [← String.length_toList, hsource]
  unfold pieces
  cases k.ignoreCase with
  | false => exact hstart.readPieces?_text k.text k.endsLikeWord (Nat.le_refl _)
  | true =>
    have hflags := hstart.setFlags { ignoreCase := true }
    exact hflags.readPieces?_text k.text k.endsLikeWord (by simp; omega)

end Keyword

/-! ### Memory -/

theorem length_utf8Bytes (c : Char) : (utf8Bytes c.toNat).length = c.utf8Size := by
  have hval : c.toNat = c.val.toNat := rfl
  unfold utf8Bytes Char.utf8Size
  simp only [UInt32.le_iff_toNat_le, UInt32.toNat_ofNatLT, ← hval]
  split_ifs <;> first | rfl | omega

theorem length_directedBytes (direction : Direction) (text : List Char) :
    (directedBytes direction text).length = byteLength text := by
  have hbytes : (text.flatMap fun c => utf8Bytes c.toNat).length = byteLength text := by
    induction text with
    | nil => rfl
    | cons c text ih => rw [List.flatMap_cons, List.length_append, length_utf8Bytes, ih, byteLength_cons]
  cases direction with
  | forward => exact hbytes
  | backward => exact List.length_reverse.trans hbytes

namespace Regex

/-- The automata of an expression have `n` states that need no links. -/
def AddsStates (r : Regex) (n : Nat) : Prop :=
  ∀ direction f, r.measure direction none f = f.addStates n

theorem addsStates_assert (a : Assertion) : (assert a).AddsStates 1 :=
  fun _ _ => rfl

theorem addsStates_literal (text : List Char) : (literal text).AddsStates (byteLength text) := by
  intro direction f
  rw [measure, length_directedBytes]
  rfl

theorem AddsStates.seq {r s : Regex} {m n : Nat} (hr : r.AddsStates m) (hs : s.AddsStates n) :
    (Regex.seq r s).AddsStates (m + n) := by
  intro direction f
  cases direction with
  | forward =>
    have hmeasure : (Regex.seq r s).measure .forward none f =
        s.measure .forward none (r.measure .forward none f) := rfl
    rw [hmeasure, hr, hs, Footprint.addStates, Footprint.addStates, Nat.add_assoc]
    rfl
  | backward =>
    have hmeasure : (Regex.seq r s).measure .backward none f =
        r.measure .backward none (s.measure .backward none f) := rfl
    rw [hmeasure, hr, hs, Footprint.addStates, Footprint.addStates, Nat.add_assoc, Nat.add_comm n]
    rfl

/-- An anchored expression without links fits if its states do. Reading backward takes more. -/
theorem AddsStates.fits_iff {r : Regex} {n : Nat} (h : r.AddsStates n)
    (hstart : r.startsAtTextStart) (hend : r.endsAtTextEnd = false) :
    r.fits ↔ n + 4 < Footprint.maxBytes / Footprint.stateBytes := by
  unfold fits footprint
  simp only [hstart, hend, h .forward, h .backward, Footprint.bytes, Footprint.addStates,
    Footprint.addBranching, Footprint.addReading, Footprint.stateBytes, Footprint.branchBytes,
    Footprint.readBytes, Footprint.maxBytes, if_true, Bool.false_eq_true, if_false,
    Bool.and_eq_true, decide_eq_true_eq]
  omega

theorem ofChar_false (c : Char) : ofChar false c = literal [c] := by
  simp [ofChar, ofSet, CharSet.single, CharSet.range, CharSet.onlyChar?]

theorem flatMap_pieces {rs : List Regex} (h : ∀ r ∈ rs, r.pieces = [r]) : rs.flatMap pieces = rs := by
  induction rs with
  | nil => rfl
  | cons r rs ih =>
    rw [List.flatMap_cons, h r (List.mem_cons_self ..), ih fun r' hr' => h r' (List.mem_cons_of_mem _ hr')]
    rfl

/-- Characters in a row are one literal. -/
theorem foldr_consPiece_literal (rest : List Regex) (hrest : ∀ text rs, rest ≠ literal text :: rs) :
    ∀ (c : Char) (text : List Char),
      ((c :: text).map fun c => literal [c]).foldr consPiece rest = literal (c :: text) :: rest
  | c, [] => by
    rw [List.map_singleton, List.foldr_cons, List.foldr_nil]
    unfold consPiece
    split
    · exact absurd rfl (hrest _ _)
    · rfl
  | c, d :: text => by
    rw [List.map_cons, List.foldr_cons, foldr_consPiece_literal rest hrest d text]
    rfl

end Regex

namespace Keyword

open Regex

theorem boundary_cases (k : Keyword) : k.boundary = [] ∨ k.boundary = [.assert .wordBoundary] := by
  unfold boundary
  split
  · exact Or.inr rfl
  · exact Or.inl rfl

theorem pieces_eq (text : List Char) : pieces ⟨text, false⟩ =
    .assert .textStart :: (text.map fun c => .literal [c]) ++ boundary ⟨text, false⟩ := by
  unfold pieces
  rw [List.map_congr_left fun c _ => ofChar_false c]
  rfl

/-- The expression of a text with regard to case. -/
theorem concat_pieces (c : Char) (text : List Char) : concat (pieces ⟨c :: text, false⟩) =
    .seq (.assert .textStart) (ofPieces (.literal (c :: text) :: boundary ⟨c :: text, false⟩)) := by
  generalize hb : boundary ⟨c :: text, false⟩ = b
  have hcases := hb ▸ boundary_cases ⟨c :: text, false⟩
  have hflat : (pieces ⟨c :: text, false⟩).flatMap Regex.pieces = pieces ⟨c :: text, false⟩ := by
    refine flatMap_pieces fun r hr => ?_
    rw [pieces_eq, hb] at hr
    rcases List.mem_append.mp hr with hr | hr
    · rcases List.mem_cons.mp hr with rfl | hr
      · rfl
      · obtain ⟨c', -, rfl⟩ := List.mem_map.mp hr
        rfl
    · rcases hcases with rfl | rfl
      · cases hr
      · rw [List.mem_singleton.mp hr]
        rfl
  have hrest : ∀ t rs, b ≠ .literal t :: rs := by rcases hcases with rfl | rfl <;> simp
  have hjoined : b.foldr consPiece [] = b := by rcases hcases with rfl | rfl <;> rfl
  unfold concat
  rw [hflat, pieces_eq, hb, List.cons_append, List.foldr_cons, List.foldr_append, hjoined,
    foldr_consPiece_literal b hrest]
  rfl

/-- **The standard engine accepts a text with regard to case** exactly if it is not too long. -/
theorem accepts_source_iff (text : List Char) : Engine.standard.accepts (source ⟨text, false⟩) ↔
    byteLength text + (boundary ⟨text, false⟩).length + 5 <
      Footprint.maxBytes / Footprint.stateBytes := by
  obtain ⟨depth, hdepth, hread⟩ := readPieces?_source ⟨text, false⟩
  have haccepted : Engine.standard.accepts (source ⟨text, false⟩) ↔
      (concat (pieces ⟨text, false⟩)).fits := by
    have hle : depth ≤ maxDepth := by unfold maxDepth; omega
    rw [Engine.accepts_standard, ofSource?, hread]
    simp [hle]
  rw [haccepted]
  cases text with
  | nil => decide
  | cons c text =>
    have hstates := addsStates_literal (c :: text)
    rw [concat_pieces]
    rcases boundary_cases ⟨c :: text, false⟩ with hb | hb
    · have h := (addsStates_assert .textStart).seq hstates
      have hpieces : ofPieces [.literal (c :: text)] = .literal (c :: text) := rfl
      rw [hb, hpieces, h.fits_iff rfl rfl, List.length_nil]
      omega
    · have h := (addsStates_assert .textStart).seq (hstates.seq (addsStates_assert .wordBoundary))
      have hpieces : ofPieces [.literal (c :: text), .assert .wordBoundary] =
          .seq (.literal (c :: text)) (.assert .wordBoundary) := rfl
      rw [hb, hpieces, h.fits_iff rfl rfl, List.length_singleton]
      omega

end Keyword

end ShaderAssist
