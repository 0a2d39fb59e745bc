import ShaderAssist.Text.Trivia
import ShaderAssist.Proofs.Text.Rest

/-!
# Blanks and comments

The pieces that can be skipped at the start of a text, said without the functions that find them. A piece is a
blank, a block comment that ends with its first closing mark, or a line comment up to the line feed or the end
of the text (`IsPiece`). The three kinds overlap in their first characters, but at most one piece stands at the
start of a text, and it is the one that `triviaPiece` finds (`triviaPiece_eq_some_iff`).
-/

namespace ShaderAssist

/-! ### Block comments -/

/-- The mark at the end of a block comment. -/
def closingMark : List Char :=
  ['*', '/']

/-- In front of a closing mark, a text without one does not start with one either. -/
theorem ne_closingMark_append {c : Char} {body rest : List Char} (h : ¬ closingMark <:+: c :: body) : ∀ cs,
    c = '*' → body ++ (closingMark ++ rest) = '/' :: cs → False := by
  rintro cs rfl hcs
  cases body with
  | nil =>
    rw [List.nil_append, closingMark, List.cons_append, List.cons.injEq] at hcs
    exact absurd hcs.1 (by decide)
  | cons d body =>
    rw [List.cons_append, List.cons.injEq] at hcs
    obtain ⟨rfl, -⟩ := hcs
    exact h ⟨[], body, rfl⟩

/-- **A block comment ends with its first closing mark**, and on its line if lines are not crossed. -/
theorem blockCommentTail_eq_some_iff {crossLine : Bool} {cs rest : List Char} {n : Nat} :
    blockCommentTail crossLine cs = some (n, rest) ↔
      ∃ body, cs = body ++ (closingMark ++ rest) ∧ n = byteLength (body ++ closingMark) ∧
        ¬ closingMark <:+: body ∧ (crossLine ∨ '\n' ∉ body) := by
  constructor
  · intro h
    fun_induction blockCommentTail crossLine cs generalizing n with
    | case1 => cases h
    | case2 cs =>
      rw [Option.some.injEq, Prod.mk.injEq] at h
      obtain ⟨rfl, rfl⟩ := h
      exact ⟨[], rfl, rfl, by decide, Or.inr List.not_mem_nil⟩
    | case3 => cases h
    | case4 c cs hne hc ih =>
      obtain ⟨⟨k, rest'⟩, hs, hr⟩ := Option.map_eq_some_iff.mp h
      rw [Prod.mk.injEq] at hr
      obtain ⟨rfl, rfl⟩ := hr
      obtain ⟨body, rfl, rfl, hfirst, hline⟩ := ih hs
      refine ⟨c :: body, rfl, rfl, ?_, ?_⟩
      · rw [List.infix_cons_iff, not_or]
        refine ⟨fun hmark => ?_, hfirst⟩
        obtain ⟨rfl, hslash⟩ := List.cons_prefix_cons.mp hmark
        cases body with
        | nil => exact absurd (List.prefix_nil.mp hslash) (List.cons_ne_nil _ _)
        | cons d body =>
          obtain ⟨rfl, -⟩ := List.cons_prefix_cons.mp hslash
          exact hne _ rfl rfl
      · cases crossLine with
        | true => exact Or.inl rfl
        | false =>
          have hc' : c ≠ '\n' := by simpa using hc
          have hbody : '\n' ∉ body := by simpa using hline
          exact Or.inr (by simp [hbody, Ne.symm hc'])
  · rintro ⟨body, rfl, rfl, hfirst, hline⟩
    induction body with
    | nil => rw [List.nil_append, closingMark, List.cons_append, List.cons_append, blockCommentTail]; rfl
    | cons c body ih =>
      have hguard : (decide (c = '\n') && !crossLine) = false := by
        rcases hline with rfl | hline
        · exact Bool.and_false _
        · have hc : c ≠ '\n' := fun hc => hline (by rw [hc]; exact List.mem_cons_self ..)
          rw [decide_eq_false hc]
          rfl
      have hrest := ih (fun h => hfirst (h.trans (List.suffix_cons _ _).isInfix))
        (hline.imp id fun h hmem => h (List.mem_cons_of_mem _ hmem))
      rw [List.cons_append, blockCommentTail.eq_3 _ _ _ (ne_closingMark_append hfirst), hguard,
        if_neg Bool.false_ne_true, hrest]
      rfl

/-! ### Line comments -/

/-- What follows a line comment is the end of the text or a line feed. -/
def AtLineEnd (cs : List Char) : Prop :=
  cs = [] ∨ ∃ ds, cs = '\n' :: ds

theorem AtLineEnd.of_prefix {cs ds : List Char} (h : AtLineEnd (cs ++ ds)) : AtLineEnd cs := by
  rcases cs with _ | ⟨c, cs⟩
  · exact Or.inl rfl
  · obtain h | ⟨es, h⟩ := h
    · simp at h
    · rw [List.cons_append, List.cons.injEq] at h
      exact Or.inr ⟨cs, by rw [h.1]⟩

/-- **A line comment runs up to the next line feed** or the end of the text. -/
theorem lineCommentTail_eq_iff {cs rest : List Char} {n : Nat} : lineCommentTail cs = (n, rest) ↔
    ∃ body, cs = body ++ rest ∧ n = byteLength body ∧ '\n' ∉ body ∧ AtLineEnd rest := by
  constructor
  · intro h
    induction cs generalizing n with
    | nil =>
      cases h
      exact ⟨[], rfl, rfl, List.not_mem_nil, Or.inl rfl⟩
    | cons c cs ih =>
      rw [lineCommentTail] at h
      split at h
      · next hc =>
        cases h
        exact ⟨[], rfl, rfl, List.not_mem_nil, Or.inr ⟨cs, by rw [hc]⟩⟩
      · next hc =>
        cases h
        obtain ⟨body, hcs, hn, hbody, hend⟩ := ih rfl
        exact ⟨c :: body, by rw [List.cons_append, ← hcs], by rw [byteLength_cons, ← hn],
          by simp [hbody, Ne.symm hc], hend⟩
  · rintro ⟨body, rfl, rfl, hbody, hend⟩
    induction body with
    | nil => rcases hend with rfl | ⟨ds, rfl⟩ <;> rfl
    | cons c body ih =>
      rw [List.mem_cons, not_or] at hbody
      rw [List.cons_append, lineCommentTail, if_neg (Ne.symm hbody.1), ih hbody.2]
      rfl

/-! ### Pieces -/

/-- A mark of two characters of one byte each. -/
theorem byteLength_mark {c d : Char} (hc : c.utf8Size = 1) (hd : d.utf8Size = 1) (cs : List Char) :
    byteLength (c :: d :: cs) = 2 + byteLength cs := by
  rw [byteLength_cons, byteLength_cons, hc, hd]
  omega

theorem isBlank_of_isSeparator {crossLine : Bool} {c : Char} (h : isSeparator crossLine c) :
    isBlank c := by
  cases crossLine with
  | true => exact h
  | false =>
    simp only [isSeparator, Bool.false_eq_true, if_false, Bool.or_eq_true, beq_iff_eq] at h
    rcases h with rfl | rfl <;> decide

theorem not_isBlank_slash : isBlank '/' = false := by decide

/-- **A blank or a comment** in front of a text. -/
inductive IsPiece (crossLine : Bool) : (piece rest : List Char) → Prop where
  | blank {c : Char} {rest : List Char} : isSeparator crossLine c → IsPiece crossLine [c] rest
  | blockComment {body rest : List Char} : ¬ closingMark <:+: body →
      (crossLine ∨ '\n' ∉ body) → IsPiece crossLine ('/' :: '*' :: (body ++ closingMark)) rest
  | lineComment {body rest : List Char} : '\n' ∉ body → AtLineEnd rest →
      IsPiece crossLine ('/' :: '/' :: body) rest

variable {crossLine : Bool} {cs piece gap rest : List Char} {n : Nat}

theorem ne_slash_of_isSeparator {c : Char} (h : isSeparator crossLine c) : c ≠ '/' := by
  rintro rfl
  have hblank := isBlank_of_isSeparator h
  rw [not_isBlank_slash] at hblank
  exact Bool.false_ne_true hblank

/-- **The piece at the start of a text** is the one that is found. -/
theorem triviaPiece_eq_some_iff : triviaPiece crossLine cs = some (n, rest) ↔
    ∃ piece, cs = piece ++ rest ∧ n = byteLength piece ∧ IsPiece crossLine piece rest := by
  constructor
  · intro h
    unfold triviaPiece at h
    split at h
    · cases h
    · next cs =>
      obtain ⟨r, htail, hr⟩ := Option.map_eq_some_iff.mp h
      rw [Prod.mk.injEq] at hr
      obtain ⟨rfl, rfl⟩ := hr
      obtain ⟨body, rfl, hn, hfirst, hline⟩ := blockCommentTail_eq_some_iff.mp htail
      refine ⟨_, ?_, ?_, .blockComment hfirst hline⟩
      · rw [List.cons_append, List.cons_append, List.append_assoc]
      · rw [hn, byteLength_mark rfl rfl]
    · next cs =>
      rw [Option.some.injEq, Prod.mk.injEq] at h
      obtain ⟨rfl, rfl⟩ := h
      obtain ⟨body, hcs, hn, hbody, hend⟩ := lineCommentTail_eq_iff.mp (Eq.refl (lineCommentTail cs))
      exact ⟨'/' :: '/' :: body, by rw [List.cons_append, List.cons_append, ← hcs],
        by rw [hn, byteLength_mark rfl rfl], .lineComment hbody hend⟩
    · next c cs _ _ =>
      split at h
      · next hc =>
        rw [Option.some.injEq, Prod.mk.injEq] at h
        obtain ⟨rfl, rfl⟩ := h
        exact ⟨[c], rfl, rfl, .blank hc⟩
      · cases h
  · rintro ⟨piece, rfl, rfl, h⟩
    cases h with
    | @blank c _ hc =>
      have hslash := ne_slash_of_isSeparator hc
      rw [List.singleton_append, triviaPiece.eq_4 _ _ _ (fun _ h _ => hslash h) (fun _ h _ => hslash h),
        if_pos hc]
      rfl
    | @blockComment body _ hfirst hline =>
      have htail : blockCommentTail crossLine (body ++ (closingMark ++ rest)) = some (_, rest) :=
        blockCommentTail_eq_some_iff.mpr ⟨body, rfl, rfl, hfirst, hline⟩
      rw [List.cons_append, List.cons_append, List.append_assoc, triviaPiece, htail,
        byteLength_mark rfl rfl]
      rfl
    | @lineComment body _ hbody hend =>
      have htail := lineCommentTail_eq_iff.mpr ⟨body, rfl, rfl, hbody, hend⟩
      rw [List.cons_append, List.cons_append, triviaPiece, htail, byteLength_mark rfl rfl]

/-- A piece of one line is also a piece where lines are crossed. -/
theorem IsPiece.cross (h : IsPiece crossLine piece rest) : IsPiece true piece rest := by
  cases h with
  | blank hc => exact .blank (isBlank_of_isSeparator hc)
  | blockComment hfirst _ => exact .blockComment hfirst (Or.inl rfl)
  | lineComment hbody hend => exact .lineComment hbody hend

/-- A piece stays one if the text is cut anywhere behind it. -/
theorem IsPiece.cut (h : IsPiece crossLine piece (gap ++ rest)) : IsPiece crossLine piece gap := by
  cases h with
  | blank hc => exact .blank hc
  | blockComment hfirst hline => exact .blockComment hfirst hline
  | lineComment hbody hend => exact .lineComment hbody hend.of_prefix

theorem IsPiece.feedless (h : IsPiece false piece rest) : '\n' ∉ piece := by
  cases h with
  | @blank c _ hc =>
    intro hmem
    rw [← List.mem_singleton.mp hmem] at hc
    exact Bool.false_ne_true hc
  | blockComment _ hline =>
    have hbody := hline.resolve_left Bool.false_ne_true
    simp [closingMark, hbody]
  | lineComment hbody _ => simp [hbody]

end ShaderAssist
