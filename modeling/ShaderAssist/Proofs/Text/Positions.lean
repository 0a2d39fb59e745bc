import ShaderAssist.Proofs.Text.Lines

/-!
# Positions and offsets

The position of an offset is the end of the text before it (`endOf`), which tells the parts of a text apart:
a longer part ends later. So offsets and positions are in the same order, and each is found back from the
other one. The one exception is an offset between a carriage return and the end of its line: its position is
behind the content of the line, and no offset has it (`offsetAt_endOf`).
-/

namespace ShaderAssist

namespace Position

theorem le_iff {p q : Position} :
    p.le q ↔ p.line < q.line ∨ p.line = q.line ∧ p.column ≤ q.column := by
  simp [le]

theorem le_refl (p : Position) : p.le p :=
  le_iff.mpr (Or.inr ⟨rfl, Nat.le_refl _⟩)

theorem le_trans {p q r : Position} (hpq : p.le q) (hqr : q.le r) : p.le r := by
  rw [le_iff] at hpq hqr ⊢
  omega

/-- A position comes before another one. -/
def Before (p q : Position) : Prop :=
  p.le q ∧ p ≠ q

theorem Before.not_le {p q : Position} (h : p.Before q) : ¬ q.le p := by
  intro hle
  apply h.2
  have hpq := le_iff.mp h.1
  have hqp := le_iff.mp hle
  cases p
  cases q
  simp only [Position.mk.injEq] at *
  omega

end Position

namespace Document

/-! ### The end of a text -/

/-- The position behind a text. -/
def endOf (front : List Char) : Position :=
  front.foldl stepPosition ⟨0, 0⟩

theorem line_foldl_stepPosition (front : List Char) (p : Position) :
    (front.foldl stepPosition p).line = p.line + front.count '\n' := by
  induction front generalizing p with
  | nil => rfl
  | cons c front ih =>
    rw [List.foldl_cons, ih]
    by_cases hc : c = '\n'
    · rw [stepPosition, if_pos hc, hc, List.count_cons_self, Nat.add_assoc, Nat.add_comm 1]
    · rw [stepPosition, if_neg hc, List.count_cons_of_ne hc]

theorem foldl_stepPosition_of_not_mem {line : List Char} (h : '\n' ∉ line) (p : Position) :
    line.foldl stepPosition p = ⟨p.line, p.column + line.length⟩ := by
  induction line generalizing p with
  | nil => rfl
  | cons c line ih =>
    rw [List.mem_cons, not_or] at h
    rw [List.foldl_cons, ih h.2, stepPosition, if_neg (Ne.symm h.1), List.length_cons]
    simp only [Position.mk.injEq, true_and]
    omega

/-- **The position in a line** is the number of the line and the length of the part of it. -/
theorem endOf_append {front line : List Char} (hfront : StartsLine front) (hline : '\n' ∉ line) :
    endOf (front ++ line) = ⟨front.count '\n', line.length⟩ := by
  have hstart : endOf front = ⟨front.count '\n', 0⟩ := by
    rcases hfront with rfl | ⟨f, rfl⟩
    · rfl
    · unfold endOf
      rw [List.foldl_append, List.foldl_cons, List.foldl_nil, stepPosition, if_pos rfl,
        line_foldl_stepPosition, List.count_append]
      simp
  unfold endOf at hstart ⊢
  rw [List.foldl_append, hstart, foldl_stepPosition_of_not_mem hline, Nat.zero_add]

theorem before_stepPosition (p : Position) (c : Char) : p.Before (stepPosition p c) := by
  unfold stepPosition
  cases p
  split_ifs
  · exact ⟨Position.le_iff.mpr (Or.inl (Nat.lt_succ_self _)), by simp⟩
  · exact ⟨Position.le_iff.mpr (Or.inr ⟨rfl, Nat.le_succ _⟩), by simp⟩

theorem le_foldl_stepPosition (rest : List Char) (p : Position) :
    p.le (rest.foldl stepPosition p) := by
  induction rest generalizing p with
  | nil => exact p.le_refl
  | cons c rest ih => exact Position.le_trans (before_stepPosition p c).1 (ih _)

/-- A longer part of a text does not end earlier. -/
theorem endOf_le_of_prefix {front front' : List Char} (h : front <+: front') :
    (endOf front).le (endOf front') := by
  obtain ⟨rest, rfl⟩ := h
  unfold endOf
  rw [List.foldl_append]
  exact le_foldl_stepPosition rest _

/-! ### The position of an offset -/

theorem locate_append (front rest : List Char) (k : Nat) (p : Position) :
    locate (front ++ rest) (byteLength front + k) p = locate rest k (front.foldl stepPosition p) := by
  induction front generalizing p with
  | nil => rw [byteLength_nil, Nat.zero_add]; rfl
  | cons c front ih =>
    rw [List.cons_append, byteLength_cons, locate, if_neg (by omega), List.foldl_cons, ← ih]
    congr 1
    omega

/-- The first bytes of a character, and all bytes past the end, are at the place itself. -/
theorem locate_of_lt {rest : List Char} {k : Nat} (h : ∀ c ∈ rest.head?, k < c.utf8Size) (p : Position) :
    locate rest k p = p := by
  cases rest with
  | nil => rfl
  | cons c rest => rw [locate, if_pos (h c rfl)]

variable {d : Document}

theorem positionAt_eq {front rest : List Char} {k : Nat} (ht : d.text = front ++ rest)
    (hk : ∀ c ∈ rest.head?, k < c.utf8Size) : d.positionAt (byteLength front + k) = endOf front := by
  unfold positionAt
  rw [ht, locate_append, locate_of_lt hk]
  rfl

/-- The position of a boundary is the end of the text before it. -/
theorem positionAt_byteLength {front rest : List Char} (ht : d.text = front ++ rest) :
    d.positionAt (byteLength front) = endOf front :=
  positionAt_eq (k := 0) ht fun c _ => c.utf8Size_pos

/-- Every offset lies in a character, or is past the end. -/
theorem exists_front (d : Document) (o : Nat) : ∃ front rest k, d.text = front ++ rest ∧
    o = byteLength front + k ∧ ∀ c ∈ rest.head?, k < c.utf8Size := by
  suffices h : ∀ (text : List Char) (o : Nat), ∃ front rest k, text = front ++ rest ∧
      o = byteLength front + k ∧ ∀ c ∈ rest.head?, k < c.utf8Size from h d.text o
  intro text
  induction text with
  | nil => exact fun o => ⟨[], [], o, rfl, (Nat.zero_add o).symm, by simp⟩
  | cons c text ih =>
    intro o
    by_cases ho : o < c.utf8Size
    · exact ⟨[], c :: text, o, rfl, (Nat.zero_add o).symm, by simpa using ho⟩
    · obtain ⟨front, rest, k, rfl, hk, hrest⟩ := ih (o - c.utf8Size)
      exact ⟨c :: front, rest, k, rfl, by rw [byteLength_cons]; omega, hrest⟩

/-- Of two offsets the greater one lies behind the longer part of the text. -/
theorem prefix_of_byteLength_le {front front' rest rest' : List Char} {k : Nat}
    (ht : d.text = front ++ rest) (ht' : d.text = front' ++ rest')
    (hk : ∀ c ∈ rest'.head?, k < c.utf8Size) (h : byteLength front ≤ byteLength front' + k) :
    front <+: front' := by
  rcases List.prefix_or_prefix_of_prefix ⟨rest, ht.symm⟩ ⟨rest', ht'.symm⟩ with hp | ⟨more, rfl⟩
  · exact hp
  · -- the longer part would need a character that the offset does not reach
    rcases more with _ | ⟨c, more⟩
    · exact ⟨[], by simp⟩
    · have hrest : c :: more ++ rest = rest' := by
        rw [ht, List.append_assoc] at ht'
        exact List.append_cancel_left ht'
      have := hk c (by rw [← hrest]; rfl)
      rw [byteLength_append, byteLength_cons] at h
      omega

theorem positionAt_mono {o o' : Nat} (h : o ≤ o') : (d.positionAt o).le (d.positionAt o') := by
  obtain ⟨front, rest, k, ht, rfl, hk⟩ := d.exists_front o
  obtain ⟨front', rest', k', ht', rfl, hk'⟩ := d.exists_front o'
  rw [positionAt_eq ht hk, positionAt_eq ht' hk']
  exact endOf_le_of_prefix (prefix_of_byteLength_le ht ht' hk' (by omega))

theorem positionAt_of_size_le {o : Nat} (h : d.size ≤ o) : d.positionAt o = d.positionAt d.size := by
  rw [size_eq] at h ⊢
  have ht : d.text = d.text ++ [] := (List.append_nil _).symm
  rw [positionAt_byteLength ht, ← positionAt_eq (k := o - byteLength d.text) ht (by simp)]
  congr 1
  omega

/-! ### The offset of a position -/

/-- A part of a text that ends with the carriage return at the end of its line. -/
def EndsReturn (front rest : List Char) : Prop :=
  front.getLast? = some '\r' ∧ AtLineEnd rest

/-- Only the part of the last line decides. -/
theorem endsReturn_append_iff {front a b rest : List Char} (hfront : StartsLine front) (hb : '\n' ∉ b)
    (hrest : AtLineEnd rest) : EndsReturn (front ++ a) (b ++ rest) ↔ a.getLast? = some '\r' ∧ b = [] := by
  have hlast : (front ++ a).getLast? = some '\r' ↔ a.getLast? = some '\r' := by
    rcases List.eq_nil_or_concat' a with rfl | ⟨a, c, rfl⟩
    · rcases hfront with rfl | ⟨f, rfl⟩
      · rfl
      · simp
    · rw [← List.append_assoc, List.getLast?_concat, List.getLast?_concat]
  have hend : AtLineEnd (b ++ rest) ↔ b = [] := by
    constructor
    · rintro (h | ⟨ds, h⟩)
      · exact (List.append_eq_nil_iff.mp h).1
      · rcases b with _ | ⟨c, b⟩
        · rfl
        · obtain ⟨rfl, -⟩ := List.cons.inj h
          simp at hb
    · rintro rfl
      exact hrest
  unfold EndsReturn
  rw [hlast, hend]

theorem offsetAt_of_isLine {i : Nat} {front line rest : List Char} (h : IsLine d.text i front line rest)
    (column : Nat) : d.offsetAt ⟨i, column⟩ =
      if column ≤ (dropReturn line).length then
        .ok (byteLength (front ++ (dropReturn line).take column))
      else .error (.outsideLine ⟨i, column⟩) := by
  obtain ⟨hget, hstart⟩ := h.take_splitLines
  unfold offsetAt lineAt lines
  rw [hget, byteLength_append, ← hstart]
  rfl

/-- **The offset of the position of a boundary** is the boundary, unless it comes after the carriage return
at the end of a line. -/
theorem offsetAt_endOf {front rest : List Char} (ht : d.text = front ++ rest) :
    (¬ EndsReturn front rest → d.offsetAt (endOf front) = .ok (byteLength front)) ∧
      (EndsReturn front rest → d.offsetAt (endOf front) = .error (.outsideLine (endOf front))) := by
  obtain ⟨f, a, rfl, hf, ha⟩ := exists_lineStart front
  obtain ⟨b, r, rfl, hb, hr⟩ := exists_lineEnd rest
  have hline : IsLine d.text (f.count '\n') f (a ++ b) r :=
    ⟨by simpa using ht, hf, rfl, by simp [ha, hb], hr⟩
  rw [endOf_append hf ha, offsetAt_of_isLine hline, endsReturn_append_iff hf hb hr]
  obtain ⟨houtside, hinside⟩ := take_dropReturn a b
  constructor
  · intro h
    obtain ⟨hle, htake⟩ := hinside h
    rw [if_pos hle, htake]
  · intro h
    rw [if_neg (Nat.not_le_of_lt (houtside h))]

theorem dropReturn_isPrefix (line : List Char) : dropReturn line <+: line := by
  fun_induction dropReturn line with
  | case1 => exact List.prefix_rfl
  | case2 => exact List.nil_prefix
  | case3 c line _ ih => exact List.cons_prefix_cons.mpr ⟨rfl, ih⟩

/-- An offset of a position is a boundary; its text ends at the position, unless the line is past the last
one. -/
theorem exists_front_of_offsetAt {p : Position} {o : Nat} (h : d.offsetAt p = .ok o) :
    ∃ front rest, d.text = front ++ rest ∧ o = byteLength front ∧
      (p.line < d.lineCount → endOf front = p) := by
  obtain ⟨i, column⟩ := p
  rcases Nat.lt_or_ge i d.lineCount with hi | hi
  · obtain ⟨front, rest, hline⟩ := getElem?_splitLines_iff.mp (List.getElem?_eq_getElem hi)
    rw [offsetAt_of_isLine hline] at h
    split_ifs at h with hc
    obtain ⟨more, hmore⟩ := (List.take_prefix column _).trans (dropReturn_isPrefix (d.lines[i]))
    refine ⟨front ++ (dropReturn d.lines[i]).take column, more ++ rest, ?_, (Except.ok.inj h).symm, ?_⟩
    · rw [hline.text_eq, List.append_assoc, ← List.append_assoc _ more, hmore]
    · intro _
      have hfeedless : '\n' ∉ (dropReturn d.lines[i]).take column :=
        fun hmem => hline.feedless (hmore ▸ List.mem_append_left more hmem)
      rw [endOf_append hline.starts hfeedless, hline.count, List.length_take, Nat.min_eq_left hc]
  · unfold offsetAt lineAt at h
    rw [List.getElem?_eq_none hi] at h
    refine ⟨d.text, [], (List.append_nil _).symm, ?_, fun hlt => absurd hlt (Nat.not_lt_of_ge hi)⟩
    rw [← size_eq]
    exact (Except.ok.inj h).symm

theorem offsetAt_of_lineCount_le {p : Position} (h : d.lineCount ≤ p.line) : d.offsetAt p = .ok d.size := by
  unfold offsetAt lineAt
  rw [List.getElem?_eq_none h]
  rfl

theorem positionAt_of_offsetAt {p : Position} {o : Nat} (hp : p.line < d.lineCount)
    (h : d.offsetAt p = .ok o) : d.positionAt o = p := by
  obtain ⟨front, rest, ht, rfl, hend⟩ := exists_front_of_offsetAt h
  rw [positionAt_byteLength ht, hend hp]

theorem isBoundary_of_offsetAt {p : Position} {o : Nat} (h : d.offsetAt p = .ok o) : d.IsBoundary o := by
  obtain ⟨front, rest, ht, rfl, -⟩ := exists_front_of_offsetAt h
  exact ⟨rest, front, ht, rfl⟩

/-- Offsets are in the order of their positions. -/
theorem offsetAt_lt_of_before {p q : Position} {a b : Nat} (hp : p.line < d.lineCount)
    (hq : q.line < d.lineCount) (ha : d.offsetAt p = .ok a) (hb : d.offsetAt q = .ok b)
    (h : p.Before q) : a < b := by
  by_contra hle
  have hqp := d.positionAt_mono (Nat.le_of_not_lt hle)
  rw [positionAt_of_offsetAt hp ha, positionAt_of_offsetAt hq hb] at hqp
  exact h.not_le hqp

/-! ### The text of a range -/

/-- Between two boundaries in ascending order there is a text. -/
theorem exists_restAt_append {a b : Nat} (ha : d.IsBoundary a) (hb : d.IsBoundary b) (h : a ≤ b) :
    ∃ t rest, d.RestAt a (t ++ rest) ∧ b = a + byteLength t := by
  obtain ⟨rest, front, ht, rfl⟩ := ha
  obtain ⟨rest', front', ht', rfl⟩ := hb
  obtain ⟨t, rfl⟩ := prefix_of_byteLength_le (k := 0) ht ht' (fun c _ => c.utf8Size_pos) h
  rw [List.append_assoc] at ht'
  exact ⟨t, rest', ⟨front, ht', rfl⟩, byteLength_append front t⟩

/-- **The text of a range** is the text between the offsets of its ends. -/
theorem textOfRange_eq_ok_iff {range : PositionRange} {t : List Char} :
    d.textOfRange range = .ok t ↔ ∃ a rest, d.offsetAt range.start = .ok a ∧
      d.offsetAt range.stop = .ok (a + byteLength t) ∧ d.RestAt a (t ++ rest) := by
  unfold textOfRange
  constructor
  · intro h
    rcases ha : d.offsetAt range.start with e | a <;> rw [ha] at h
    · exact nomatch h
    rcases hb : d.offsetAt range.stop with e | b <;> rw [hb] at h
    · exact nomatch h
    change (if b < a then _ else _) = _ at h
    split_ifs at h with hle
    obtain ⟨t', rest, hrest, rfl⟩ := exists_restAt_append (isBoundary_of_offsetAt ha)
      (isBoundary_of_offsetAt hb) (Nat.le_of_not_lt hle)
    rw [hrest.textBetween] at h
    obtain rfl := Except.ok.inj h
    exact ⟨a, rest, rfl, rfl, hrest⟩
  · rintro ⟨a, rest, ha, hb, hrest⟩
    rw [ha, hb]
    change (if a + byteLength t < a then _ else _) = _
    rw [if_neg (by omega), hrest.textBetween]
    rfl

/-! ### Positions and offsets agree -/

/-- The offset comes after a carriage return at the end of a line. -/
def AfterReturn (d : Document) (offset : Nat) : Prop :=
  ∃ start rest, d.RestAt start ('\r' :: rest) ∧ offset = start + 1 ∧ AtLineEnd rest

theorem afterReturn_byteLength_iff {front rest : List Char} (ht : d.text = front ++ rest) :
    d.AfterReturn (byteLength front) ↔ EndsReturn front rest := by
  have hreturn : '\r'.utf8Size = 1 := rfl
  constructor
  · rintro ⟨_, rest', ⟨front', ht', rfl⟩, hlen, hend⟩
    have hcut : front ++ rest = (front' ++ ['\r']) ++ rest' := by
      rw [← ht, ht', List.append_assoc, List.singleton_append]
    have hbytes : byteLength (front' ++ ['\r']) = byteLength front' + 1 := by
      rw [byteLength_append, byteLength_cons, hreturn, byteLength_nil]
    obtain ⟨rfl, rfl⟩ := append_inj_of_byteLength hcut (hlen.trans hbytes.symm)
    exact ⟨List.getLast?_concat, hend⟩
  · rintro ⟨hlast, hend⟩
    obtain ⟨front', rfl⟩ := List.getLast?_eq_some_iff.mp hlast
    refine ⟨byteLength front', rest, ⟨front', ?_, rfl⟩, ?_, hend⟩
    · rw [ht, List.append_assoc, List.singleton_append]
    · rw [byteLength_append, byteLength_cons, hreturn, byteLength_nil]

/-- How the positions of a document and its offsets belong together. -/
structure PositionsAgree (d : Document) : Prop where
  /-- A boundary is found back from its position, -/
  offsetAt_positionAt : ∀ {o}, d.IsBoundary o → ¬ d.AfterReturn o →
    d.offsetAt (d.positionAt o) = .ok o
  /-- but between the carriage return and the end of a line the position is outside the line. -/
  outsideLine : ∀ {o}, d.AfterReturn o →
    d.IsBoundary o ∧ d.offsetAt (d.positionAt o) = .error (.outsideLine (d.positionAt o))
  /-- A position is found back from its offset, -/
  positionAt_offsetAt : ∀ {p o}, p.line < d.lineCount → d.offsetAt p = .ok o →
    d.IsBoundary o ∧ d.positionAt o = p
  /-- and lines past the last one stand for the end of the text. -/
  pastLastLine : ∀ {p}, d.lineCount ≤ p.line → d.offsetAt p = .ok d.size
  /-- Positions are in the order of offsets. -/
  mono : ∀ {o o'}, o ≤ o' → (d.positionAt o).le (d.positionAt o')
  /-- An offset inside a character counts as its start, -/
  insideChar : ∀ {o c rest k}, d.RestAt o (c :: rest) → k < c.utf8Size →
    d.positionAt (o + k) = d.positionAt o
  /-- and an offset past the end as the end. -/
  pastEnd : ∀ {o}, d.size ≤ o → d.positionAt o = d.positionAt d.size
  /-- Offsets are in the order of positions. -/
  strictMono : ∀ {p q a b}, p.line < d.lineCount → q.line < d.lineCount →
    d.offsetAt p = .ok a → d.offsetAt q = .ok b → p.Before q → a < b
  /-- A range has a text if its ends have offsets in ascending order, -/
  range_ok : ∀ {range}, (∃ t, d.textOfRange range = .ok t) ↔
    ∃ a b, d.offsetAt range.start = .ok a ∧ d.offsetAt range.stop = .ok b ∧ a ≤ b
  /-- and it is the text between the offsets. -/
  range_text : ∀ {range t a b}, d.textOfRange range = .ok t → d.offsetAt range.start = .ok a →
    d.offsetAt range.stop = .ok b → ∃ rest, d.RestAt a (t ++ rest) ∧ b = a + byteLength t

/-- **Positions and offsets agree**, except after the carriage return at the end of a line. -/
theorem positions_agree (d : Document) : d.PositionsAgree where
  offsetAt_positionAt := by
    rintro _ ⟨rest, front, ht, rfl⟩ hreturn
    rw [afterReturn_byteLength_iff ht] at hreturn
    rw [positionAt_byteLength ht]
    exact (offsetAt_endOf ht).1 hreturn
  outsideLine := by
    rintro o hreturn
    have hboundary : d.IsBoundary o := by
      obtain ⟨start, rest, hrest, rfl, -⟩ := hreturn
      exact (hrest.advance (a := ['\r'])).isBoundary
    obtain ⟨rest, front, ht, rfl⟩ := hboundary
    rw [afterReturn_byteLength_iff ht] at hreturn
    rw [positionAt_byteLength ht]
    exact ⟨⟨rest, front, ht, rfl⟩, (offsetAt_endOf ht).2 hreturn⟩
  positionAt_offsetAt := fun hp h => ⟨isBoundary_of_offsetAt h, positionAt_of_offsetAt hp h⟩
  pastLastLine := offsetAt_of_lineCount_le
  mono := positionAt_mono
  insideChar := by
    rintro _ c rest k ⟨front, ht, rfl⟩ hk
    rw [positionAt_eq ht (by simpa using hk), positionAt_byteLength ht]
  pastEnd := positionAt_of_size_le
  strictMono := offsetAt_lt_of_before
  range_ok := by
    intro range
    constructor
    · rintro ⟨t, ht⟩
      obtain ⟨a, rest, ha, hb, -⟩ := textOfRange_eq_ok_iff.mp ht
      exact ⟨a, _, ha, hb, Nat.le_add_right _ _⟩
    · rintro ⟨a, b, ha, hb, hle⟩
      obtain ⟨t, rest, hrest, rfl⟩ :=
        exists_restAt_append (isBoundary_of_offsetAt ha) (isBoundary_of_offsetAt hb) hle
      exact ⟨t, textOfRange_eq_ok_iff.mpr ⟨a, rest, ha, hb, hrest⟩⟩
  range_text := by
    intro range t a b ht ha hb
    obtain ⟨a', rest, ha', hb', hrest⟩ := textOfRange_eq_ok_iff.mp ht
    obtain rfl := Except.ok.inj (ha.symm.trans ha')
    exact ⟨rest, hrest, Except.ok.inj (hb.symm.trans hb')⟩

/-- The end of a line with a carriage return, and the position behind the return. -/
example : (ofString "é\r\n").offsetAt ⟨0, 1⟩ = .ok 2 ∧
    (ofString "é\r\n").positionAt 3 = ⟨0, 2⟩ ∧
    (ofString "é\r\n").offsetAt ⟨0, 2⟩ = .error (.outsideLine ⟨0, 2⟩) := by
  decide +kernel

end Document

end ShaderAssist
