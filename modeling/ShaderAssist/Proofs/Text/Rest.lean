import ShaderAssist.Text.Document
import Mathlib.Tactic.Common

/-!
# What follows an offset

A byte offset of a document is a *boundary* if it stands between two characters or at an end of the
text. `Document.RestAt d o rest` says that `o` is a boundary and that `rest` is the text from there on;
the table of slices holds exactly these rests (`sliceAt_eq_some_iff`). Offsets are moved forward along
the rest: after a piece `a` of it comes the boundary `o + byteLength a` (`RestAt.advance`).
-/

namespace ShaderAssist

/-! ### Lengths in bytes -/

theorem byteLength_pos {cs : List Char} (h : cs ≠ []) : 0 < byteLength cs := by
  obtain ⟨c, cs, rfl⟩ := List.exists_cons_of_ne_nil h
  have := c.utf8Size_pos
  rw [byteLength_cons]
  omega

@[simp]
theorem byteLength_eq_zero {cs : List Char} : byteLength cs = 0 ↔ cs = [] := by
  constructor
  · intro h
    by_contra hne
    have := byteLength_pos hne
    omega
  · rintro rfl
    rfl

/-- A prefix of a text is determined by its length in bytes. -/
theorem append_inj_of_byteLength : ∀ {a a' b b' : List Char}, a ++ b = a' ++ b' →
    byteLength a = byteLength a' → a = a' ∧ b = b'
  | [], a', b, b', h, hl => by
    obtain rfl := byteLength_eq_zero.mp hl.symm
    exact ⟨rfl, h⟩
  | c :: a, [], b, b', h, hl => by
    have := byteLength_eq_zero.mp hl
    simp at this
  | c :: a, c' :: a', b, b', h, hl => by
    simp only [List.cons_append, List.cons.injEq] at h
    obtain ⟨rfl, h⟩ := h
    obtain ⟨rfl, rfl⟩ := append_inj_of_byteLength h (by simpa using hl)
    exact ⟨rfl, rfl⟩

theorem takeBytes_append : ∀ a b : List Char, takeBytes (byteLength a) (a ++ b) = some a
  | [], b => by rw [byteLength_nil, takeBytes]
  | c :: a, b => by
    have hc := c.utf8Size_pos
    obtain ⟨n, hn⟩ := Nat.exists_eq_succ_of_ne_zero (show c.utf8Size + byteLength a ≠ 0 by omega)
    rw [byteLength_cons, hn, List.cons_append, takeBytes, if_pos (by omega),
      show n + 1 - c.utf8Size = byteLength a by omega, takeBytes_append a b]
    rfl

/-! ### The table of slices -/

theorem chars_slicesOf : ∀ text : List Char, (slicesOf text).1.chars = text
  | [] => rfl
  | c :: text => congrArg (c :: ·) (chars_slicesOf text)

theorem slicesOf_cons (c : Char) (text : List Char) :
    (slicesOf (c :: text)).2 = some (slicesOf (c :: text)).1 ::
      (List.replicate (c.utf8Size - 1) none ++ (slicesOf text).2) := rfl

theorem length_slicesOf : ∀ text : List Char, (slicesOf text).2.length = byteLength text + 1
  | [] => rfl
  | c :: text => by
    have := c.utf8Size_pos
    rw [slicesOf_cons, List.length_cons, List.length_append, List.length_replicate,
      length_slicesOf text, byteLength_cons]
    omega

/-- At the length of a prefix the table holds what follows the prefix. -/
theorem getElem?_slicesOf : ∀ (front rest : List Char),
    (slicesOf (front ++ rest)).2[byteLength front]? = some (some (Slice.ofList rest))
  | [], [] => rfl
  | [], c :: rest => by
    have h : (slicesOf (c :: rest)).1 = Slice.ofList (c :: rest) :=
      Slice.ext (chars_slicesOf (c :: rest))
    rw [List.nil_append, byteLength_nil, slicesOf_cons, h]
    rfl
  | c :: front, rest => by
    have hc := c.utf8Size_pos
    rw [List.cons_append, slicesOf_cons, byteLength_cons,
      show c.utf8Size + byteLength front = (c.utf8Size - 1 + byteLength front) + 1 by omega,
      List.getElem?_cons_succ, List.getElem?_append_right (by simp), List.length_replicate,
      show c.utf8Size - 1 + byteLength front - (c.utf8Size - 1) = byteLength front by omega]
    exact getElem?_slicesOf front rest

/-- Every slice of the table stands at the length of a prefix. -/
theorem exists_front_of_slicesOf : ∀ {text : List Char} {o : Nat} {s : Slice},
    (slicesOf text).2[o]? = some (some s) → ∃ front, text = front ++ s.chars ∧ byteLength front = o
  | [], 0, s, h => by
    simp only [slicesOf, List.foldr_nil, List.getElem?_cons_zero, Option.some.injEq] at h
    exact ⟨[], by rw [← h]; rfl, rfl⟩
  | [], o + 1, s, h => by simp [slicesOf] at h
  | c :: text, 0, s, h => by
    rw [slicesOf_cons, List.getElem?_cons_zero, Option.some.injEq, Option.some.injEq] at h
    exact ⟨[], by rw [← h, chars_slicesOf]; rfl, rfl⟩
  | c :: text, o + 1, s, h => by
    have hc := c.utf8Size_pos
    rw [slicesOf_cons, List.getElem?_cons_succ] at h
    rcases Nat.lt_or_ge o (c.utf8Size - 1) with ho | ho
    · rw [List.getElem?_append_left (by simpa using ho),
        List.getElem?_replicate_of_lt ho] at h
      simp at h
    · rw [List.getElem?_append_right (by simpa using ho), List.length_replicate] at h
      obtain ⟨front, rfl, hf⟩ := exists_front_of_slicesOf h
      exact ⟨c :: front, rfl, by rw [byteLength_cons, hf]; omega⟩

namespace Document

variable {d : Document}

theorem size_eq (d : Document) : d.size = byteLength d.text := by
  unfold size
  rw [d.slices_eq, List.size_toArray, length_slicesOf]
  rfl

/-- The offset is a boundary of the document, and `rest` is the text from there on. -/
def RestAt (d : Document) (offset : Nat) (rest : List Char) : Prop :=
  ∃ front, d.text = front ++ rest ∧ byteLength front = offset

/-- The offset stands between two characters or at an end of the text. -/
def IsBoundary (d : Document) (offset : Nat) : Prop :=
  ∃ rest, d.RestAt offset rest

/-- **The slice at an offset** is the text from there on. -/
theorem sliceAt_eq_some_iff {o : Nat} {s : Slice} : d.sliceAt o = some s ↔ d.RestAt o s.chars := by
  unfold sliceAt RestAt
  rw [d.slices_eq, List.getElem?_toArray, Option.getD_eq_iff]
  constructor
  · rintro (h | ⟨-, h⟩)
    · exact exists_front_of_slicesOf h
    · simp at h
  · rintro ⟨front, ht, rfl⟩
    left
    rw [ht, getElem?_slicesOf]
    exact congrArg some (congrArg some (Slice.ext rfl))

theorem isSome_sliceAt_iff {o : Nat} : (d.sliceAt o).isSome ↔ d.IsBoundary o := by
  rw [Option.isSome_iff_exists]
  constructor
  · rintro ⟨s, hs⟩
    exact ⟨s.chars, sliceAt_eq_some_iff.mp hs⟩
  · rintro ⟨rest, h⟩
    exact ⟨Slice.ofList rest, sliceAt_eq_some_iff.mpr h⟩

namespace RestAt

variable {o p : Nat} {a b rest rest' : List Char}

theorem sliceAt (h : d.RestAt o rest) : d.sliceAt o = some (Slice.ofList rest) :=
  sliceAt_eq_some_iff.mpr h

theorem isBoundary (h : d.RestAt o rest) : d.IsBoundary o := ⟨rest, h⟩

theorem unique (h : d.RestAt o rest) (h' : d.RestAt o rest') : rest = rest' := by
  obtain ⟨front, ht, hf⟩ := h
  obtain ⟨front', ht', hf'⟩ := h'
  exact (append_inj_of_byteLength (ht.symm.trans ht') (hf.trans hf'.symm)).2

/-- Behind a piece of the rest comes the next boundary. -/
theorem advance (h : d.RestAt o (a ++ b)) : d.RestAt (o + byteLength a) b := by
  obtain ⟨front, ht, rfl⟩ := h
  exact ⟨front ++ a, by rw [ht, List.append_assoc], byteLength_append front a⟩

theorem add_byteLength (h : d.RestAt o rest) : o + byteLength rest = d.size := by
  obtain ⟨front, ht, rfl⟩ := h
  rw [size_eq, ht, byteLength_append]

theorem textBetween (h : d.RestAt o (a ++ b)) :
    d.textBetween o (o + byteLength a) = some a := by
  unfold Document.textBetween
  rw [if_pos (Nat.le_add_right _ _), h.sliceAt, Nat.add_sub_cancel_left]
  exact takeBytes_append a b

end RestAt

theorem restAt_zero (d : Document) : d.RestAt 0 d.text := ⟨[], rfl, rfl⟩

theorem restAt_size (d : Document) : d.RestAt d.size [] :=
  ⟨d.text, (List.append_nil _).symm, (size_eq d).symm⟩

theorem IsBoundary.le_size {o : Nat} (h : d.IsBoundary o) : o ≤ d.size := by
  obtain ⟨rest, h⟩ := h
  have := h.add_byteLength
  omega

theorem IsBoundary.isNone_sliceAt {o : Nat} (h : d.IsBoundary o) :
    (d.sliceAt o).isNone = false := by
  rw [Option.isNone_eq_false_iff]
  exact isSome_sliceAt_iff.mpr h

theorem isNone_sliceAt {o : Nat} (h : ¬ d.IsBoundary o) : (d.sliceAt o).isNone := by
  rw [← Option.not_isSome, Bool.not_eq_true', ← Bool.not_eq_true, isSome_sliceAt_iff]
  exact h

end Document

end ShaderAssist
