import ShaderAssist.Cg.TypeShape
import ShaderAssist.Vocabulary
import Mathlib.Data.List.Basic
import Mathlib.Tactic.Common

/-!
# Shapes and their names

How the name of a shape is written, character by character (`TypeShape.WrittenAs`). Names are read in exactly this way
(`writtenAs_of_ofName?`, `WrittenAs.ofName?`), so a name that has a shape is the name of this shape, and all its
numbers of components are from 1 to 4 (`TypeShape.of_ofName?`). The name of a scalar, of its vectors and of its
matrices differ in length.
-/

namespace ShaderAssist

namespace TypeShape

/-! ### Digits -/

theorem dimension?_digitChar {n : Nat} (h : n ∈ Vocabulary.dimensions) : dimension? n.digitChar = some n := by
  revert n
  decide

theorem dimension?_eq_some_iff {c : Char} {n : Nat} :
    dimension? c = some n ↔ n ∈ Vocabulary.dimensions ∧ c = n.digitChar := by
  refine ⟨fun h => ?_, fun ⟨hn, hc⟩ => hc ▸ dimension?_digitChar hn⟩
  unfold dimension? at h
  split_ifs at h with hc
  obtain ⟨hlow, hhigh⟩ := Bool.and_eq_true_iff.mp hc
  have hlow : 49 ≤ c.toNat := of_decide_eq_true hlow
  have hhigh : c.toNat ≤ 52 := of_decide_eq_true hhigh
  have hcases : c.toNat = 49 ∨ c.toNat = 50 ∨ c.toNat = 51 ∨ c.toNat = 52 := by omega
  have hchar : Char.ofNat c.toNat = c := Char.ofNat_toNat c
  obtain rfl := Option.some.inj h
  rcases hcases with hc | hc | hc | hc
  all_goals
    rw [hc] at hchar
    rw [← hchar]
    decide

theorem lt_ten_of_mem_dimensions {n : Nat} (h : n ∈ Vocabulary.dimensions) : n < 10 := by
  revert n
  decide

theorem isDigit_digitChar {n : Nat} (h : n ∈ Vocabulary.dimensions) : n.digitChar.isDigit := by
  rw [Nat.isDigit_digitChar]
  exact decide_eq_true (lt_ten_of_mem_dimensions h)

/-- A number of components is written as its digit. -/
theorem append_toString (s : String) {n : Nat} (h : n ∈ Vocabulary.dimensions) :
    s ++ toString n = s.push n.digitChar := by
  rw [Nat.toString_eq_repr, Nat.repr_of_lt (lt_ten_of_mem_dimensions h), String.append_singleton]

/-! ### How names are written -/

theorem name_vector (scalar : String) {n : Nat} (hn : n ∈ Vocabulary.dimensions) :
    (mk scalar n none).name = scalar.push n.digitChar :=
  append_toString scalar hn

theorem name_matrix (scalar : String) {rows columns : Nat} (hrows : rows ∈ Vocabulary.dimensions)
    (hcolumns : columns ∈ Vocabulary.dimensions) : (mk scalar rows (some columns)).name =
      ((scalar.push rows.digitChar).push 'x').push columns.digitChar := by
  have hx : "x" = String.singleton 'x' := by decide
  calc (mk scalar rows (some columns)).name
      = scalar ++ toString rows ++ "x" ++ toString columns := rfl
    _ = scalar.push rows.digitChar ++ "x" ++ toString columns := by rw [append_toString scalar hrows]
    _ = (scalar.push rows.digitChar).push 'x' ++ toString columns := by rw [hx, String.append_singleton]
    _ = ((scalar.push rows.digitChar).push 'x').push columns.digitChar := append_toString _ hcolumns

theorem length_name_vector (scalar : String) {n : Nat} (hn : n ∈ Vocabulary.dimensions) :
    (mk scalar n none).name.length = scalar.length + 1 := by
  rw [name_vector scalar hn, String.length_push]

theorem length_name_matrix (scalar : String) {rows columns : Nat} (hrows : rows ∈ Vocabulary.dimensions)
    (hcolumns : columns ∈ Vocabulary.dimensions) :
    (mk scalar rows (some columns)).name.length = scalar.length + 3 := by
  rw [name_matrix scalar hrows hcolumns, String.length_push, String.length_push, String.length_push]

/-- The last character is a digit. -/
def EndsInDigit (s : String) : Prop :=
  ∃ (front : String) (d : Char), d.isDigit ∧ s = front.push d

/-- The last characters are a digit and an `x`, so that a digit behind them is a number of columns. -/
def EndsInRows (s : String) : Prop :=
  ∃ head, EndsInDigit head ∧ s = head.push 'x'

/-- **How the name of a shape is written.** -/
inductive WrittenAs : TypeShape → String → Prop where
  | vector {scalar : String} {rows : Nat} (hscalar : scalar ≠ "") (hrows : rows ∈ Vocabulary.dimensions)
    (hends : ¬ EndsInRows scalar) : WrittenAs ⟨scalar, rows, none⟩ (scalar.push rows.digitChar)
  | matrix {scalar : String} {rows columns : Nat} (hscalar : scalar ≠ "") (hrows : rows ∈ Vocabulary.dimensions)
    (hcolumns : columns ∈ Vocabulary.dimensions) :
    WrittenAs ⟨scalar, rows, some columns⟩ (((scalar.push rows.digitChar).push 'x').push columns.digitChar)

/-- The numbers of components are those that vectors can have. -/
structure InRange (shape : TypeShape) : Prop where
  rows : shape.rows ∈ Vocabulary.dimensions
  columns : ∀ n ∈ shape.columns, n ∈ Vocabulary.dimensions

namespace WrittenAs

variable {shape : TypeShape} {name : String}

theorem inRange (h : shape.WrittenAs name) : shape.InRange := by
  cases h with
  | vector _ hrows _ => exact ⟨hrows, by simp⟩
  | matrix _ hrows hcolumns => exact ⟨hrows, by simpa using hcolumns⟩

theorem name_eq (h : shape.WrittenAs name) : shape.name = name := by
  cases h with
  | vector _ hrows _ => exact name_vector _ hrows
  | matrix _ hrows hcolumns => exact name_matrix _ hrows hcolumns

end WrittenAs

/-! ### How names are read -/

theorem reverse_toList_push (s : String) (c : Char) : (s.push c).toList.reverse = c :: s.toList.reverse := by
  rw [String.toList_push, List.reverse_append]
  rfl

theorem eq_push_of_reverse {s : String} {c : Char} {cs : List Char} (h : s.toList.reverse = c :: cs) :
    s = (String.ofList cs.reverse).push c := by
  rw [← String.toList_inj, String.toList_push, String.toList_ofList, ← List.reverse_cons, ← h,
    List.reverse_reverse]

/-- The last character is the number of rows, and the scalar stands before it. -/
theorem ofReversed?_push_eq_some_iff {columns : Option Nat} {scalar : String} {d : Char} {shape : TypeShape} :
    ofReversed? columns (scalar.push d).toList.reverse = some shape ↔
      ∃ rows ∈ Vocabulary.dimensions, scalar ≠ "" ∧ d = rows.digitChar ∧ shape = ⟨scalar, rows, columns⟩ := by
  have hscalar : scalar.toList.reverse.isEmpty ↔ scalar = "" := by
    rw [List.isEmpty_iff, List.reverse_eq_nil_iff, String.toList_eq_nil_iff]
  rw [reverse_toList_push]
  unfold ofReversed?
  dsimp only
  rw [List.reverse_reverse, String.ofList_toList]
  constructor
  · intro h
    obtain ⟨rows, hrows, h⟩ := Option.bind_eq_some_iff.mp h
    obtain ⟨hrows, hd⟩ := dimension?_eq_some_iff.mp hrows
    split_ifs at h with hempty
    exact ⟨rows, hrows, fun hs => hempty (hscalar.mpr hs), hd, (Option.some.inj h).symm⟩
  · rintro ⟨rows, hrows, hne, rfl, rfl⟩
    refine Option.bind_eq_some_iff.mpr ⟨rows, dimension?_digitChar hrows, ?_⟩
    exact if_neg fun hempty => hne (hscalar.mp hempty)

/-- Behind a digit and an `x`, the last character is the number of columns. -/
theorem ofName?_of_endsInDigit {head : String} (h : EndsInDigit head) (c : Char) :
    ofName? ((head.push 'x').push c) =
      (dimension? c).bind fun columns => ofReversed? (some columns) head.toList.reverse := by
  obtain ⟨front, d, hd, rfl⟩ := h
  unfold ofName?
  rw [reverse_toList_push, reverse_toList_push, reverse_toList_push]
  cases hc : dimension? c with
  | none => simp [hc]
  | some columns => simp [hc, hd]

/-- Anywhere else it is the number of rows. -/
theorem ofName?_of_not_endsInRows {scalar : String} (h : ¬ EndsInRows scalar) (c : Char) :
    ofName? (scalar.push c) = ofReversed? none (scalar.push c).toList.reverse := by
  unfold ofName?
  split
  · next c' d rest hcs =>
    have hends : ¬ d.isDigit := by
      intro hd
      rw [reverse_toList_push] at hcs
      refine h ⟨_, ⟨String.ofList rest.reverse, d, hd, eq_push_of_reverse ?_⟩,
        eq_push_of_reverse (List.cons.inj hcs).2⟩
      simp
    rw [hcs]
    split
    · rw [if_neg hends]
    · next hc =>
      -- a last character that is no number of components is refused as a number of rows too
      unfold ofReversed?
      dsimp only
      rw [hc]
      rfl
  · rfl

/-- What is read is written like this. -/
theorem writtenAs_of_ofName? {name : String} {shape : TypeShape} (h : ofName? name = some shape) :
    shape.WrittenAs name := by
  induction name using String.push_induction with
  | empty => cases h
  | push scalar c _ =>
    -- what stands before the last character decides whether it is a number of columns or of rows
    by_cases hends : EndsInRows scalar
    · obtain ⟨head, hdigit, rfl⟩ := hends
      rw [ofName?_of_endsInDigit hdigit] at h
      obtain ⟨columns, hc, hshape⟩ := Option.bind_eq_some_iff.mp h
      obtain ⟨hcolumns, rfl⟩ := dimension?_eq_some_iff.mp hc
      obtain ⟨scalar, d, -, rfl⟩ := hdigit
      obtain ⟨rows, hrows, hscalar, rfl, rfl⟩ := ofReversed?_push_eq_some_iff.mp hshape
      exact .matrix hscalar hrows hcolumns
    · rw [ofName?_of_not_endsInRows hends] at h
      obtain ⟨rows, hrows, hscalar, rfl, rfl⟩ := ofReversed?_push_eq_some_iff.mp h
      exact .vector hscalar hrows hends

/-- What is written like this is read. -/
theorem WrittenAs.ofName? {name : String} {shape : TypeShape} (h : shape.WrittenAs name) :
    TypeShape.ofName? name = some shape := by
  cases h with
  | @vector scalar rows hscalar hrows hends =>
    rw [ofName?_of_not_endsInRows hends]
    exact ofReversed?_push_eq_some_iff.mpr ⟨rows, hrows, hscalar, rfl, rfl⟩
  | @matrix scalar rows columns hscalar hrows hcolumns =>
    rw [ofName?_of_endsInDigit ⟨scalar, _, isDigit_digitChar hrows, rfl⟩, dimension?_digitChar hcolumns]
    exact ofReversed?_push_eq_some_iff.mpr ⟨rows, hrows, hscalar, rfl, rfl⟩

/-- **A name that has a shape is the name of the shape.** -/
theorem of_ofName? {name : String} {shape : TypeShape} (h : ofName? name = some shape) :
    shape.name = name ∧ shape.InRange :=
  ⟨(writtenAs_of_ofName? h).name_eq, (writtenAs_of_ofName? h).inRange⟩

end TypeShape

end ShaderAssist
