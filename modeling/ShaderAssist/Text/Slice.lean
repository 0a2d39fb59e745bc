/-!
# Slices

Offsets into a text count the bytes of its UTF-8 form. `takeBytes` cuts a text at an offset and fails
where the offset is no boundary between characters. A `Slice` is a text that is read from the front,
kept together with its length in bytes, so that the length of what was read is a subtraction.
-/

namespace ShaderAssist

/-- Number of bytes of a text in UTF-8. -/
def byteLength : List Char → Nat
  | [] => 0
  | c :: cs => c.utf8Size + byteLength cs

@[simp]
theorem byteLength_nil : byteLength [] = 0 := rfl

@[simp]
theorem byteLength_cons (c : Char) (cs : List Char) :
    byteLength (c :: cs) = c.utf8Size + byteLength cs := rfl

@[simp]
theorem byteLength_append (s t : List Char) :
    byteLength (s ++ t) = byteLength s + byteLength t := by
  induction s with
  | nil => simp
  | cons c s ih => simp [ih, Nat.add_assoc]

/-- The first `n` bytes of a text; none if `n` is inside a character or past the end. -/
def takeBytes : Nat → List Char → Option (List Char)
  | 0, _ => some []
  | _ + 1, [] => none
  | n + 1, c :: cs =>
    if c.utf8Size ≤ n + 1 then (takeBytes (n + 1 - c.utf8Size) cs).map (c :: ·) else none

/-- A number of bytes that a text starts with. -/
def IsPrefixLength (cs : List Char) (n : Nat) : Prop :=
  ∃ word rest, cs = word ++ rest ∧ n = byteLength word

theorem IsPrefixLength.zero (cs : List Char) : IsPrefixLength cs 0 := ⟨[], cs, rfl, rfl⟩

theorem IsPrefixLength.cons {cs : List Char} {n : Nat} (c : Char) (h : IsPrefixLength cs n) :
    IsPrefixLength (c :: cs) (c.utf8Size + n) := by
  obtain ⟨word, rest, rfl, rfl⟩ := h
  exact ⟨c :: word, rest, rfl, rfl⟩

/-- A text to be read from the front, with its length in bytes. -/
structure Slice where
  chars : List Char
  size : Nat
  size_eq : size = byteLength chars

namespace Slice

/-- The slice of a whole text. -/
def ofList (chars : List Char) : Slice :=
  ⟨chars, byteLength chars, rfl⟩

/-- The empty slice. -/
def nil : Slice :=
  ⟨[], 0, rfl⟩

/-- The slice with one more character in front. -/
def cons (c : Char) (s : Slice) : Slice :=
  ⟨c :: s.chars, c.utf8Size + s.size, by simp [s.size_eq]⟩

instance : Inhabited Slice := ⟨nil⟩

/-- A slice is determined by its characters. -/
theorem ext {s t : Slice} (h : s.chars = t.chars) : s = t := by
  cases s; cases t; simp_all

end Slice

/-- The slices of a text from every byte offset up to its length on, none at an offset inside a
character. The first component is the slice of the whole text. -/
def slicesOf (text : List Char) : Slice × List (Option Slice) :=
  text.foldr
    (fun c acc =>
      let s := acc.1.cons c
      (s, some s :: (List.replicate (c.utf8Size - 1) none ++ acc.2)))
    (.nil, [some .nil])

end ShaderAssist
