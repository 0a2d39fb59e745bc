import Mathlib.Tactic.Common
import ShaderAssist.Pattern.Reader
import ShaderAssist.Regex.Reader

/-!
# Texts spelled out

The characters of a text are decoded from its bytes, which takes long where a check is evaluated by reducing
terms. `spell` gives the same characters, and takes the bytes of an ASCII text as they are. Patterns and
regular expressions can be read from texts that are spelled out (`Pattern.readElements_eq_readSpelled`,
`Regex.ofSource?_eq_ofSpelled?`): checks of whole grammars evaluate these.
-/

namespace ShaderAssist

/-- The characters of a text. -/
def spell (s : String) : List Char :=
  let codes := s.toByteArray.data.toList.map UInt8.toNat
  if codes.all (· < 0x80) then codes.map Char.ofNat else s.toList

/-- A character whose bytes are ASCII is its only byte. -/
theorem map_ofNat_utf8EncodeChar {c : Char} (h : ∀ b ∈ String.utf8EncodeChar c, b.toNat < 0x80) :
    (String.utf8EncodeChar c).map (fun b => Char.ofNat b.toNat) = [c] := by
  by_cases hc : c.val.toNat ≤ 127
  · have henc : String.utf8EncodeChar c = [UInt8.ofNat c.toNat] := by
      rw [String.utf8EncodeChar, if_pos hc]
      rfl
    have hmod : c.toNat % 256 = c.toNat := Nat.mod_eq_of_lt (Nat.lt_of_le_of_lt hc (by decide))
    rw [henc, List.map_singleton, UInt8.toNat_ofNat', hmod, Char.ofNat_toNat]
  · -- the last byte of a longer character is none of ASCII
    exfalso
    have hlast : UInt8.ofNat (c.val.toNat % 64 + 128) ∈ String.utf8EncodeChar c := by
      rw [String.utf8EncodeChar, if_neg hc]
      split_ifs <;> simp
    have := h _ hlast
    rw [UInt8.toNat_ofNat'] at this
    omega

theorem spell_eq_toList (s : String) : spell s = s.toList := by
  obtain ⟨cs, rfl⟩ : ∃ cs, s = String.ofList cs := ⟨s.toList, String.ofList_toList.symm⟩
  unfold spell
  rw [String.toByteArray_ofList, List.utf8Encode, List.toList_data_toByteArray, String.toList_ofList]
  dsimp only
  split_ifs with hascii
  · rw [List.map_map]
    simp only [List.all_map, List.all_eq_true, List.mem_flatMap, Function.comp_apply,
      decide_eq_true_eq] at hascii
    induction cs with
    | nil => rfl
    | cons c cs ih =>
      rw [List.flatMap_cons, List.map_append, ih fun b ⟨c', hc', hb⟩ => hascii b ⟨c', by simp [hc'], hb⟩]
      have := map_ofNat_utf8EncodeChar fun b hb => hascii b ⟨c, by simp, hb⟩
      exact congrArg (· ++ cs) this
  · rfl

namespace Pattern

/-- The elements of a pattern that is spelled out. -/
def readSpelled (source : String) : Except PatternError (List Element) :=
  match readFrom [] [] [] (spell source) with
  | .ok [] => .error .emptyPattern
  | result => result

theorem readElements_eq_readSpelled (source : String) : readElements source = readSpelled source := by
  rewrite [readElements, readSpelled, spell_eq_toList]
  rfl

end Pattern

namespace Regex

/-- The expression that a text writes, if it is spelled out. -/
def ofSpelled? (source : String) : Option Regex := do
  let cs := spell source
  let ⟨r, depth⟩ ← readPieces? cs.length ⟨⟨{}, none, [], [], false⟩, [], 1, []⟩ cs
  if depth ≤ maxDepth && r.fits then some r else none

theorem ofSource?_eq_ofSpelled? (source : String) : ofSource? source = ofSpelled? source := by
  rw [ofSource?, ofSpelled?, spell_eq_toList, String.length_toList]

end Regex

end ShaderAssist
