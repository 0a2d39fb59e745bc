import ShaderAssist.Grammar.Compile
import Mathlib.Data.Nat.Basic
import Mathlib.Tactic.Common

/-!
# What compiling does to the tables

Compiling changes the tables under construction in few ways only (`Stable`): an item, a pattern or a
scope is appended, an item is replaced, and the item of a definition or of a token is remembered. A
relation between tables that holds across each of these changes, and that can be chained, holds across
every step of compiling (`Stable.keeps_definition`).

So the table of items never shrinks, and the item of the whole document is still there when its content
is known (`item?_root_of_compile`).
-/

namespace ShaderAssist

namespace Compile

variable {α β : Type} {E : Engine} {R : GrammarBuild → GrammarBuild → Prop}

/-- The relation holds between the tables before and after a step that succeeds. -/
def Keeps (R : GrammarBuild → GrammarBuild → Prop) (x : CompileM α) : Prop :=
  ∀ b a b', x.run b = .ok (a, b') → R b b'

/-- The relation can be chained and holds across every single change of the tables. -/
structure Stable (R : GrammarBuild → GrammarBuild → Prop) : Prop where
  refl : ∀ b, R b b
  trans : ∀ {a b c}, R a b → R b c → R a c
  push : ∀ b item, R b { b with items := b.items.push item }
  replace : ∀ b i item, R b { b with items := b.items.setIfInBounds i item }
  pattern : ∀ b p, R b { b with patterns := b.patterns.push p }
  scope : ∀ b s, R b { b with scopes := b.scopes.push s }
  remember : ∀ b e, R b { b with compiled := e :: b.compiled }
  token : ∀ b e, R b { b with tokens := e :: b.tokens }

/-! ### Single steps -/

theorem run_bind_eq_ok {x : CompileM α} {f : α → CompileM β} {b b' : GrammarBuild} {r : β}
    (h : (x >>= f).run b = .ok (r, b')) : ∃ a c, x.run b = .ok (a, c) ∧ (f a).run c = .ok (r, b') := by
  rw [StateT.run_bind] at h
  rcases hx : x.run b with e | ⟨a, c⟩
  · rw [hx] at h; cases h
  · rw [hx] at h; exact ⟨a, c, rfl, h⟩

namespace Stable

variable (hR : Stable R)
include hR

theorem keeps_pure (a : α) : Keeps R (pure a : CompileM α) := by
  intro b a' b' h
  cases h
  exact hR.refl b

omit hR in
theorem keeps_throw (e : GrammarError) : Keeps R (throw e : CompileM α) := by
  intro b a b' h
  cases h

omit hR in
theorem keeps_throw_bind (e : GrammarError) (f : α → CompileM β) :
    Keeps R ((throw e : CompileM α) >>= f) := by
  intro b a b' h
  cases h

theorem keeps_bind {x : CompileM α} {f : α → CompileM β} (hx : Keeps R x)
    (hf : ∀ a, Keeps R (f a)) : Keeps R (x >>= f) := by
  intro b r b' h
  obtain ⟨a, c, h1, h2⟩ := run_bind_eq_ok h
  exact hR.trans (hx b a c h1) (hf a c r b' h2)

theorem keeps_get : Keeps R (get : CompileM GrammarBuild) := by
  intro b a b' h
  cases h
  exact hR.refl b

omit hR in
theorem keeps_modify {f : GrammarBuild → GrammarBuild} (hf : ∀ b, R b (f b)) :
    Keeps R (modify f : CompileM Unit) := by
  intro b a b' h
  cases h
  exact hf b

theorem keeps_mapM {f : α → CompileM β} (hf : ∀ a, Keeps R (f a)) :
    ∀ as : List α, Keeps R (as.mapM f)
  | [] => by
    rw [List.mapM_nil]
    exact hR.keeps_pure _
  | a :: as => by
    rw [List.mapM_cons]
    exact hR.keeps_bind (hf a) fun _ => hR.keeps_bind (keeps_mapM hf as) fun _ => hR.keeps_pure _

theorem keeps_push (item : Item) : Keeps R (Compile.push item) := by
  intro b a b' h
  cases h
  exact hR.push b item

theorem keeps_replace (id : ItemId) (item : Item) : Keeps R (Compile.replace id item) :=
  keeps_modify fun b => hR.replace b id.index item

theorem keeps_remember (place : Place) (id : ItemId) : Keeps R (Compile.remember place id) :=
  keeps_modify fun b => hR.remember b (place, id)

theorem keeps_remembered (place : Place) {fresh : CompileM ItemId} (hf : Keeps R fresh) :
    Keeps R (remembered place fresh) := by
  refine hR.keeps_bind hR.keeps_get fun b => ?_
  split
  · exact hR.keeps_pure _
  · exact hf

theorem keeps_pushText (text : String) (ignoreCase crossLine : Bool) :
    Keeps R (pushText E text ignoreCase crossLine) := by
  unfold pushText
  dsimp only
  split
  · exact hR.keeps_push _
  · exact keeps_throw _

theorem keeps_pushToken (kind : TokenKind) (source : String) (ignoreCase crossLine : Bool) :
    Keeps R (pushToken E kind source ignoreCase crossLine) := by
  unfold pushToken
  split
  · exact hR.keeps_push _
  · exact keeps_throw _

theorem keeps_token (kind : TokenKind) (crossLine : Bool) :
    Keeps R (Compile.token E kind crossLine) := by
  refine hR.keeps_bind hR.keeps_get fun b => ?_
  split
  · exact hR.keeps_pure _
  · refine hR.keeps_bind (hR.keeps_pushToken _ _ _ _) fun id => ?_
    exact hR.keeps_bind (keeps_modify fun b => hR.token b _) fun _ => hR.keeps_pure _

/-! ### Elements and definitions -/

section Define
variable {define : Definition → CompileM ItemId} (hd : ∀ d, Keeps R (define d)) (g : Grammar)
  (place : Place) (p : PatternDef)
include hd

theorem keeps_reference (name : String) : Keeps R (reference E g define place p name) := by
  unfold reference
  dsimp only
  split
  · exact hR.keeps_push _
  · split
    · exact hR.keeps_bind (hR.keeps_token _ _) fun _ => hR.keeps_push _
    · split
      · exact hR.keeps_bind (hd _) fun _ => hR.keeps_push _
      · exact hR.keeps_bind (hR.keeps_token _ _) fun _ => hR.keeps_push _

omit hd in
theorem keeps_closeSequence (es : List SequenceElement) : Keeps R (closeSequence p es) := by
  unfold closeSequence
  split
  · exact keeps_throw _
  · exact hR.keeps_pure _
  · exact hR.keeps_push _

set_option linter.unusedSectionVars false in
mutual

theorem keeps_element : ∀ e : Element, Keeps R (element E g define place p e)
  | .space => by
    rw [element]
    split
    · exact hR.keeps_bind (hR.keeps_push _) fun _ => hR.keeps_pure _
    · exact hR.keeps_pure _
  | .text text => by
    rw [element]
    exact hR.keeps_bind (hR.keeps_pushText _ _ _) fun _ => hR.keeps_pure _
  | .reference name => by
    rw [element]
    exact hR.keeps_bind (hR.keeps_reference hd g place p name) fun _ => hR.keeps_pure _
  | .scope name => by
    rw [element]
    split
    · exact hR.keeps_bind (hd _) fun _ => hR.keeps_pure _
    · exact keeps_throw _
  | .regex source => by
    rw [element]
    exact hR.keeps_bind (hR.keeps_pushToken _ _ _ _) fun _ => hR.keeps_pure _
  | .optional inner repeats => by
    rw [element]
    refine hR.keeps_bind (keeps_elements inner) fun es => ?_
    exact hR.keeps_bind (hR.keeps_closeSequence p es) fun _ => hR.keeps_pure _

theorem keeps_elements : ∀ es : List Element, Keeps R (elements E g define place p es)
  | [] => by
    rw [elements]
    exact hR.keeps_pure _
  | e :: es => by
    rw [elements]
    refine hR.keeps_bind (keeps_element e) fun first => ?_
    exact hR.keeps_bind (keeps_elements es) fun _ => hR.keeps_pure _

end

theorem keeps_alternative (source : String) : Keeps R (alternative E g define place p source) := by
  unfold alternative
  split
  · exact keeps_throw _
  · exact hR.keeps_bind (hR.keeps_elements hd g place p _) fun es => hR.keeps_closeSequence p es

theorem keeps_freshPattern : Keeps R (freshPattern E g define place p) := by
  unfold freshPattern
  dsimp only
  split
  · exact keeps_throw_bind _ _
  refine hR.keeps_bind hR.keeps_get fun b => ?_
  refine hR.keeps_bind (keeps_modify fun b => hR.pattern b _) fun _ => ?_
  refine hR.keeps_bind (hR.keeps_push _) fun id => ?_
  refine hR.keeps_bind (hR.keeps_remember place id) fun _ => ?_
  refine hR.keeps_bind (hR.keeps_mapM (hR.keeps_alternative hd g place p) _) fun as => ?_
  exact hR.keeps_bind (hR.keeps_replace id _) fun _ => hR.keeps_pure _

theorem keeps_freshScope (s : ScopeDef) : Keeps R (freshScope E define place s) := by
  unfold freshScope
  dsimp only
  split
  · exact keeps_throw_bind _ _
  refine hR.keeps_bind hR.keeps_get fun b => ?_
  refine hR.keeps_bind (keeps_modify fun b => hR.scope b _) fun _ => ?_
  refine hR.keeps_bind (hR.keeps_pushText _ _ _) fun opening => ?_
  refine hR.keeps_bind (hR.keeps_pushText _ _ _) fun closing => ?_
  refine hR.keeps_bind (hR.keeps_push _) fun id => ?_
  refine hR.keeps_bind (hR.keeps_remember place id) fun _ => ?_
  refine hR.keeps_bind (hR.keeps_mapM hd _) fun body => ?_
  exact hR.keeps_bind (hR.keeps_replace id _) fun _ => hR.keeps_pure _

end Define

/-- **A stable relation holds across the compilation of a definition.** -/
theorem keeps_definition (g : Grammar) : ∀ (n : Nat) (d : Definition), Keeps R (definition E g n d)
  | 0, d => hR.keeps_remembered d.place (keeps_throw _)
  | n + 1, .pattern place p =>
    hR.keeps_remembered place (hR.keeps_freshPattern (keeps_definition g n) g place p)
  | n + 1, .scope place s =>
    hR.keeps_remembered place (hR.keeps_freshScope (keeps_definition g n) place s)

end Stable

/-! ### The item of the whole document -/

/-- The table of items does not shrink. -/
def Grows (b b' : GrammarBuild) : Prop :=
  b.items.size ≤ b'.items.size

theorem stable_grows : Stable Grows where
  refl _ := le_rfl
  trans := le_trans
  push b item := by simp [Grows]
  replace b i item := by simp [Grows]
  pattern _ _ := le_rfl
  scope _ _ := le_rfl
  remember _ _ := le_rfl
  token _ _ := le_rfl

end Compile

/-- **The first item of a compiled grammar is the whole document.** -/
theorem item?_root_of_compile {E : Engine} {g : Grammar} {c : CompiledGrammar} (h : g.compile E = .ok c) :
    ∃ body, c.item? CompiledGrammar.root = some (.grammar body) := by
  unfold Grammar.compile at h
  rcases hd : (Compile.document E g).run {} with e | ⟨u, b⟩
  · rw [hd] at h; cases h
  rw [hd] at h
  obtain rfl : CompiledGrammar.mk g.name b.items b.patterns b.scopes = c := Except.ok.inj h
  unfold Compile.document at hd
  dsimp only at hd
  split at hd
  · cases hd
  obtain ⟨root, b1, h1, hd1⟩ := Compile.run_bind_eq_ok hd
  obtain ⟨body, b2, h2, hd2⟩ := Compile.run_bind_eq_ok hd1
  have hgrows : Compile.Grows b1 b2 := by
    refine Compile.stable_grows.keeps_mapM ?_ _ b1 body b2 h2
    exact Compile.stable_grows.keeps_definition g _
  obtain ⟨rfl, rfl⟩ := Prod.mk.inj (Except.ok.inj h1)
  obtain ⟨-, rfl⟩ := Prod.mk.inj (Except.ok.inj hd2)
  have hpos : 0 < b2.items.size := lt_of_lt_of_le (by simp) hgrows
  refine ⟨body, ?_⟩
  unfold CompiledGrammar.item? CompiledGrammar.root
  exact Array.getElem?_setIfInBounds_self_of_lt hpos

/-- Blocks in braces, with values and further blocks in them. -/
def blockGrammar : Grammar where
  patterns := [.named "Block" ["\x7bblock\x7d"]]
  scopeRepository := [("block", {
    opening := "\x7b"
    closing := "\x7d"
    patterns := [.named "Value" ["value [on] ;"], .named "Block" ["\x7bblock\x7d"]] })]

theorem exists_compile_blockGrammar : ∃ c, blockGrammar.compile .standard = .ok c := by
  have h : (blockGrammar.compile .standard).isOk = true := by decide +kernel
  rcases hc : blockGrammar.compile .standard with e | c
  · rw [hc] at h; cases h
  · exact ⟨c, rfl⟩

end ShaderAssist
