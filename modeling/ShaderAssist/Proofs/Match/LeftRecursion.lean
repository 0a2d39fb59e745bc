import Mathlib.Data.Finset.Prod
import Mathlib.Logic.Relation
import ShaderAssist.Proofs.Match.Advancing
import ShaderAssist.Proofs.Match.Stability

/-!
# Left recursion

A grammar is descending if no item comes back to itself through items that can come first, and all items
that are referred to advance when they match. While a document is matched with such a grammar no item is
tried at an offset where it is already under way (`nodup_callStack`): every call goes on in the text, or
it goes down among the items that can come first. So there are never more calls under way than there are
items and offsets, and a larger limit of the depth is never met (`uncut_matchDocument`).
-/

namespace ShaderAssist

namespace CompiledGrammar

variable {g : CompiledGrammar}

/-- The item `a` can come first in the item `b`. -/
def Leads (g : CompiledGrammar) (a b : ItemId) : Prop :=
  ∃ item, g.item? b = some item ∧ a ∈ item.leading

/-- No item comes back to itself before a character is read. -/
structure IsDescending (g : CompiledGrammar) : Prop where
  solid : g.IsSolid
  founded : ∀ id item, g.item? id = some item → Acc g.Leads id

/-- An item does not lead to itself. -/
theorem IsDescending.not_transGen (hg : g.IsDescending) {id : ItemId} {item : Item}
    (hitem : g.item? id = some item) : ¬ Relation.TransGen g.Leads id id := by
  have hacc := (hg.founded id item hitem).transGen
  induction hacc with
  | intro id _ ih => exact fun h => ih id h hitem h

end CompiledGrammar

namespace Matcher

variable {m : Matcher} {stack : List (ItemId × Nat)}

/-! ### Call stacks -/

/-- **The calls that are under way** while a document is matched, the innermost one first. A call that was
entered makes the calls that its item consults. -/
inductive CallStack (m : Matcher) : List (ItemId × Nat) → Prop
  | document : CallStack m [(CompiledGrammar.root, 0)]
  | call {id id' : ItemId} {o o' : Nat} {item : Item} {outer : List (ItemId × Nat)} :
      CallStack m ((id, o) :: outer) → m.document.IsBoundary o → outer.length < m.depthLimit →
      m.grammar.item? id = some item →
      Consults (fun attempt => m.matchStep attempt id item o)
        (m.matchAt (m.depthLimit - (outer.length + 1))) id' o' →
      CallStack m ((id', o') :: (id, o) :: outer)

/-- A call comes below another one: it is further on in the text, or at the same place and lower among the
items that can come first. -/
def Below (m : Matcher) (x y : ItemId × Nat) : Prop :=
  y.2 < x.2 ∨ x.2 = y.2 ∧ Relation.TransGen m.grammar.Leads x.1 y.1

theorem Below.trans {x y z : ItemId × Nat} (hxy : m.Below x y) (hyz : m.Below y z) : m.Below x z := by
  rcases hxy with hxy | ⟨hxy, hxy'⟩ <;> rcases hyz with hyz | ⟨hyz, hyz'⟩
  · exact Or.inl (hyz.trans hxy)
  · exact Or.inl (hyz ▸ hxy)
  · exact Or.inl (hxy ▸ hyz)
  · exact Or.inr ⟨hxy.trans hyz, hxy'.trans hyz'⟩

/-- An item of the table at an offset of the text. -/
structure InTable (m : Matcher) (x : ItemId × Nat) : Prop where
  item : ∃ item, m.grammar.item? x.1 = some item
  isBoundary : m.document.IsBoundary x.2

section Descending
variable (hg : m.grammar.IsDescending)
include hg

theorem Below.ne {x y : ItemId × Nat} (h : m.Below x y) (hx : m.InTable x) : x ≠ y := by
  rintro rfl
  rcases h with h | ⟨-, h⟩
  · exact lt_irrefl _ h
  · obtain ⟨item, hitem⟩ := hx.item
    exact hg.not_transGen hitem h

/-- **One call**: it is made for an item of the table, below the call that makes it. -/
theorem below_of_consults {id id' : ItemId} {o o' depth : Nat} {item : Item}
    (ho : m.document.IsBoundary o) (hitem : m.grammar.item? id = some item)
    (h : Consults (fun attempt => m.matchStep attempt id item o) (m.matchAt depth) id' o') :
    m.Below (id', o') (id, o) ∧ m.InTable (id', o') := by
  obtain ⟨script, hfollows, -, hcalls⟩ := callsOnly_matchStep (sound_matchAt m depth) ho id item
  have hcall := hcalls id' o' (hfollows.consults_iff.mp h)
  have hadv : ∀ r ∈ item.references, m.Advancing (m.matchAt depth) r := by
    intro r hr
    obtain ⟨item', hr', hsolid⟩ := hg.solid id item hitem r hr
    exact advancing_matchAt hg.solid depth hr' hsolid
  obtain ⟨item', hitem', -⟩ := hg.solid id item hitem id' hcall.mem
  refine ⟨?_, ⟨item', hitem'⟩, hcall.isBoundary⟩
  rcases Nat.lt_or_eq_of_le hcall.le with hlt | rfl
  · exact Or.inl hlt
  · exact Or.inr ⟨rfl, .single ⟨item, hitem, hcall.leads hadv rfl⟩⟩

/-- **All calls under way**: every one is below those that are further out. -/
theorem pairwise_callStack (hroot : ∃ item, m.grammar.item? CompiledGrammar.root = some item)
    (h : CallStack m stack) : stack.Pairwise m.Below ∧ ∀ x ∈ stack, m.InTable x := by
  induction h with
  | document =>
    refine ⟨List.pairwise_singleton _ _, List.forall_mem_singleton.mpr ⟨hroot, ?_⟩⟩
    exact m.document.restAt_zero.isBoundary
  | call _ ho _ hitem hcall ih =>
    obtain ⟨hpairwise, htable⟩ := ih
    obtain ⟨hbelow, htable'⟩ := below_of_consults hg ho hitem hcall
    refine ⟨.cons (List.forall_mem_cons.mpr ⟨hbelow, fun z hz => ?_⟩) hpairwise,
      List.forall_mem_cons.mpr ⟨htable', htable⟩⟩
    exact hbelow.trans ((List.pairwise_cons.mp hpairwise).1 z hz)

/-- **No item is tried at an offset where it is under way.** -/
theorem nodup_callStack (hroot : ∃ item, m.grammar.item? CompiledGrammar.root = some item)
    (h : CallStack m stack) : stack.Nodup := by
  obtain ⟨hpairwise, htable⟩ := pairwise_callStack hg hroot h
  exact hpairwise.imp_of_mem fun hx _ hbelow => hbelow.ne hg (htable _ hx)

/-- There are no more calls under way than items and offsets. -/
theorem length_callStack_le (hroot : ∃ item, m.grammar.item? CompiledGrammar.root = some item)
    (h : CallStack m stack) : stack.length ≤ m.grammar.items.size * (m.document.size + 1) := by
  have hnodup := nodup_callStack hg hroot h
  obtain ⟨-, htable⟩ := pairwise_callStack hg hroot h
  have hinj : Function.Injective fun x : ItemId × Nat => (x.1.index, x.2) := by
    rintro ⟨⟨i⟩, o⟩ ⟨⟨j⟩, p⟩ hij
    obtain ⟨rfl, rfl⟩ := Prod.mk.inj hij
    rfl
  have hsub : (stack.map fun x => (x.1.index, x.2)).toFinset ⊆
      Finset.range m.grammar.items.size ×ˢ Finset.range (m.document.size + 1) := by
    intro p hp
    obtain ⟨x, hx, rfl⟩ := List.mem_map.mp (List.mem_toFinset.mp hp)
    obtain ⟨item, hitem⟩ := (htable x hx).item
    rw [Finset.mem_product, Finset.mem_range, Finset.mem_range]
    exact ⟨CompiledGrammar.lt_size_of_item? hitem,
      Nat.lt_succ_of_le (htable x hx).isBoundary.le_size⟩
  have hcard := Finset.card_le_card hsub
  rw [List.toFinset_card_of_nodup (hnodup.map hinj), List.length_map, Finset.card_product,
    Finset.card_range, Finset.card_range] at hcard
  exact hcard

end Descending

/-! ### The limit of the depth -/

/-- An attempt that was cut off has as many calls under way as the limit allows, and one more. -/
theorem exists_callStack_of_cut : ∀ (n : Nat) {id : ItemId} {o : Nat} {outer : List (ItemId × Nat)},
    CallStack m ((id, o) :: outer) → outer.length + n = m.depthLimit →
    ¬ (m.matchAt n id o).Uncut → ∃ stack, CallStack m stack ∧ stack.length = m.depthLimit + 1
  | n, id, o, outer, hstack, hlength, hcut => by
    by_cases ho : m.document.IsBoundary o
    case neg =>
      rw [matchAt_outside ho] at hcut
      refine absurd (fun e he => ?_) hcut
      rw [List.mem_singleton.mp he]
      rfl
    cases n with
    | zero => exact ⟨_, hstack, congrArg (· + 1) hlength⟩
    | succ n =>
      rw [matchAt_eq_step ho] at hcut
      cases hitem : m.grammar.item? id with
      | none =>
        rw [hitem] at hcut
        exact absurd (fun e he => by cases he) hcut
      | some item =>
        rw [hitem] at hcut
        obtain ⟨script, hfollows, hevents, -⟩ := callsOnly_matchStep (sound_matchAt m n) ho id item
        unfold Traced.Uncut at hcut
        push Not at hcut
        obtain ⟨e, he, hlimit⟩ := hcut
        rw [hfollows.events_eq] at he
        -- the cut is in one of the calls, since the item itself has no event of this kind
        rcases mem_replay.mp he with he | ⟨id', o', hcall, he⟩
        · obtain ⟨o', rfl⟩ := hevents e he
          exact absurd rfl hlimit
        · have hn : m.depthLimit - (outer.length + 1) = n := by omega
          refine exists_callStack_of_cut n (.call hstack ho (by omega) hitem ?_)
            (by rw [List.length_cons]; omega) fun h => hlimit (h e he)
          rw [hn]
          exact hfollows.consults_iff.mpr hcall

/-- **A limit that is large enough is never met.** -/
theorem uncut_matchDocument (hg : m.grammar.IsDescending)
    (hroot : ∃ item, m.grammar.item? CompiledGrammar.root = some item)
    (hlimit : m.grammar.items.size * (m.document.size + 1) ≤ m.depthLimit) :
    m.matchDocument.Uncut := by
  by_contra hcut
  obtain ⟨stack, hstack, hlength⟩ := exists_callStack_of_cut m.depthLimit .document
    (Nat.zero_add _) hcut
  have := length_callStack_le hg hroot hstack
  omega

end Matcher

end ShaderAssist
