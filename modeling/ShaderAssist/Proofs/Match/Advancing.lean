import ShaderAssist.Proofs.Match.Calls

/-!
# Items that advance

A program that cannot accept before it has read a character matches no empty text (`Program.consumes`), and
neither does a keyword with a text. If the words of a grammar are of this kind, then every item that matches
comes past the offset where it was tried, whole documents apart (`advancing_matchAt`): a sequence has to have
a match, a scope has to be opened, and a pattern is as good as its alternatives.
-/

namespace ShaderAssist

namespace Program

/-- Whether an instruction that reads nothing leads to some instructions only, and does not accept. -/
def staysIn (p : Program) (quiet : List Nat) (i : Nat) : Bool :=
  match p.code[i]? with
  | some (.check _ next) => quiet.contains next
  | some (.fork first second) => quiet.contains first && quiet.contains second
  | some .accept => false
  | some (.take ..) | none => true

/-- The instructions that are followed before a character is read. `pending` are those still to be
followed, and every instruction is followed once, which bounds the steps. -/
def quietFrom (p : Program) : Nat → List Nat → List Nat → List Nat
  | 0, _, quiet => quiet
  | _ + 1, [], quiet => quiet
  | n + 1, i :: pending, quiet =>
    if quiet.contains i then p.quietFrom n pending quiet
    else match p.code[i]? with
      | some (.check _ next) => p.quietFrom n (next :: pending) (i :: quiet)
      | some (.fork first second) => p.quietFrom n (first :: second :: pending) (i :: quiet)
      | _ => p.quietFrom n pending (i :: quiet)

/-- Whether a program cannot accept before it has read a character. -/
def consumes (p : Program) : Bool :=
  let quiet := p.quietFrom (2 * p.code.size + 1) [p.start] []
  quiet.contains p.start && quiet.all (p.staysIn quiet)

variable {p : Program} {quiet : List Nat}

/-- Instructions that lead to each other only do not accept. -/
theorem accepted_advance (hquiet : ∀ i ∈ quiet, p.staysIn quiet i) (spot : Spot) :
    ∀ (n : Nat) (pending : List Nat) (seen : Array Bool) (steps : List (CharSet × Nat)),
      (∀ i ∈ pending, i ∈ quiet) → (p.advance spot n pending seen steps).accepted = false
  | 0, _, _, _, _ => rfl
  | _ + 1, [], _, _, _ => rfl
  | n + 1, i :: pending, seen, steps, h => by
    have hi := h i List.mem_cons_self
    have hpending : ∀ j ∈ pending, j ∈ quiet := fun j hj => h j (List.mem_cons_of_mem i hj)
    have hstays := hquiet i hi
    unfold staysIn at hstays
    rw [advance]
    split
    · next instruction _ hcode =>
      rw [hcode] at hstays
      cases instruction with
      | take s next => exact accepted_advance hquiet spot n _ _ _ hpending
      | check a next =>
        dsimp only
        split_ifs
        · refine accepted_advance hquiet spot n _ _ _ ?_
          exact List.forall_mem_cons.mpr ⟨List.contains_iff_mem.mp hstays, hpending⟩
        · exact accepted_advance hquiet spot n _ _ _ hpending
      | fork first second =>
        obtain ⟨h1, h2⟩ := Bool.and_eq_true_iff.mp hstays
        refine accepted_advance hquiet spot n _ _ _ (List.forall_mem_cons.mpr ⟨?_, ?_⟩)
        · exact List.contains_iff_mem.mp h1
        · exact List.forall_mem_cons.mpr ⟨List.contains_iff_mem.mp h2, hpending⟩
      | accept => cases hstays
    · exact accepted_advance hquiet spot n _ _ _ hpending

/-- **A program that reads before it accepts matches no empty text.** -/
theorem matchLength?_pos (hp : p.consumes) {s : Slice} {n : Nat} (h : p.matchLength? s = some n) :
    0 < n := by
  obtain ⟨hstart, hall⟩ := Bool.and_eq_true_iff.mp hp
  have hfront : ∀ spot, (p.front spot [p.start]).accepted = false := fun spot =>
    accepted_advance (List.all_eq_true.mp hall) spot _ _ _ _
      (List.forall_mem_singleton.mpr (List.contains_iff_mem.mp hstart))
  unfold matchLength? at h
  cases hs : s.chars with
  | nil =>
    rw [hs, search, hfront] at h
    cases h
  | cons c rest =>
    rw [hs, search] at h
    simp only [hfront, Bool.false_eq_true, if_false] at h
    split at h
    · cases h
    · rcases search_eq_some p h with hn | ⟨k, -, rfl⟩
      · cases hn
      · have := c.utf8Size_pos
        omega

end Program

/-- A finder that finds no empty text. -/
def Finder.Consumes (f : Finder) : Prop :=
  ∀ s n, f.matchLength? s = some n → 0 < n

theorem Program.consumes_finder {p : Program} (hp : p.consumes) : p.finder.Consumes :=
  fun _ _ h => matchLength?_pos hp h

namespace Keyword

theorem length_split? (k : Keyword) : ∀ {text document found rest : List Char},
    k.split? text document = some (found, rest) → found.length = text.length
  | [], document, found, rest, h => by
    rw [split?, Option.some.injEq, Prod.mk.injEq] at h
    rw [← h.1]
  | _ :: _, [], found, rest, h => by simp [split?] at h
  | c :: text, e :: document, found, rest, h => by
    rw [split?] at h
    split_ifs at h
    obtain ⟨⟨found', rest'⟩, hs, he⟩ := Option.map_eq_some_iff.mp h
    obtain ⟨rfl, rfl⟩ := Prod.mk.inj he
    rw [List.length_cons, List.length_cons, length_split? k hs]

theorem matchLength?_pos {k : Keyword} (hk : k.text ≠ []) {s : Slice} {n : Nat}
    (h : k.matchLength? s = some n) : 0 < n := by
  unfold matchLength? at h
  obtain ⟨⟨found, rest⟩, hs, h⟩ := Option.bind_eq_some_iff.mp h
  dsimp only at h
  split_ifs at h
  rw [← Option.some.inj h]
  refine byteLength_pos fun hnil => hk ?_
  rw [← List.length_eq_zero_iff, ← length_split? k hs, hnil]
  rfl

end Keyword

/-- An item that cannot match without advancing, provided that those it refers to cannot. -/
def Item.IsSolid : Item → Prop
  | text keyword _ => keyword.text ≠ []
  | token _ _ finder _ => finder.Consumes
  | grammar _ => False
  | _ => True

/-- The items that are referred to are in the table, and no one of them matches an empty text by itself. -/
def CompiledGrammar.IsSolid (g : CompiledGrammar) : Prop :=
  ∀ id item, g.item? id = some item → ∀ r ∈ item.references,
    ∃ item', g.item? r = some item' ∧ item'.IsSolid

namespace Matcher

variable {m : Matcher} {attempt : Attempt} {id : ItemId} {o : Nat} {item : Item} {r : Match}

/-- The first result of a complete sequence is a match at the offset where the sequence is tried. -/
theorem ElementsRun.exists_first {es : List SequenceElement} {rs : List Match} {b : Bool}
    (h : ElementsRun attempt es o rs b) (hb : b = true) (hne : rs ≠ []) :
    ∃ item ∈ es.map (·.item), (attempt item o).value ∈ rs ∧ (attempt item o).value.isMatched := by
  induction h with
  | done => exact absurd rfl hne
  | failed _ => cases hb
  | left _ _ _ ih =>
    obtain ⟨item, hmem, h⟩ := ih hb hne
    exact ⟨item, List.mem_cons_of_mem _ hmem, h⟩
  | passed hm _ _ _ => exact ⟨_, List.mem_cons_self, List.mem_cons_self, hm⟩
  | again hm _ _ _ => exact ⟨_, List.mem_cons_self, List.mem_cons_self, hm⟩

/-- **A solid item that matched has advanced**, if the items that it refers to do. -/
theorem Outcome.lt_stop (ho : m.document.IsBoundary o) (hitem : item.IsSolid)
    (hadv : ∀ r ∈ item.references, m.Advancing attempt r) (h : Outcome m attempt id o item r)
    (hr : r.isMatched) : o < r.stop := by
  have hskip := passes_skip ho true
  cases h with
  | blank hlt => exact hlt
  | noBlank | noWord | emptySequence | noAlternative | noOpening =>
    exact absurd hr Bool.false_ne_true
  | @word _ find c n hw hn =>
    obtain ⟨s, -, hn⟩ := Option.bind_eq_some_iff.mp hn
    have hpos : 0 < n := by
      rcases Item.word?_eq_some hw with ⟨keyword, rfl, rfl⟩ | ⟨kind, source, finder, rfl, rfl⟩
      · exact Keyword.matchLength?_pos hitem hn
      · exact hitem _ _ hn
    have hle := m.le_skip o c
    rw [Match.stop_leaf]
    omega
  | sequence hrun hne =>
    rw [isMatched_kindOf] at hr
    obtain ⟨item, hmem, hmem', hm⟩ := hrun.exists_first hr hne
    rw [Match.stop_ofChildren]
    exact lt_of_lt_of_le (hadv item hmem o ho hm) (Match.stop_le_furthest hmem')
  | alternative hf =>
    obtain ⟨before, a, after, rfl, -, hm, rfl⟩ := hf
    rw [Match.stop_withOrigin, Match.stop_ofChildren]
    refine lt_of_lt_of_le (hadv a ?_ o ho hm) (Match.stop_le_furthest (by simp))
    simp [Item.references]
  | @named name inner =>
    rw [Match.isMatched_withName] at hr
    rw [Match.stop_withName]
    exact hadv inner (List.mem_singleton.mpr rfl) o ho hr
  | @scope s opening closing body rs b hm hrun =>
    rw [Match.stop_withOrigin, Match.stop_ofChildren]
    refine lt_of_lt_of_le ?_ (Match.stop_le_furthest List.mem_cons_self)
    exact lt_of_le_of_lt hskip.le (hadv opening List.mem_cons_self _ hskip.isBoundary_right hm)
  | grammar => cases hitem

/-- **Solid items advance**, at every depth. -/
theorem advancing_matchAt (hg : m.grammar.IsSolid) : ∀ (depth : Nat) {id : ItemId} {item : Item},
    m.grammar.item? id = some item → item.IsSolid → m.Advancing (m.matchAt depth) id
  | 0, id, item, _, _, o, ho, hr => by
    rw [matchAt_zero ho] at hr
    exact absurd hr Bool.false_ne_true
  | depth + 1, id, item, hid, hitem, o, ho, hr => by
    rcases matchAt_cases ho (depth + 1) id with hleaf | ⟨n, item', hn, hid', hout⟩
    · rw [hleaf] at hr
      exact absurd hr Bool.false_ne_true
    · obtain rfl : depth = n := Nat.succ.inj hn
      obtain rfl : item = item' := Option.some.inj (hid.symm.trans hid')
      refine hout.lt_stop ho hitem (fun r hmem => ?_) hr
      obtain ⟨item', hr', hsolid⟩ := hg id item hid r hmem
      exact advancing_matchAt hg depth hr' hsolid

end Matcher

end ShaderAssist
