import ShaderAssist.Proofs.Match.Runs

/-!
# Outcomes of an attempt

`Outcome m attempt id o item r` lists the ways in which an item can come out at an offset, with `attempt`
for the items it refers to: one case for every place at which matching an item has its result. Everything
that holds of matches is read off these cases.

The outcome of an item lies where it should if the attempts inside it do (`Outcome.placedAt`), and so all
attempts do (`sound_matchAt`). Every node of a match is the result of an attempt or a skipped line
(`exists_piece_of_mem_nodes`), so that what holds of these holds of all nodes.
-/

namespace ShaderAssist

/-- What an item looks for if it is a single word, and whether the word may stand on another line. -/
def Item.word? : Item → Option ((Slice → Option Nat) × Bool)
  | .text keyword crossLine => some (keyword.matchLength?, crossLine)
  | .token _ _ finder crossLine => some (finder.matchLength?, crossLine)
  | _ => none

theorem Item.word?_eq_some {item : Item} {find : Slice → Option Nat} {crossLine : Bool}
    (h : item.word? = some (find, crossLine)) :
    (∃ keyword, item = .text keyword crossLine ∧ find = keyword.matchLength?) ∨
      ∃ kind source finder, item = .token kind source finder crossLine ∧ find = finder.matchLength? := by
  cases item with
  | text keyword c =>
    obtain ⟨rfl, rfl⟩ := Prod.mk.inj (Option.some.inj h)
    exact Or.inl ⟨keyword, rfl, rfl⟩
  | token kind source finder c =>
    obtain ⟨rfl, rfl⟩ := Prod.mk.inj (Option.some.inj h)
    exact Or.inr ⟨kind, source, finder, rfl, rfl⟩
  | _ => simp [word?] at h

theorem Item.isPrefixLength_of_word? {item : Item} {find : Slice → Option Nat} {crossLine : Bool}
    (h : item.word? = some (find, crossLine)) {s : Slice} {n : Nat} (hn : find s = some n) :
    IsPrefixLength s.chars n := by
  rcases word?_eq_some h with ⟨keyword, -, rfl⟩ | ⟨kind, source, finder, -, rfl⟩
  · exact Keyword.isPrefixLength_of_matchLength? hn
  · exact finder.isPrefixLength hn

namespace Matcher

variable {m : Matcher} {attempt : Attempt} {id : ItemId} {o : Nat} {item : Item} {r : Match}

/-- The kind of a node that is complete or not. -/
abbrev kindOf (complete : Bool) : MatchKind :=
  if complete then .matched else .unmatched

theorem kindOf_cases (complete : Bool) :
    kindOf complete = .matched ∨ kindOf complete = .unmatched := by
  cases complete with
  | true => exact Or.inl rfl
  | false => exact Or.inr rfl

@[simp] theorem isMatched_kindOf (i : Option ItemId) (complete : Bool) (rs : List Match) :
    (Match.ofChildren i (kindOf complete) o rs).isMatched = complete := by
  cases complete <;> rfl

/-- A document whose pieces are `rs`. -/
abbrev documentNode (m : Matcher) (id : ItemId) (o : Nat) (rs : List Match) : Match :=
  ((Match.ofChildren (some id) (kindOf !rs.any fun r => r.info.isSkippedLine) o rs).withRange o
    m.document.size).withOrigin .grammar

theorem isMatched_documentNode (m : Matcher) (id : ItemId) (o : Nat) (rs : List Match) :
    (m.documentNode id o rs).isMatched ↔ ∀ c ∈ rs, ¬ c.info.isSkippedLine := by
  rw [Match.isMatched_withOrigin, Match.isMatched_withRange, isMatched_kindOf, Bool.not_eq_true',
    List.any_eq_false]

/-- **The outcomes of an item at an offset.** -/
inductive Outcome (m : Matcher) (attempt : Attempt) (id : ItemId) (o : Nat) : Item → Match → Prop
  | blank {c : Bool} : o < m.skip o c →
      Outcome m attempt id o (.blank c) (.leaf id .matched o (m.skip o c))
  | noBlank {c : Bool} : ¬ o < m.skip o c →
      Outcome m attempt id o (.blank c) (.leaf id .unmatched o o)
  | word {item : Item} {find : Slice → Option Nat} {c : Bool} {n : Nat} :
      item.word? = some (find, c) → (m.document.sliceAt (m.skip o c)).bind find = some n →
      Outcome m attempt id o item (.leaf id .matched (m.skip o c) (m.skip o c + n))
  | noWord {item : Item} {find : Slice → Option Nat} {c : Bool} :
      item.word? = some (find, c) → (m.document.sliceAt (m.skip o c)).bind find = none →
      Outcome m attempt id o item (m.unmatchedLeaf id o)
  | sequence {es : List SequenceElement} {rs : List Match} {b : Bool} :
      ElementsRun attempt es o rs b → rs ≠ [] →
      Outcome m attempt id o (.sequence es) (.ofChildren (some id) (kindOf b) o rs)
  | emptySequence {es : List SequenceElement} {b : Bool} : ElementsRun attempt es o [] b →
      Outcome m attempt id o (.sequence es) (.leaf id .unmatched o o)
  | alternative {p : PatternId} {items : List ItemId} {r : Match} :
      FirstOf Match.isMatched attempt items o r →
      Outcome m attempt id o (.alternation p items)
        ((Match.ofChildren (some id) .matched o [r]).withOrigin (.pattern p))
  | noAlternative {p : PatternId} {items : List ItemId} : NoneOf Match.isMatched attempt items o →
      Outcome m attempt id o (.alternation p items)
        ((Match.ofChildren (some id) .unmatchedPattern o (tries attempt items o)).withOrigin
          (.pattern p))
  | named {name : String} {inner : ItemId} :
      Outcome m attempt id o (.named name inner) ((attempt inner o).value.withName name)
  | noOpening {s : ScopeId} {opening closing : ItemId} {body : List ItemId} :
      ¬ (attempt opening (m.skip o true)).value.isMatched →
      Outcome m attempt id o (.scope s opening closing body)
        ((Match.ofChildren (some id) .unmatched o
          [(attempt opening (m.skip o true)).value]).withOrigin (.scope s))
  | scope {s : ScopeId} {opening closing : ItemId} {body : List ItemId} {rs : List Match} {b : Bool} :
      (attempt opening (m.skip o true)).value.isMatched →
      RegionRun m attempt closing body (attempt opening (m.skip o true)).value.stop rs b →
      Outcome m attempt id o (.scope s opening closing body)
        ((Match.ofChildren (some id) (kindOf b) o
          ((attempt opening (m.skip o true)).value :: rs)).withOrigin (.scope s))
  | grammar {body : List ItemId} {rs : List Match} {b : Bool} : LinesRun m attempt body o rs b →
      Outcome m attempt id o (.grammar body) (m.documentNode id o rs)

theorem outcome_matchWord {find : Slice → Option Nat} {c : Bool} (h : item.word? = some (find, c)) :
    Outcome m attempt id o item (m.matchWord id find c o) := by
  unfold matchWord
  dsimp only
  rcases hn : (m.document.sliceAt (m.skip o c)).bind find with _ | n
  · exact .noWord h hn
  · exact .word h hn

theorem outcome_matchSequence (ha : m.Sound attempt) (ho : m.document.IsBoundary o)
    (es : List SequenceElement) : Outcome m attempt id o (.sequence es)
      (matchSequence attempt m.document.size id es o).value := by
  have hrun := elementsRun_matchElements ha es ho
  unfold matchSequence
  rw [Traced.value_bind]
  rcases hv : (matchElements attempt m.document.size es o).value with ⟨rs, b⟩
  rw [hv] at hrun
  cases rs with
  | nil => exact .emptySequence hrun
  | cons r rs => exact .sequence hrun (List.cons_ne_nil r rs)

theorem outcome_matchAlternation (p : PatternId) (items : List ItemId) :
    Outcome m attempt id o (.alternation p items)
      (matchAlternation attempt id p items o).value := by
  unfold matchAlternation
  rw [Traced.value_bind]
  rcases firstAccepted_cases Match.isMatched attempt o items with ⟨r, hr, he⟩ | ⟨hn, he⟩
  · rw [he]; exact .alternative hr
  · rw [he]; exact .noAlternative hn

theorem outcome_matchScope (ha : m.Sound attempt) (ho : m.document.IsBoundary o) (s : ScopeId)
    (opening closing : ItemId) (body : List ItemId) :
    Outcome m attempt id o (.scope s opening closing body)
      (m.matchScope attempt id s opening closing body o).value := by
  have hp := ha opening _ (passes_skip ho true).isBoundary_right
  unfold matchScope
  rw [Traced.value_bind]
  by_cases h : (attempt opening (m.skip o true)).value.isMatched
  · rw [if_neg (by simpa using h), Traced.value_bind]
    have hrun := contentRun_matchRegion ha closing body hp.stop
    rcases hv : (m.matchRegion attempt closing body
      (attempt opening (m.skip o true)).value.stop).value with ⟨rs, b⟩
    rw [hv] at hrun
    cases b with
    | true => exact .scope h hrun
    | false => exact .scope h hrun
  · rw [if_pos (by simpa using h)]
    exact .noOpening h

theorem outcome_matchGrammar (ha : m.Sound attempt) (ho : m.document.IsBoundary o)
    (body : List ItemId) : Outcome m attempt id o (.grammar body)
      (m.matchGrammar attempt id body o).value := by
  obtain ⟨b, hrun, hc⟩ := contentRun_matchLines ha body ho
  unfold matchGrammar
  rw [Traced.value_bind]
  rcases hv : (m.matchLines attempt body o).value with ⟨rs, complete⟩
  rw [hv] at hrun hc
  dsimp only at hc
  subst hc
  exact .grammar hrun

/-- **Matching an item has one of its outcomes.** -/
theorem outcome_matchStep (ha : m.Sound attempt) (ho : m.document.IsBoundary o) (id : ItemId)
    (item : Item) : Outcome m attempt id o item (m.matchStep attempt id item o).value := by
  cases item with
  | blank c =>
    simp only [matchStep, matchBlank, Traced.value_pure]
    split_ifs with h
    · exact .blank h
    · exact .noBlank h
  | text keyword c => exact outcome_matchWord rfl
  | token kind source finder c => exact outcome_matchWord rfl
  | sequence es => exact outcome_matchSequence ha ho es
  | alternation p items => exact outcome_matchAlternation p items
  | named name inner => exact .named
  | scope s opening closing body => exact outcome_matchScope ha ho s opening closing body
  | grammar body => exact outcome_matchGrammar ha ho body

/-- A whole document comes out as the content of its lines. -/
theorem Outcome.exists_linesRun {body : List ItemId} (h : Outcome m attempt id o (.grammar body) r) :
    ∃ rs b, LinesRun m attempt body o rs b ∧ r = m.documentNode id o rs := by
  cases h with
  | word hw | noWord hw => simp [Item.word?] at hw
  | grammar hrun => exact ⟨_, _, hrun, rfl⟩

/-! ### All attempts are sound -/

theorem placedAt_word (id : ItemId) {find : Slice → Option Nat} {c : Bool} {n : Nat}
    (ho : m.document.IsBoundary o) (h : item.word? = some (find, c))
    (hn : (m.document.sliceAt (m.skip o c)).bind find = some n) :
    (Match.leaf id .matched (m.skip o c) (m.skip o c + n)).PlacedAt m.document o := by
  have hc := passes_skip ho c
  obtain ⟨s, hs, hn⟩ := Option.bind_eq_some_iff.mp hn
  have hrest := Document.sliceAt_eq_some_iff.mp hs
  exact ⟨fun h => absurd rfl h, hc, Nat.le_add_right _ _,
    hrest.isBoundary_add (item.isPrefixLength_of_word? h hn)⟩

/-- **The outcome of an item lies where it should.** -/
theorem Outcome.placedAt (ha : m.Sound attempt) (ho : m.document.IsBoundary o)
    (h : Outcome m attempt id o item r) : r.PlacedAt m.document o := by
  have hc := passes_skip ho true
  cases h with
  | @blank c hlt =>
    have hp := passes_skip ho c
    exact ⟨fun h => absurd rfl h, .refl ho, hp.le, hp.isBoundary_right⟩
  | noBlank => exact Match.placedAt_unmatched id ho ho le_rfl
  | word hw hn => exact placedAt_word id ho hw hn
  | noWord =>
    have hp := passes_skip ho false
    exact Match.placedAt_unmatched id ho hp.isBoundary_right hp.le
  | sequence hrun hne =>
    exact Match.placedAt_ofChildren _ (kindOf_cases _) ho hne (hrun.follow ha ho)
  | emptySequence => exact Match.placedAt_unmatched id ho ho le_rfl
  | alternative hr =>
    obtain ⟨-, a, -, -, -, -, rfl⟩ := hr
    refine (Match.placedAt_ofChildren _ (Or.inl rfl) ho (by simp) ?_).withOrigin _
    exact (ha a o ho).follow trivial
  | noAlternative =>
    refine (Match.placedAt_ofChildren_of_ne _ (by decide) ho fun r hr => ?_).withOrigin _
    exact (ha.tries ho _ hr).stop
  | named => exact (ha _ o ho).withName _
  | @noOpening s opening =>
    refine (Match.placedAt_ofChildren _ (Or.inr rfl) ho (by simp) ?_).withOrigin _
    exact .of_passes hc ((ha opening _ hc.isBoundary_right).follow trivial)
  | @scope s opening _ _ _ _ hm hrun =>
    have hp := ha opening _ hc.isBoundary_right
    refine (Match.placedAt_ofChildren _ (kindOf_cases _) ho (by simp) ?_).withOrigin _
    exact .of_passes hc (hp.follow (RegionRun.follow ha hrun hp.stop))
  | grammar =>
    refine Match.PlacedAt.withOrigin ⟨fun _ => ?_, ?_, ?_, ?_⟩ _
    · rw [Match.start_withRange]
    · rw [Match.start_withRange]; exact .refl ho
    · rw [Match.start_withRange, Match.stop_withRange]; exact ho.le_size
    · rw [Match.stop_withRange]; exact m.document.restAt_size.isBoundary

/-- Nothing matches where no character starts or past the end of the text. -/
theorem matchAt_of_not_isBoundary (ho : ¬ m.document.IsBoundary o) (depth : Nat) (id : ItemId) :
    (m.matchAt depth id o).value =
      .leaf id .unmatched (min o m.document.size) (min o m.document.size) := by
  unfold matchAt
  rw [if_pos (Document.isNone_sliceAt ho)]
  rfl

theorem matchAt_zero (ho : m.document.IsBoundary o) :
    (m.matchAt 0 id o).value = .leaf id .unmatched o o := by
  rw [matchAt, if_neg (by rw [ho.isNone_sliceAt]; decide)]
  rfl

theorem matchAt_succ (ho : m.document.IsBoundary o) (depth : Nat) :
    (m.matchAt (depth + 1) id o).value = match m.grammar.item? id with
      | some item => (m.matchStep (m.matchAt depth) id item o).value
      | none => .leaf id .unmatched o o := by
  rw [matchAt, if_neg (by rw [ho.isNone_sliceAt]; decide)]
  cases m.grammar.item? id <;> rfl

/-- **Attempts lie where they should**, at every depth. -/
theorem sound_matchAt (m : Matcher) : ∀ depth, m.Sound (m.matchAt depth)
  | 0, id, o, ho => by
    rw [matchAt_zero ho]
    exact Match.placedAt_unmatched id ho ho le_rfl
  | depth + 1, id, o, ho => by
    rw [matchAt_succ ho]
    rcases m.grammar.item? id with _ | item
    · exact Match.placedAt_unmatched id ho ho le_rfl
    · exact (outcome_matchStep (sound_matchAt m depth) ho id item).placedAt (sound_matchAt m depth) ho

/-- An attempt is cut off at the limit of the depth, or the item is not in the table, or it has one of
the outcomes of its item. -/
theorem matchAt_cases (ho : m.document.IsBoundary o) (depth : Nat) (id : ItemId) :
    (m.matchAt depth id o).value = .leaf id .unmatched o o ∨
      ∃ n item, depth = n + 1 ∧ m.grammar.item? id = some item ∧
        Outcome m (m.matchAt n) id o item (m.matchAt depth id o).value := by
  cases depth with
  | zero => exact Or.inl (matchAt_zero ho)
  | succ n =>
    rw [matchAt_succ ho]
    rcases hi : m.grammar.item? id with _ | item
    · exact Or.inl rfl
    · exact Or.inr ⟨n, item, rfl, rfl, outcome_matchStep (sound_matchAt m n) ho id item⟩

/-! ### Nodes below an attempt -/

/-- What an outcome is put together from: results of attempts, and skipped lines. -/
inductive Piece (m : Matcher) (attempt : Attempt) : Match → Prop
  | tried (id : ItemId) {o : Nat} : m.document.IsBoundary o → Piece m attempt (attempt id o).value
  | line {body : List ItemId} {o : Nat} {line : Match} {next : Option Nat} :
      m.document.IsBoundary o → NoneOf (advances o) attempt body o →
      m.skipLine o (tries attempt body o) = (line, next) → Piece m attempt line

theorem ElementsRun.piece (ha : m.Sound attempt) {es : List SequenceElement} {rs : List Match}
    {b : Bool} (h : ElementsRun attempt es o rs b) (ho : m.document.IsBoundary o) :
    ∀ r ∈ rs, Piece m attempt r := by
  induction h with
  | done => simp
  | failed _ =>
    intro r hr
    rw [List.mem_singleton.mp hr]
    exact .tried _ ho
  | left _ _ _ ih => exact ih ho
  | passed _ _ _ ih =>
    intro r hr
    rcases List.mem_cons.mp hr with rfl | hr
    · exact .tried _ ho
    · exact ih (ha _ _ ho).stop r hr
  | again _ _ _ ih =>
    intro r hr
    rcases List.mem_cons.mp hr with rfl | hr
    · exact .tried _ ho
    · exact ih (ha _ _ ho).stop r hr

theorem ContentRun.piece (ha : m.Sound attempt) {body : List ItemId}
    {Last : Nat → List Match → Prop} {Goes : Nat → Prop} {rs : List Match} {b : Bool}
    (hlast : ∀ c rs, m.document.IsBoundary c → Last c rs → ∀ r ∈ rs, Piece m attempt r)
    (h : ContentRun m attempt body Last Goes o rs b) (ho : m.document.IsBoundary o) :
    ∀ r ∈ rs, Piece m attempt r := by
  induction h with
  | last hl => exact hlast _ _ (passes_skip ho true).isBoundary_right hl
  | item hf _ ih =>
    have hc := passes_skip ho true
    obtain ⟨-, -, hp⟩ := hf.advances ha hc
    obtain ⟨-, a, -, -, -, -, rfl⟩ := hf
    intro r hr
    rcases List.mem_cons.mp hr with rfl | hr
    · exact .tried a hc.isBoundary_right
    · exact ih hp.stop r hr
  | line _ hn hs _ ih =>
    have hc := passes_skip ho true
    obtain ⟨-, hnext⟩ := (ha.skippedLine hc.isBoundary_right hs).leads _ rfl
    intro r hr
    rcases List.mem_cons.mp hr with rfl | hr
    · exact .line hc.isBoundary_right hn hs
    · exact ih hnext.isBoundary_right r hr
  | lastLine _ hn hs =>
    intro r hr
    rw [List.mem_singleton.mp hr]
    exact .line (passes_skip ho true).isBoundary_right hn hs

/-- Every node below an outcome is a node of one of its pieces. -/
theorem Outcome.exists_piece (ha : m.Sound attempt) (ho : m.document.IsBoundary o)
    (h : Outcome m attempt id o item r) {c s : Match} (hc : c ∈ r.children) (hs : s ∈ c.nodes) :
    ∃ p, Piece m attempt p ∧ s ∈ p.nodes := by
  have hskip := (passes_skip ho true).isBoundary_right
  cases h with
  | blank | noBlank | word | noWord | emptySequence => simp [unmatchedLeaf] at hc
  | sequence hrun => exact ⟨c, hrun.piece ha ho c hc, hs⟩
  | alternative hr =>
    obtain ⟨-, a, -, -, -, -, rfl⟩ := hr
    rw [Match.children_withOrigin, Match.children_ofChildren, List.mem_singleton] at hc
    exact ⟨c, hc ▸ .tried a ho, hs⟩
  | noAlternative =>
    rw [Match.children_withOrigin, Match.children_ofChildren] at hc
    obtain ⟨a, -, rfl⟩ := List.mem_map.mp hc
    exact ⟨_, .tried a ho, hs⟩
  | @named name inner =>
    -- the name is put on the result of the inner item, whose nodes stay where they are
    rw [Match.children_withName] at hc
    exact ⟨_, .tried inner ho, Match.mem_nodes.mpr (Or.inr ⟨c, hc, hs⟩)⟩
  | noOpening =>
    rw [Match.children_withOrigin, Match.children_ofChildren, List.mem_singleton] at hc
    exact ⟨c, hc ▸ .tried _ hskip, hs⟩
  | @scope _ opening closing _ _ _ _ hrun =>
    rw [Match.children_withOrigin, Match.children_ofChildren] at hc
    rcases List.mem_cons.mp hc with rfl | hc
    · exact ⟨_, .tried opening hskip, hs⟩
    · refine ⟨c, ContentRun.piece ha ?_ hrun (ha opening _ hskip).stop c hc, hs⟩
      rintro e rs he ⟨-, -, rfl⟩ r hr
      rw [List.mem_singleton.mp hr]
      exact .tried closing he
  | grammar hrun =>
    rw [Match.children_withOrigin, Match.children_withRange, Match.children_ofChildren] at hc
    refine ⟨c, ContentRun.piece ha ?_ hrun ho c hc, hs⟩
    rintro e rs - ⟨-, rfl⟩ r hr
    simp at hr

/-- **Every node of a match is an attempt or a skipped line**, made at some depth inside it. -/
theorem exists_piece_of_mem_nodes : ∀ (depth : Nat) (id : ItemId) {o : Nat},
    m.document.IsBoundary o → ∀ s ∈ (m.matchAt depth id o).value.nodes,
      ∃ n ≤ depth, Piece m (m.matchAt n) s := by
  intro depth
  induction depth with
  | zero =>
    intro id o ho s hs
    rcases Match.mem_nodes.mp hs with rfl | ⟨c, hc, -⟩
    · exact ⟨0, le_rfl, .tried id ho⟩
    · rw [matchAt_zero ho] at hc
      simp at hc
  | succ depth ih =>
    intro id o ho s hs
    rcases Match.mem_nodes.mp hs with rfl | ⟨c, hc, hs⟩
    · exact ⟨depth + 1, le_rfl, .tried id ho⟩
    rcases matchAt_cases ho (depth + 1) id with hleaf | ⟨n, item, hn, -, hout⟩
    · rw [hleaf] at hc
      simp at hc
    obtain rfl : depth = n := Nat.succ.inj hn
    have hbelow : ∀ id o, m.document.IsBoundary o → s ∈ (m.matchAt depth id o).value.nodes →
        ∃ n ≤ depth + 1, Piece m (m.matchAt n) s := by
      intro id o ho hs
      obtain ⟨n, hn, hp⟩ := ih id ho s hs
      exact ⟨n, Nat.le_succ_of_le hn, hp⟩
    obtain ⟨p, hp, hs⟩ := hout.exists_piece (sound_matchAt m depth) ho hc hs
    cases hp with
    | tried id ho => exact hbelow id _ ho hs
    | @line body o' line next ho' hnone hline =>
      rcases Match.mem_nodes.mp hs with rfl | ⟨c, hc, hs⟩
      · exact ⟨depth, Nat.le_succ depth, .line ho' hnone hline⟩
      · have hk := (sound_matchAt m depth).skippedLine ho' hline
        rw [hk.line_eq, Match.children_withRange, Match.children_ofChildren] at hc
        obtain ⟨a, -, rfl⟩ := List.mem_map.mp hc
        exact hbelow a o' ho' hs

end Matcher

end ShaderAssist
