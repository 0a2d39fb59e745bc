import ShaderAssist.Proofs.Match.Derivation
import ShaderAssist.Proofs.Match.Flattening
import ShaderAssist.Proofs.Match.Recovery

/-!
# Skipped lines

A scope or a document skips a line where no pattern of its body matches and advances, and where the scope does not
end. The node of the line holds the attempts at all patterns. It covers the line on which the furthest of them ended,
and the content goes on with the next line, if there is one (`Matcher.Skips`).

Only results of attempts and skipped lines stand in a content, so every skipped line among the children of a scope or
of a document is one of these (`ContentRun.skips`, `recovers_matchAt`).
-/

namespace ShaderAssist

/-- The patterns of the content of an item. -/
def Item.body : Item → List ItemId
  | .scope _ _ _ body => body
  | .grammar body => body
  | _ => []

/-- The closing delimiter of a scope. -/
def Item.closing? : Item → Option ItemId
  | .scope _ _ closing _ => some closing
  | _ => none

/-- Whether the node stands for a scope or for a document. -/
def MatchInfo.HasContent (info : MatchInfo) : Prop :=
  info.isScope ∨ info.origin = .grammar

/-- How far the attempts below a node came. Without attempts it is where the node starts. -/
def Match.Reaches (u : Match) (far : Nat) : Prop :=
  u.children = [] ∧ far = u.start ∨ (∃ c ∈ u.children, c.stop = far) ∧ ∀ c ∈ u.children, c.stop ≤ far

theorem Match.reaches_furthest {u : Match} (h : ∀ c ∈ u.children, u.start ≤ c.stop) :
    u.Reaches (furthest u.start u.children) := by
  rcases hchildren : u.children with _ | ⟨c, cs⟩
  · exact Or.inl ⟨hchildren, rfl⟩
  rw [← hchildren]
  have hc : c ∈ u.children := hchildren ▸ List.mem_cons_self
  refine Or.inr ⟨?_, fun e he => stop_le_furthest he⟩
  rcases furthest_eq u.children u.start with hstart | ⟨e, he, hstop⟩
  · rw [hstart]
    have hle : c.stop ≤ furthest u.start u.children := stop_le_furthest hc
    exact ⟨c, hc, le_antisymm (hstart ▸ hle) (h c hc)⟩
  · exact ⟨e, he, hstop.symm⟩

namespace Document

/-! ### Where the lookups of lines lead -/

variable {d : Document} {i o : Nat}

theorem positionAt_of_toOption_offsetAt {p : Position} (hp : p.line < d.lineCount)
    (h : (d.offsetAt p).toOption = some o) : d.positionAt o = p := by
  cases hoffset : d.offsetAt p with
  | error e =>
    rw [hoffset] at h
    cases h
  | ok a =>
    rw [hoffset] at h
    exact Option.some.inj h ▸ positionAt_of_offsetAt hp hoffset

theorem line_positionAt_of_lineEnd? (h : d.lineEnd? i = some o) : (d.positionAt o).line = i := by
  obtain ⟨content, hcontent, hoffset⟩ := Option.bind_eq_some_iff.mp h
  obtain ⟨line, hline, -⟩ := Option.map_eq_some_iff.mp hcontent
  have hlt : i < d.lineCount := (List.getElem?_eq_some_iff.mp hline).1
  rw [positionAt_of_toOption_offsetAt hlt hoffset]

theorem line_positionAt_of_lineAfter? (h : d.lineAfter? i = some (some o)) : (d.positionAt o).line = i + 1 := by
  unfold lineAfter? at h
  split_ifs at h with hlt
  · obtain ⟨a, hoffset, ha⟩ := Option.map_eq_some_iff.mp h
    obtain rfl := Option.some.inj ha
    rw [positionAt_of_toOption_offsetAt hlt hoffset]
  · cases h

theorem lineAfter?_of_last (h : i + 1 = d.lineCount) : d.lineAfter? i = some none := by
  unfold lineAfter?
  rw [if_neg (Nat.not_lt.mpr (Nat.le_of_eq h.symm))]

theorem line_positionAt_mono {a b : Nat} (h : a ≤ b) : (d.positionAt a).line ≤ (d.positionAt b).line := by
  rcases Position.le_iff.mp (positionAt_mono (d := d) h) with hlt | ⟨heq, -⟩
  · exact Nat.le_of_lt hlt
  · exact Nat.le_of_eq heq

end Document

namespace Matcher

variable {m : Matcher} {attempt : Attempt} {item : Item} {id : ItemId} {o : Nat} {r : Match}

/-- **A skipped line** `u` in the content of an item, with `back` behind it and `kind` for what became of the item. -/
structure Skips (m : Matcher) (attempt : Attempt) (item : Item) (kind : MatchKind) (u : Match)
    (back : List Match) : Prop where
  /-- It has one attempt for every pattern of the body, in order. -/
  attempts : u.children = tries attempt item.body u.start
  /-- None of them is a match that advances. -/
  stuck : ∀ c ∈ u.children, ¬ (c.isMatched ∧ u.start < c.stop)
  /-- It ends with the furthest attempt or with the content of the line on which this one ends. -/
  stop : ∃ far lineEnd, u.Reaches far ∧ m.document.lineEnd? (m.document.positionAt far).line = some lineEnd ∧
    u.stop = max far lineEnd
  /-- What is next starts on a later line. -/
  next : ∀ v ∈ back.head?, (m.document.positionAt u.stop).line < (m.document.positionAt v.start).line
  /-- A scope does not end where the line starts. -/
  unclosed : ∀ closing ∈ item.closing?, ¬ (attempt closing u.start).value.isMatched
  /-- On the last line nothing is next, and the item is not matched. -/
  last : (m.document.positionAt u.stop).line + 1 = m.document.lineCount → back = [] ∧ kind = .unmatched

/-! ### The skip of a line -/

/-- The skipped line ends on the line of the furthest attempt, and what is next is the line after it. -/
theorem skipLine_lines {attempts : List Match} {line : Match} {next : Option Nat}
    (hfar : m.document.IsBoundary (Match.furthest o attempts)) (h : m.skipLine o attempts = (line, next)) :
    (∃ lineEnd, m.document.lineEnd? (m.document.positionAt (Match.furthest o attempts)).line = some lineEnd ∧
      line.stop = max (Match.furthest o attempts) lineEnd) ∧
    (∀ n ∈ next, (m.document.positionAt line.stop).line < (m.document.positionAt n).line) ∧
    ((m.document.positionAt line.stop).line + 1 = m.document.lineCount → next = none) := by
  have hlookup := skipLine?_eq hfar
  rw [h] at hlookup
  obtain ⟨lineEnd, hend, hlookup⟩ := Option.bind_eq_some_iff.mp hlookup
  obtain ⟨after, hafter, hlookup⟩ := Option.bind_eq_some_iff.mp hlookup
  obtain ⟨hline, hnext⟩ := Prod.mk.inj (Option.some.inj hlookup)
  have hstop : line.stop = max (Match.furthest o attempts) lineEnd := by
    rw [← hline, Match.stop_withRange, Nat.max_comm]
  have hsame : (m.document.positionAt line.stop).line =
      (m.document.positionAt (Match.furthest o attempts)).line := by
    rw [hstop]
    rcases max_choice (Match.furthest o attempts) lineEnd with hmax | hmax
    · rw [hmax]
    · rw [hmax, Document.line_positionAt_of_lineEnd? hend]
  refine ⟨⟨lineEnd, hend, hstop⟩, fun n hn => ?_, fun hlast => ?_⟩
  · rw [← hnext] at hn
    obtain ⟨hn, -⟩ := Option.mem_filter_iff.mp hn
    rw [Option.mem_def.mp hn] at hafter
    rw [hsame, Document.line_positionAt_of_lineAfter? hafter]
    exact Nat.lt_succ_self _
  · rw [hsame] at hlast
    rw [Document.lineAfter?_of_last hlast] at hafter
    rw [← hnext, ← Option.some.inj hafter]
    rfl

/-- **The line that is skipped** where nothing advances and a scope does not end. -/
theorem skips_skipLine (ha : m.Sound attempt) (ho : m.document.IsBoundary o)
    (hnone : NoneOf (advances o) attempt item.body o)
    (hgoes : ∀ closing ∈ item.closing?, ¬ (attempt closing o).value.isMatched) {line : Match} {next : Option Nat}
    (h : m.skipLine o (tries attempt item.body o) = (line, next)) {back : List Match} {kind : MatchKind}
    (hback : ∀ n ∈ next, Match.Follow m.document n back) (hlast : next = none → back = [] ∧ kind = .unmatched) :
    m.Skips attempt item kind line back := by
  have hk := ha.skippedLine ho h
  have hchildren : line.children = tries attempt item.body o := by
    rw [hk.line_eq, Match.children_withRange, Match.children_ofChildren]
  obtain ⟨⟨lineEnd, hend, hstop⟩, hnext, hlastLine⟩ := skipLine_lines (ha.isBoundary_furthest ho item.body) h
  have hstart := hk.start_eq
  rw [← hstart] at hchildren hgoes hend hstop
  refine ⟨hchildren, fun c hc => ?_, ⟨_, lineEnd, ?_, hend, hstop⟩, fun v hv => ?_, hgoes,
    fun hl => hlast (hlastLine hl)⟩
  · rw [hchildren] at hc
    obtain ⟨a, ha, rfl⟩ := List.mem_map.mp hc
    rw [hstart]
    exact fun hadvances => hnone a ha (advances_iff.mpr hadvances)
  · rw [← hchildren]
    refine Match.reaches_furthest fun c hc => ?_
    rw [hchildren, hstart] at hc
    rw [hstart]
    exact (ha.tries ho item.body hc).offset_le
  · cases next with
    | none =>
      rw [(hlast rfl).1] at hv
      cases hv
    | some n =>
      obtain ⟨back, rfl⟩ : ∃ rest, back = v :: rest := ⟨back.tail, List.eq_cons_of_mem_head? hv⟩
      have hle := (hback n rfl).1.le
      exact lt_of_lt_of_le (hnext n rfl) (Document.line_positionAt_mono hle)

/-! ### Contents -/

/-- **The skipped lines of a content**, if there is none in what stands at its end. -/
theorem ContentRun.skips (item : Item) (ha : m.Sound attempt) {Last : Nat → List Match → Prop} {Goes : Nat → Prop}
    (hlast : ∀ c rs, m.document.IsBoundary c → Last c rs →
      Match.Follow m.document c rs ∧ ∀ r ∈ rs, ¬ r.info.isSkippedLine)
    (hgoes : ∀ c, Goes c → ∀ closing ∈ item.closing?, ¬ (attempt closing c).value.isMatched)
    {rs : List Match} {b : Bool} (h : ContentRun m attempt item.body Last Goes o rs b)
    (ho : m.document.IsBoundary o) : ∀ front u back, rs = front ++ u :: back → u.info.isSkippedLine →
      m.Skips attempt item (kindOf b) u back := by
  have hfollow := fun c rs hc hl => (hlast c rs hc hl).1
  induction h with
  | last hl =>
    rintro front u back rfl hu
    exact absurd hu ((hlast _ _ (passes_skip ho true).isBoundary_right hl).2 u (by simp))
  | item hf _ ih =>
    obtain ⟨-, -, hp⟩ := hf.advances ha (passes_skip ho true)
    intro front u back hrs hu
    cases front with
    | nil =>
      obtain ⟨rfl, -⟩ := List.cons.inj hrs
      rw [hf.isSkippedLine] at hu
      cases hu
    | cons x front => exact ih hp.stop front u back (List.cons.inj hrs).2 hu
  | line hg hn hs hrun ih =>
    have hc := (passes_skip ho true).isBoundary_right
    obtain ⟨-, hnext⟩ := (ha.skippedLine hc hs).leads _ rfl
    intro front u back hrs hu
    cases front with
    | nil =>
      obtain ⟨rfl, rfl⟩ := List.cons.inj hrs
      refine skips_skipLine ha hc hn (hgoes _ hg) hs (fun n hn => ?_) fun hnone => ?_
      · obtain rfl := Option.some.inj hn
        exact hrun.follow ha hfollow hnext.isBoundary_right
      · cases hnone
    | cons x front => exact ih hnext.isBoundary_right front u back (List.cons.inj hrs).2 hu
  | lastLine hg hn hs =>
    have hc := (passes_skip ho true).isBoundary_right
    intro front u back hrs hu
    cases front with
    | nil =>
      obtain ⟨rfl, rfl⟩ := List.cons.inj hrs
      refine skips_skipLine ha hc hn (hgoes _ hg) hs (fun n hn => ?_) fun _ => ⟨rfl, rfl⟩
      cases hn
    | cons x front => simp at hrs

/-! ### Scopes and documents -/

/-- The node `r` is a scope or a document with lines that are skipped as they should be. The attempts on them were
made at one depth below `limit`. -/
def Recovers (m : Matcher) (limit : Nat) (r : Match) : Prop :=
  ∃ depth < limit, ∃ id item, r.info.item = some id ∧ m.grammar.item? id = some item ∧
    item.origin = r.info.origin ∧ ∀ front u back, r.children = front ++ u :: back → u.info.isSkippedLine →
      m.Skips (m.matchAt depth) item r.info.kind u back

theorem Recovers.withName {limit : Nat} (h : m.Recovers limit r) (name : String) :
    m.Recovers (limit + 1) (r.withName name) := by
  obtain ⟨depth, hdepth, h⟩ := h
  cases r
  exact ⟨depth, Nat.lt_succ_of_lt hdepth, h⟩

theorem Outcome.isSkippedLine (hinner : ∀ inner, (attempt inner o).value.info.isSkippedLine = false)
    (h : Outcome m attempt id o item r) : r.info.isSkippedLine = false := by
  cases h with
  | blank | noBlank | word | noWord | emptySequence | alternative | noAlternative | noOpening => rfl
  | @sequence _ _ b => cases b <;> rfl
  | @scope _ _ _ _ _ b => cases b <;> rfl
  | named =>
    rw [MatchInfo.isSkippedLine, Match.kind_withName]
    exact hinner _
  | @grammar body rs b hrun =>
    rw [MatchInfo.isSkippedLine, Match.kind_withOrigin, Match.kind_withRange, Match.kind_ofChildren]
    rcases kindOf_cases (!rs.any fun r => r.info.isSkippedLine) with hk | hk <;> rw [hk] <;> rfl

/-- No attempt gives a skipped line. -/
theorem isSkippedLine_matchAt (m : Matcher) : ∀ (depth : Nat) (id : ItemId) (o : Nat),
    (m.matchAt depth id o).value.info.isSkippedLine = false
  | depth, id, o => by
    by_cases ho : m.document.IsBoundary o
    · rcases matchAt_cases ho depth id with hleaf | ⟨n, item, rfl, -, hout⟩
      · rw [hleaf]
        rfl
      · exact hout.isSkippedLine fun inner => isSkippedLine_matchAt m n inner o
    · rw [matchAt_of_not_isBoundary ho]
      rfl

/-- **The outcome of a scope or of a document**, with `hinner` for an outcome that only gets a name. -/
theorem Outcome.recovers {n : Nat} (hitem : m.grammar.item? id = some item) (ho : m.document.IsBoundary o)
    (hinner : ∀ inner, (m.matchAt n inner o).value.info.HasContent → m.Recovers n (m.matchAt n inner o).value)
    (h : Outcome m (m.matchAt n) id o item r) (hr : r.info.HasContent) : m.Recovers (n + 1) r := by
  have ha := sound_matchAt m n
  have hskip := (passes_skip ho true).isBoundary_right
  cases h with
  | blank | noBlank | word | noWord | sequence | emptySequence | alternative | noAlternative =>
    rcases hr with hr | hr <;> cases hr
  | @named name inner =>
    refine (hinner inner ?_).withName name
    cases hvalue : (m.matchAt n inner o).value
    rw [hvalue] at hr
    exact hr
  | @noOpening s opening =>
    refine ⟨n, Nat.lt_succ_self n, id, _, rfl, hitem, rfl, fun front u back hchildren hu => ?_⟩
    -- the only child is the delimiter that was not found
    have hmem : u ∈ [(m.matchAt n opening (m.skip o true)).value] := by
      rw [Match.children_withOrigin, Match.children_ofChildren] at hchildren
      rw [hchildren]
      simp
    rw [List.mem_singleton.mp hmem, isSkippedLine_matchAt] at hu
    cases hu
  | @scope s opening closing body rs b hopening hrun =>
    refine ⟨n, Nat.lt_succ_self n, id, _, rfl, hitem, rfl, fun front u back hchildren hu => ?_⟩
    rw [Match.children_withOrigin, Match.children_ofChildren] at hchildren
    rw [Match.kind_withOrigin, Match.kind_ofChildren]
    cases front with
    | nil =>
      obtain ⟨rfl, -⟩ := List.cons.inj hchildren
      rw [isSkippedLine_matchAt] at hu
      cases hu
    | cons x front =>
      refine ContentRun.skips (.scope s opening closing body) ha ?_ ?_ hrun (ha opening _ hskip).stop
        front u back (List.cons.inj hchildren).2 hu
      · rintro c rs hc ⟨-, -, rfl⟩
        refine ⟨(ha closing c hc).follow trivial, fun e he => ?_⟩
        rw [List.mem_singleton.mp he, isSkippedLine_matchAt]
        exact Bool.false_ne_true
      · intro c hunclosed e he
        obtain rfl := Option.some.inj he
        exact hunclosed
  | @grammar body rs b hrun =>
    refine ⟨n, Nat.lt_succ_self n, id, _, rfl, hitem, rfl, fun front u back hchildren hu => ?_⟩
    rw [Match.children_withOrigin, Match.children_withRange, Match.children_ofChildren] at hchildren
    have hskips : m.Skips (m.matchAt n) (.grammar body) (kindOf b) u back := by
      refine ContentRun.skips (.grammar body) ha ?_ ?_ hrun ho front u back hchildren hu
      · rintro c rs - ⟨-, rfl⟩
        exact ⟨trivial, fun e he => absurd he List.not_mem_nil⟩
      · rintro c - _ hclosing
        cases hclosing
    -- a document with a skipped line is not matched, whether the line is the last one or not
    have hany : (rs.any fun r => r.info.isSkippedLine) = true :=
      List.any_eq_true.mpr ⟨u, by rw [hchildren]; simp, hu⟩
    refine { hskips with last := fun hl => ⟨(hskips.last hl).1, ?_⟩ }
    rw [Match.kind_withOrigin, Match.kind_withRange, Match.kind_ofChildren, hany]
    rfl

/-- **Attempts at scopes and documents skip lines as they should**, at every depth. -/
theorem recovers_matchAt (m : Matcher) : ∀ (depth : Nat) (id : ItemId) {o : Nat}, m.document.IsBoundary o →
    (m.matchAt depth id o).value.info.HasContent → m.Recovers depth (m.matchAt depth id o).value
  | depth, id, o, ho, hr => by
    rcases matchAt_cases ho depth id with hleaf | ⟨n, item, rfl, hitem, hout⟩
    · rw [hleaf] at hr
      rcases hr with hr | hr <;> cases hr
    · exact hout.recovers hitem ho (fun inner => recovers_matchAt m n inner ho) hr

theorem recovers_of_mem_nodes (depth : Nat) (id : ItemId) (ho : m.document.IsBoundary o) {s : Match}
    (hs : s ∈ (m.matchAt depth id o).value.nodes) (hr : s.info.HasContent) : m.Recovers depth s := by
  obtain ⟨n, hn, hp⟩ := exists_piece_of_mem_nodes depth id ho s hs
  cases hp with
  | tried id ho =>
    obtain ⟨k, hk, h⟩ := recovers_matchAt m n id ho hr
    exact ⟨k, lt_of_lt_of_le hk hn, h⟩
  | line ho _ hline =>
    rw [((sound_matchAt m n).skippedLine ho hline).line_eq] at hr
    rcases hr with hr | hr <;> cases hr

/-- **Recovery by lines.** A node of the tree of a document that is a scope or a document itself stands for a part of
the match in which lines are skipped as they should be. -/
theorem recovers_of_node? (m : Matcher) (i : Nat) (n : MatchNode) (hn : m.tree.node? ⟨i⟩ = some n)
    (hcontent : n.HasContent) :
    ∃ r, m.tree.StandsFor m.matchDocument.value.nodes i n r ∧ m.Recovers m.depthLimit r := by
  obtain ⟨r, hr, hinfo, -⟩ := MatchTree.exists_of_node? hn
  obtain ⟨n', hn', hstands⟩ := MatchTree.standsFor_ofMatch hr
  obtain rfl : n = n' := Option.some.inj (hn.symm.trans hn')
  refine ⟨r, hstands, ?_⟩
  exact recovers_of_mem_nodes m.depthLimit CompiledGrammar.root m.document.restAt_zero.isBoundary
    (List.mem_of_getElem? hr) (hinfo ▸ hcontent)

/-- A block that stays open. Nothing explains its first line, the comment on the next one reaches over the carriage
return, and the last line is empty. -/
def openLines : Document :=
  .ofString "\x7b ?\r\n value // c\r\n"

theorem recovers_of_node?_openLines : ∃ c n, blockGrammar.compile .standard = .ok c ∧
    (tree ⟨c, openLines, 512⟩).node? ⟨3⟩ = some n ∧ n.isScope ∧
    n.children.map (fun x => ((tree ⟨c, openLines, 512⟩).info? x).map fun u => (u.isSkippedLine, u.stop)) =
      [some (false, 1), some (true, 3), some (true, 17), some (true, 18)] ∧
    ∃ r, (tree ⟨c, openLines, 512⟩).StandsFor (matchDocument ⟨c, openLines, 512⟩).value.nodes 3 n r ∧
      Recovers ⟨c, openLines, 512⟩ 512 r := by
  obtain ⟨c, hc⟩ := exists_compile_blockGrammar
  have heval : ((blockGrammar.compile .standard).toOption.map fun c => ((tree ⟨c, openLines, 512⟩).node? ⟨3⟩).map fun n =>
      (n.isScope, n.children.map fun x => ((tree ⟨c, openLines, 512⟩).info? x).map fun u =>
        (u.isSkippedLine, u.stop))) =
      some (some (true, [some (false, 1), some (true, 3), some (true, 17), some (true, 18)])) := by
    decide +kernel
  rw [hc] at heval
  obtain ⟨n, hn, hends⟩ := Option.map_eq_some_iff.mp (Option.some.inj heval)
  obtain ⟨hscope, hchildren⟩ := Prod.mk.inj hends
  exact ⟨c, n, hc, hn, hscope, hchildren, recovers_of_node? ⟨c, openLines, 512⟩ 3 n hn (Or.inl hscope)⟩

end Matcher

end ShaderAssist
