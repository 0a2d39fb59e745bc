import ShaderAssist.Proofs.Pattern.Reading

/-!
# Normal forms of patterns

The reader joins letters to words and blanks to spaces, and it takes the space and the three points off the end of
an optional part. So only some lists of elements can be its answer, the *normal forms* (`NormalForm`). Nothing else is
asked of them: every normal form can be written down (`render`), and what was written is read as the normal form
again.

In a name the backslash has to be escaped like the character that closes the name. `renderWith` leaves open which
characters are escaped there.
-/

namespace ShaderAssist

namespace Pattern

/-! ### Normal forms -/

/-- A regular expression as the reader answers with it: slashes, other characters except for the backslash, and
escapes of characters other than the slash. -/
inductive IsRegexSource : List Char → Prop
  | nil : IsRegexSource []
  | slash {cs : List Char} (h : IsRegexSource cs) : IsRegexSource ('/' :: cs)
  | plain {c : Char} {cs : List Char} (hslash : c ≠ '/') (hescape : c ≠ '\\') (h : IsRegexSource cs) :
    IsRegexSource (c :: cs)
  | escaped {c : Char} {cs : List Char} (hslash : c ≠ '/') (h : IsRegexSource cs) :
    IsRegexSource ('\\' :: c :: cs)

/-- Two elements that do not become one when they stand next to each other: not both are words, and not both are
space. -/
def Separate (e f : Element) : Prop :=
  (∀ t u, ¬ (e = .text t ∧ f = .text u)) ∧ Apart e f

/-- **An element in normal form.** -/
inductive IsNormal : Element → Prop
  | text {t : String} (hne : t ≠ "") : IsNormal (.text t)
  | space : IsNormal .space
  | reference {name : String} (hne : name ≠ "") : IsNormal (.reference name)
  | scope {name : String} (hne : name ≠ "") : IsNormal (.scope name)
  | regex {source : String} (hne : source ≠ "") (hsource : IsRegexSource source.toList) :
    IsNormal (.regex source)
  | optional {es : List Element} {repeats : Bool} (hne : es ≠ []) (hes : ∀ e ∈ es, IsNormal e)
    (hseparate : es.IsChain Separate) (hspace : es.getLast? ≠ some .space)
    (hdots : repeats = false → ∀ word, es.getLast? ≠ some (.text (word ++ "..."))) :
    IsNormal (.optional es repeats)

/-- **A list of elements in normal form.** -/
structure NormalForm (es : List Element) : Prop where
  ne_nil : es ≠ []
  elements : ∀ e ∈ es, IsNormal e
  separate : es.IsChain Separate

/-! ### Writing elements -/

/-- A text with a backslash before each of some characters. -/
def escape (marked : List Char) (text : List Char) : List Char :=
  text.flatMap fun c => if c ∈ marked then ['\\', c] else [c]

/-- What makes an optional part repeatable. -/
def repeatMark : List Char :=
  ['.', '.', '.']

mutual

/-- An element in writing. `marked close` are the characters that are escaped in a name that `close` ends. -/
def renderElement (marked : Char → List Char) : Element → List Char
  | .text t => escape special t.toList
  | .space => [' ']
  | .reference name => '<' :: (escape (marked '>') name.toList ++ ['>'])
  | .scope name => '\x7b' :: (escape (marked '\x7d') name.toList ++ ['\x7d'])
  | .regex source => '/' :: (escape ['/'] source.toList ++ ['/'])
  | .optional es repeats => '[' :: (renderAll marked es ++ (if repeats then repeatMark else []) ++ [']'])

/-- Elements in writing, one after the other. -/
def renderAll (marked : Char → List Char) : List Element → List Char
  | [] => []
  | e :: es => renderElement marked e ++ renderAll marked es

end

/-- Elements in writing, with the given escapes in names. -/
def renderWith (marked : Char → List Char) (es : List Element) : String :=
  String.ofList (renderAll marked es)

/-- The characters that do not stand for themselves in a name. -/
def markedInName (close : Char) : List Char :=
  ['\\', close]

/-- **Elements in writing**: special characters are escaped in words, the backslash and the closing character in
names, and the slash in regular expressions. -/
def render (es : List Element) : String :=
  renderWith markedInName es

/-! ### Spellings -/

theorem spells_escape (marked t : List Char) : Spells marked itself (escape marked t) t := by
  induction t with
  | nil => exact .nil
  | cons c t ih =>
    unfold escape at ih ⊢
    rw [List.flatMap_cons]
    split_ifs with hc
    · exact .escaped ih
    · exact .plain hc ih

theorem IsRegexSource.spells {source : List Char} (h : IsRegexSource source) :
    SpellsRegex (escape ['/'] source) source := by
  induction h with
  | nil => exact .nil
  | slash _ ih => exact .escaped (c := '/') ih
  | plain hslash hescape _ ih =>
    unfold escape at ih ⊢
    rw [List.flatMap_cons, if_neg (by simpa using hslash)]
    exact .plain (by simp [hslash, hescape]) ih
  | @escaped c cs hslash _ ih =>
    have hkept : unescapeSlash c = ['\\', c] := if_neg hslash
    have hspelled : SpellsRegex ('\\' :: c :: escape ['/'] cs) (unescapeSlash c ++ cs) := .escaped ih
    rw [hkept] at hspelled
    unfold escape at hspelled ⊢
    rwa [List.flatMap_cons, List.flatMap_cons, if_neg (by decide), if_neg (by simpa using hslash)]

theorem isRegexSource_of_spells {s source : List Char} (h : SpellsRegex s source) : IsRegexSource source := by
  induction h with
  | nil => exact .nil
  | @plain c s t hc _ ih =>
    have hne : c ≠ '\\' ∧ c ≠ '/' := by simpa using hc
    exact .plain hne.2 hne.1 ih
  | @escaped c s t _ ih =>
    unfold unescapeSlash
    split_ifs with hc
    · exact .slash ih
    · exact .escaped hc ih

/-! ### What is read is in normal form -/

section Separate

variable {es front : List Element} {e : Element}

theorem separate_of_isWhole_left (he : IsWhole e) (f : Element) : Separate e f :=
  ⟨fun t _ h => he.1 t h.1, fun h => he.2 h.1⟩

theorem apart_of_separate (h : es.IsChain Separate) : es.IsChain Apart :=
  h.imp fun _ _ hsep => hsep.2

/-- One word in place of another one at the end. -/
theorem separate_replace_word {t : String} (h : (front ++ [Element.text t]).IsChain Separate) (u : String) :
    (front ++ [Element.text u]).IsChain Separate := by
  rw [List.isChain_append] at h ⊢
  refine ⟨h.1, .singleton _, fun e he f hf => ?_⟩
  obtain rfl := Option.some.inj hf
  have hsep := h.2.2 e he (.text t) rfl
  exact ⟨fun a _ hboth => hsep.1 a t ⟨hboth.1, rfl⟩, fun hboth => by cases hboth.2⟩

theorem trimSpace_isPrefix (es : List Element) : trimSpace es <+: es := by
  unfold trimSpace
  split_ifs
  · exact List.dropLast_prefix es
  · exact List.prefix_rfl

theorem trimSpace_of_getLast? (h : es.getLast? ≠ some .space) : trimSpace es = es := by
  unfold trimSpace
  rw [if_neg]
  intro hany
  obtain ⟨e, he, hspace⟩ := Option.any_eq_true _ _ |>.mp hany
  exact h (isSpace_iff.mp hspace ▸ he)

theorem getLast?_trimSpace (h : es.IsChain Apart) : (trimSpace es).getLast? ≠ some .space := by
  intro hlast
  obtain ⟨front, hfront⟩ := List.getLast?_eq_some_iff.mp hlast
  have htrim := dropWhile_isSpace_reverse h
  rw [hfront, List.reverse_append, List.reverse_singleton, List.singleton_append] at htrim
  have hhead := List.head?_dropWhile_not Element.isSpace es.reverse
  rw [htrim] at hhead
  exact absurd hhead (by simp [Element.isSpace])

end Separate

/-- An optional part is in normal form if the elements between its brackets are. -/
theorem Closes.isNormal {body : List Element} {e : Element} (h : Closes body e) (hbody : ∀ e ∈ body, IsNormal e)
    (hseparate : body.IsChain Separate) : IsNormal e := by
  have hsub := trimSpace_isPrefix body
  have helements : ∀ e ∈ trimSpace body, IsNormal e := fun e he => hbody e (hsub.subset he)
  have hchain := hseparate.prefix hsub
  cases h with
  | once hne hdots =>
    exact .optional hne helements hchain (getLast?_trimSpace (apart_of_separate hseparate)) fun _ => hdots
  | @word es word hes hword =>
    rw [hes] at helements hchain
    refine .optional (by simp) (List.forall_mem_append.mpr ⟨fun e he => ?_, ?_⟩) (separate_replace_word hchain _)
      (by simp) (fun h => absurd h (by decide))
    · exact helements e (List.mem_append_left _ he)
    · exact List.forall_mem_singleton.mpr (.text hword)
  | @points es hes hne =>
    rw [hes] at helements hchain
    have hfront := hchain.left_of_append
    have hsub' := trimSpace_isPrefix es
    have htrimmed := hfront.prefix hsub'
    refine .optional hne (fun e he => ?_) htrimmed (getLast?_trimSpace (apart_of_separate hfront))
      (fun h => absurd h (by decide))
    exact helements e (List.mem_append_left _ (hsub'.subset he))

/-- **Elements that can be written** are in normal form, and so is every part of them. -/
theorem Sequence.isNormal {s : List Char} {es : List Element} (h : Sequence s es) :
    (∀ e ∈ es, IsNormal e) ∧ es.IsChain Separate := by
  induction h with
  | nil => exact ⟨by simp, .nil⟩
  | text hs hword _ hmax ih =>
    refine ⟨List.forall_mem_cons.mpr ⟨.text (by simpa using hword), ih.1⟩, ih.2.cons fun f hf => ?_⟩
    exact ⟨fun _ u hboth => hmax u (hboth.2 ▸ hf), fun hboth => by cases hboth.1⟩
  | space _ _ _ hmax ih =>
    refine ⟨List.forall_mem_cons.mpr ⟨.space, ih.1⟩, ih.2.cons fun f hf => ⟨fun _ _ hboth => ?_, fun hboth => ?_⟩⟩
    · cases hboth.1
    · exact hmax (hboth.2 ▸ hf)
  | reference _ hname _ ih =>
    exact ⟨List.forall_mem_cons.mpr ⟨.reference (by simpa using hname), ih.1⟩,
      ih.2.cons fun f _ => separate_of_isWhole_left (isWhole_reference _) f⟩
  | scope _ hname _ ih =>
    exact ⟨List.forall_mem_cons.mpr ⟨.scope (by simpa using hname), ih.1⟩,
      ih.2.cons fun f _ => separate_of_isWhole_left (isWhole_scope _) f⟩
  | regex hs hsource _ ih =>
    refine ⟨List.forall_mem_cons.mpr ⟨.regex (by simpa using hsource) ?_, ih.1⟩,
      ih.2.cons fun f _ => separate_of_isWhole_left (isWhole_regex _) f⟩
    rw [String.toList_ofList]
    exact isRegexSource_of_spells hs
  | optional _ he _ ih ih' =>
    exact ⟨List.forall_mem_cons.mpr ⟨he.isNormal ih.1 ih.2, ih'.1⟩,
      ih'.2.cons fun f _ => separate_of_isWhole_left he.isWhole f⟩

/-! ### What is in normal form can be written -/

/-- What is written of an element can stand before every sequence that it does not join. -/
def Writes (e : Element) : Prop :=
  ∀ {r : List Char} {es : List Element}, Sequence r es → (∀ f ∈ es.head?, Separate e f) →
    Sequence (renderElement markedInName e ++ r) (e :: es)

theorem renderAll_append (marked : Char → List Char) (es es' : List Element) :
    renderAll marked (es ++ es') = renderAll marked es ++ renderAll marked es' := by
  induction es with
  | nil => rw [renderAll, List.nil_append, List.nil_append]
  | cons e es ih => rw [List.cons_append, renderAll, renderAll, ih, List.append_assoc]

/-- Elements that can be written one by one can be written in a row. -/
theorem sequence_renderAll {es tail : List Element} {r : List Char} (htail : Sequence r tail)
    (hes : ∀ e ∈ es, Writes e) (hseparate : (es ++ tail).IsChain Separate) :
    Sequence (renderAll markedInName es ++ r) (es ++ tail) := by
  induction es with
  | nil => exact htail
  | cons e es ih =>
    obtain ⟨he, hes⟩ := List.forall_mem_cons.mp hes
    rw [List.cons_append, List.isChain_cons] at hseparate
    rw [renderAll, List.append_assoc, List.cons_append]
    exact he (ih hes hseparate.2) hseparate.1

/-- A word is written with its special characters escaped. -/
theorem sequence_word (word : List Char) (hne : word ≠ []) :
    Sequence (escape special word) [.text (String.ofList word)] := by
  have hword := Sequence.text (spells_escape special word) hne .nil (by simp)
  rwa [List.append_nil] at hword

/-- Between the brackets of a repeatable part the mark goes on with the last word, if the part ends in one. -/
theorem exists_repeated_body {es : List Element} (hne : es ≠ []) (hes : ∀ e ∈ es, IsNormal e)
    (hwrites : ∀ e ∈ es, Writes e) (hseparate : es.IsChain Separate) (hspace : es.getLast? ≠ some .space) :
    ∃ body, Sequence (renderAll markedInName es ++ repeatMark) body ∧ Closes body (.optional es true) := by
  obtain ⟨front, last, rfl⟩ := (List.eq_nil_or_concat' es).resolve_left hne
  by_cases hlast : ∃ w, last = .text w
  · obtain ⟨w, rfl⟩ := hlast
    have hw : w ≠ "" := by
      cases hes (.text w) (by simp) with
      | text hne => exact hne
    have hword := sequence_word (w.toList ++ repeatMark) (by simp [repeatMark])
    rw [escape, List.flatMap_append, String.ofList_append, String.ofList_toList] at hword
    have hbody := sequence_renderAll hword (fun e he => hwrites e (List.mem_append_left _ he))
      (separate_replace_word hseparate (w ++ "..."))
    rw [← List.append_assoc] at hbody
    refine ⟨front ++ [.text (w ++ "...")], ?_, .word (trimSpace_of_getLast? (by simp)) hw⟩
    rw [renderAll_append, renderAll, renderAll, renderElement, List.append_nil]
    exact hbody
  · have htrim := trimSpace_of_getLast? hspace
    have hchain : (front ++ [last] ++ [Element.text "..."]).IsChain Separate := by
      refine hseparate.append (.singleton _) fun e he f hf => ?_
      rw [List.getLast?_concat] at he
      obtain rfl := Option.some.inj he
      obtain rfl := Option.some.inj hf
      exact ⟨fun t _ hboth => hlast ⟨t, hboth.1⟩, fun hboth => by cases hboth.2⟩
    have hcloses : Closes _ (.optional (trimSpace (front ++ [last])) true) :=
      .points (trimSpace_of_getLast? (by simp)) (by rwa [htrim])
    rw [htrim] at hcloses
    exact ⟨_, sequence_renderAll (sequence_word repeatMark (by simp [repeatMark])) hwrites hchain, hcloses⟩

/-- **An element in normal form can be written.** -/
theorem IsNormal.writes {e : Element} (h : IsNormal e) : Writes e := by
  induction h with
  | @text t hne =>
    intro r es hr hseparate
    have htext := hr.text (spells_escape special t.toList) (by simpa using hne)
      (fun u hu => (hseparate _ hu).1 t u ⟨rfl, rfl⟩)
    rwa [String.ofList_toList] at htext
  | space =>
    intro r es hr hseparate
    exact .space (s := [' ']) (by simp [IsSpacing]) (by simp) hr fun hspace => (hseparate _ hspace).2 ⟨rfl, rfl⟩
  | @reference name hne =>
    intro r es hr _
    have hname := Sequence.reference (spells_escape (markedInName '>') name.toList) (by simpa using hne) hr
    rw [String.ofList_toList] at hname
    rwa [renderElement, List.cons_append, List.append_assoc]
  | @scope name hne =>
    intro r es hr _
    have hname := Sequence.scope (spells_escape (markedInName '\x7d') name.toList) (by simpa using hne) hr
    rw [String.ofList_toList] at hname
    rwa [renderElement, List.cons_append, List.append_assoc]
  | @regex source hne hsource =>
    intro r es hr _
    have hregex := Sequence.regex hsource.spells (by simpa using hne) hr
    rw [String.ofList_toList] at hregex
    rwa [renderElement, List.cons_append, List.append_assoc]
  | @optional es repeats hne hes hseparate hspace hdots ih =>
    intro r es' hr _
    obtain ⟨body, hbody, hcloses⟩ : ∃ body,
        Sequence (renderAll markedInName es ++ if repeats then repeatMark else []) body ∧
          Closes body (.optional es repeats) := by
      cases repeats with
      | false =>
        have htrim := trimSpace_of_getLast? hspace
        have hbody := sequence_renderAll .nil ih (by rwa [List.append_nil])
        rw [List.append_nil es] at hbody
        have hcloses : Closes es (.optional (trimSpace es) false) :=
          .once (by rwa [htrim]) (by rw [htrim]; exact hdots rfl)
        rw [htrim] at hcloses
        exact ⟨es, hbody, hcloses⟩
      | true => exact exists_repeated_body hne hes ih hseparate hspace
    rw [renderElement, List.cons_append, List.append_assoc]
    exact .optional hbody hcloses hr

/-! ### Reading and writing -/

theorem denotes_render {es : List Element} (h : NormalForm es) : Denotes (render es) es := by
  have hwritten := sequence_renderAll .nil (fun e he => (h.elements e he).writes)
    (by rw [List.append_nil]; exact h.separate)
  rw [List.append_nil, List.append_nil] at hwritten
  refine ⟨?_, h.ne_nil⟩
  rw [render, renderWith, String.toList_ofList]
  exact hwritten

theorem Denotes.normalForm {source : String} {es : List Element} (h : Denotes source es) : NormalForm es :=
  ⟨h.2, h.1.isNormal.1, h.1.isNormal.2⟩

/-- **Normal forms.** The answers of the reader are exactly the lists of elements in normal form, and each of them is
the answer for the text that writes it. -/
theorem normalForm_iff (es : List Element) : (NormalForm es ↔ ∃ source, readElements source = .ok es) ∧
    (NormalForm es ↔ readElements (render es) = .ok es) := by
  have hread : (∃ source, readElements source = .ok es) → NormalForm es := by
    rintro ⟨source, h⟩
    exact (readElements_eq_ok.mp h).normalForm
  have hwrite : NormalForm es → readElements (render es) = .ok es := fun h =>
    readElements_eq_ok.mpr (denotes_render h)
  exact ⟨⟨fun h => ⟨_, hwrite h⟩, hread⟩, hwrite, fun h => hread ⟨_, h⟩⟩

example : render [.text "a", .space, .optional [.reference "b>", .text "/..."] true] = "a [<b\\>>\\/......]" := by
  decide

/-- A name with a backslash in it. -/
def backslashName : List Element :=
  [.reference "a\\b"]

/-- It is not enough to escape the closing character in names. -/
theorem readElements_renderWith_closers : NormalForm backslashName ∧
    readElements (renderWith (fun close => [close]) backslashName) ≠ .ok backslashName := by
  have hnormal : NormalForm backslashName :=
    ⟨by simp [backslashName], List.forall_mem_singleton.mpr (.reference (by decide)), .singleton _⟩
  have hspelled : SpellsName '>' ['a', '\\', 'b'] ['a', 'b'] := .plain (by decide) (.escaped .nil)
  have hdenotes : Denotes (renderWith (fun close => [close]) backslashName) [.reference "ab"] :=
    ⟨.reference hspelled (by decide) .nil, by simp⟩
  refine ⟨hnormal, fun h => ?_⟩
  rw [readElements_eq_ok.mpr hdenotes] at h
  have hname := Element.reference.inj (List.singleton_inj.mp (Except.ok.inj h))
  exact absurd hname (by decide)

end Pattern

end ShaderAssist
