import ShaderAssist.Proofs.Cg.Declarations
import ShaderAssist.Proofs.Symbols.Includes
import ShaderAssist.Symbols.UnitType

/-!
# Types of arrays

A declaration of a variable, a parameter or a struct member may come with an array size. The collectors of
variables and of members record it, that of parameters does not (`recordedSize`); what is recorded stays for the
rest of the run (`Declares.variableAt?`). The type of a unit looks at it only for the variable that the unit starts
with (`Selects.reaches`). So of the declared arrays those that are variables and start a unit are typed as arrays,
and all others as values of the declared type (`ofUnit_declaredArray`).
-/

namespace ShaderAssist

namespace UnitType

variable {m : MatchedDocument} {s : Symbols} {cg : Cg.Table} {unit : NodeId} {u u' : UnitType}

/-! ### Accessors -/

/-- An accessor is a subscript. -/
def IsSubscript (accessor : String) : Prop :=
  accessor.toList.head? = some '['

instance (accessor : String) : Decidable (IsSubscript accessor) :=
  inferInstanceAs (Decidable (_ = _))

/-- The name of the member that an accessor selects. -/
def memberName (accessor : String) : String :=
  trimBlank (String.ofList (accessor.toList.dropWhile (· == '.')))

/-- The type after an accessor of an array: a subscript takes the array away. -/
def ofElement (type : Cg.TypeId) (accessor : String) : Option UnitType :=
  if IsSubscript accessor then some ⟨type, false⟩ else none

/-- The type after an accessor of a value: a component, or a member. -/
def ofPart (cg : Cg.Table) (type : Cg.TypeId) (accessor : String) : Option UnitType :=
  (if IsSubscript accessor then (cg.typeAt? type).bind Cg.TypeInfo.element
    else cg.memberType? type (memberName accessor)).map (⟨·, false⟩)

theorem access_array (cg : Cg.Table) (type : Cg.TypeId) (accessor : String) :
    access cg ⟨type, true⟩ accessor = ofElement type accessor := by
  unfold access ofElement
  exact ite_congr rfl (fun _ => rfl) (fun _ => rfl)

theorem access_value (cg : Cg.Table) (type : Cg.TypeId) (accessor : String) :
    access cg ⟨type, false⟩ accessor = ofPart cg type accessor := by
  unfold access ofPart
  rw [apply_ite (Option.map _)]
  exact ite_congr rfl (fun _ => rfl) (fun _ => rfl)

/-! ### Chains of accessors -/

/-- The type at the start of a unit. -/
def start (m : MatchedDocument) (s : Symbols) (unit : NodeId) : Option UnitType := do
  let context ← s.contextAround? m.tree unit
  match m.captured? unit "variable" with
    | some name => ofVariable s.cg context name
    | none => do ofCall s.cg context (← m.captured? unit "callee")

/-- The type after some accessors, one after the other. -/
def follow (m : MatchedDocument) (cg : Cg.Table) (accessors : List NodeId) (u : UnitType) : Option UnitType :=
  accessors.foldlM (fun u id => u.access cg (m.trimmedText id)) u

/-- A unit has a type after some accessors. -/
def Reaches (m : MatchedDocument) (s : Symbols) (unit : NodeId) (accessors : List NodeId) (u : UnitType) : Prop :=
  (start m s unit).bind (follow m s.cg accessors) = some u

theorem ofUnit_eq (m : MatchedDocument) (s : Symbols) (unit : NodeId) (last : Option NodeId) :
    ofUnit m s unit last = (start m s unit).bind (follow m s.cg (accessorsBefore m unit last)) := by
  unfold ofUnit start
  rcases s.contextAround? m.tree unit with _ | context
  · rfl
  · rcases m.captured? unit "variable" with _ | name
    · exact (Option.bind_assoc _ _ _).symm
    · rfl

theorem follow_append (m : MatchedDocument) (cg : Cg.Table) (done rest : List NodeId) (u : UnitType) :
    follow m cg (done ++ rest) u = (follow m cg done u).bind (follow m cg rest) :=
  List.foldlM_append

theorem follow_cons (m : MatchedDocument) (cg : Cg.Table) (a : NodeId) (rest : List NodeId) (u : UnitType) :
    follow m cg (a :: rest) u = (u.access cg (m.trimmedText a)).bind (follow m cg rest) :=
  List.foldlM_cons

theorem Reaches.concat {done : List NodeId} {a : NodeId} (h : Reaches m s unit done u)
    (ha : u.access s.cg (m.trimmedText a) = some u') : Reaches m s unit (done ++ [a]) u' := by
  obtain ⟨u₀, hstart, hdone⟩ := Option.bind_eq_some_iff.1 h
  rw [Reaches, hstart, Option.bind_some, follow_append, hdone, Option.bind_some, follow_cons, ha]
  rfl

/-- **The rest of a unit** goes on from the type that its first accessors reach. -/
theorem Reaches.ofUnit_eq {done rest : List NodeId} {last : Option NodeId} (h : Reaches m s unit done u)
    (hacc : accessorsBefore m unit last = done ++ rest) : ofUnit m s unit last = follow m s.cg rest u := by
  obtain ⟨u₀, hstart, hdone⟩ := Option.bind_eq_some_iff.1 h
  rw [UnitType.ofUnit_eq, hacc, hstart, Option.bind_some, follow_append, hdone, Option.bind_some]

/-! ### Selected variables -/

/-- A unit selects a variable by its name at the start, or by its last accessor as a member. -/
inductive Selects (m : MatchedDocument) (s : Symbols) (unit : NodeId) : List NodeId → Cg.VariableId → Prop where
  | variable {context : Cg.ContextId} {name : String} {id : Cg.VariableId} :
    s.contextAround? m.tree unit = some context → m.captured? unit "variable" = some name →
    s.cg.findVariable context name = some id → Selects m s unit [] id
  | member {done : List NodeId} {a : NodeId} {type : Cg.TypeId} {info : Cg.TypeInfo} {id : Cg.VariableId} :
    Reaches m s unit done ⟨type, false⟩ → ¬IsSubscript (m.trimmedText a) → s.cg.typeAt? type = some info →
    info.members.find? (s.cg.variableNamed (memberName (m.trimmedText a))) = some id →
    Selects m s unit (done ++ [a]) id

/-- **The type of a selected variable** has its array size only at the start of a unit. -/
theorem Selects.reaches {done : List NodeId} {id : Cg.VariableId} {x : Cg.Variable} (h : Selects m s unit done id)
    (hx : s.cg.variableAt? id = some x) :
    Reaches m s unit done ⟨x.type, decide (done = []) && x.arraySize.isSome⟩ := by
  cases h with
  | «variable» hcontext hname hfound =>
    have hstart : start m s unit = some ⟨x.type, x.arraySize.isSome⟩ := by
      simp [start, ofVariable, hcontext, hname, hfound, hx]
    rw [Reaches, hstart]
    rfl
  | member hreaches hsub hinfo hfound =>
    refine hreaches.concat ?_
    rw [access_value, ofPart, if_neg hsub, Cg.Table.memberType?]
    simp [hinfo, hfound, hx]

end UnitType

namespace Symbols

variable {m : MatchedDocument} {v : Vocabulary} {g : CompiledGrammar} {node : NodeId} {c : Collector}
  {s s' : Symbols}

/-! ### What collectors declare -/

/-- A collector declares a variable, a parameter or a member. -/
def DeclaresOne (c : Collector) : Prop :=
  c = .declarator ∨ c = .parameter ∨ c = .structMember

/-- The type that such a collector declares something with: that of the surrounding declaration, or the one that
the matched name means in the program of the function or struct. -/
def declaredType? (m : MatchedDocument) (s : Symbols) (node : NodeId) : Collector → Option Cg.TypeId
  | .parameter => do
    let function ← s.cg.functionAt? (← s.functionAround? m.tree node)
    some (s.cg.resolveType function.global (← m.word? node "type")).1
  | .structMember => do
    let owner ← s.cg.typeAt? (← s.typeAround? m.tree node)
    some (s.cg.resolveType owner.global (← m.word? node "type")).1
  | _ => s.typeAround? m.tree node

/-- The array size that a collector records: none for a parameter, and else the one that was matched. -/
def recordedSize (m : MatchedDocument) (node : NodeId) (c : Collector) : Option String :=
  if c = .parameter then none else (m.word? node "arraySize").map arraySizeOf

theorem declarations_declareVariable (m : MatchedDocument) (node : NodeId) (cg : Cg.Table) (type : Cg.TypeId)
    (name : String) : (declareVariable m node cg type name).2.declarations =
      cg.declarations ++ [⟨name, type, (m.word? node "arraySize").map arraySizeOf⟩] := by
  unfold declareVariable
  dsimp only
  split
  · next brackets hsize =>
    rw [hsize]
    exact cg.declarations_setArraySize type name _ _
  · next hsize =>
    rw [hsize]
    exact cg.declarations_createVariable type name _

/-- **The declaration that a collector makes** comes after all others, and has the recorded size. -/
theorem declarations_collect? (hone : DeclaresOne c) (hc : s.collect? m v node c = some s') :
    ∃ front name type, s'.cg.declarations = front ++ [⟨name, type, recordedSize m node c⟩] ∧
      s.cg.declarations <+: front ∧ s.declaredType? m node c = some type := by
  rcases hone with rfl | rfl | rfl
  · simp only [collect?, collectDeclarator, Option.bind_eq_bind, Option.bind_eq_some_iff] at hc
    obtain ⟨type, htype, context, -, name, -, hs⟩ := hc
    obtain rfl := Option.some.inj hs
    refine ⟨s.cg.declarations, name, type, ?_, List.prefix_rfl, htype⟩
    exact (Cg.Table.declarations_addVariable _ _ _).trans (declarations_declareVariable m node s.cg type name)
  · simp only [collect?, collectParameter, Option.bind_eq_bind, Option.bind_eq_some_iff] at hc
    obtain ⟨function, hfunction, f, hf, typeName, hname, name, -, hs⟩ := hc
    obtain rfl := Option.some.inj hs
    refine ⟨_, name, (s.cg.resolveType f.global typeName).1, ?_,
      (s.cg.typeEdits_resolveType f.global typeName).declarations, by simp [declaredType?, hfunction, hf, hname]⟩
    exact (Cg.Table.declarations_addParameter _ _ _).trans (Cg.Table.declarations_createVariable _ _ name _)
  · simp only [collect?, collectStructMember, Option.bind_eq_bind, Option.bind_eq_some_iff] at hc
    obtain ⟨owner, howner, info, hinfo, typeName, hname, name, -, hs⟩ := hc
    obtain rfl := Option.some.inj hs
    refine ⟨_, name, (s.cg.resolveType info.global typeName).1, ?_,
      (s.cg.typeEdits_resolveType info.global typeName).declarations, by simp [declaredType?, howner, hinfo, hname]⟩
    exact declarations_declareVariable m node _ _ name

/-! ### Declarations stay -/

theorem declarations_createProgram (m : MatchedDocument) (v : Vocabulary) (s : Symbols) (node : NodeId) :
    s.cg.declarations <+: (s.createProgram m v node).2.cg.declarations := by
  have himports (x : Cg.GlobalId) (sources : List Cg.GlobalId) (cg : Cg.Table) :
      cg.declarations <+: (sources.foldl (fun cg source => cg.importGlobal x source) cg).declarations := by
    induction sources generalizing cg with
    | nil => exact List.prefix_rfl
    | cons source sources ih => exact (cg.declarations_importGlobal x source).trans (ih _)
  rw [cg_createProgram]
  exact (s.cg.declarations_createGlobal v).trans (himports _ _ (s.withNewProgram m v node))

theorem Change.declarations (hc : Change m v node c s s') (hd : isDeclaration c = false) :
    s.cg.declarations <+: s'.cg.declarations := by
  cases hc with
  | program => exact declarations_createProgram m v s node
  | includeBlock =>
    rw [(sizes_collectInclude s m v node).2]
    exact declarations_createProgram m v s node
  | declare hdecl => exact absurd (hd.symm.trans hdecl) Bool.false_ne_true
  | declareAt hdecl => exact absurd (hd.symm.trans hdecl) Bool.false_ne_true
  | _ => exact List.prefix_rfl

/-- **A collector keeps all declarations.** -/
theorem declarations_of_collect? (h : s.InRange) (hc : s.collect? m v node c = some s') :
    s.cg.declarations <+: s'.cg.declarations := by
  have hdeclares (hone : DeclaresOne c) : s.cg.declarations <+: s'.cg.declarations := by
    obtain ⟨front, name, type, heq, hfront, -⟩ := declarations_collect? hone hc
    exact heq ▸ hfront.trans (List.prefix_append _ _)
  -- a declaration is more than `Steps`, which may set the size of any variable, so the change is not enough there
  have hchange := change_of_collect? h hc
  cases c with
  | declarator => exact hdeclares (.inl rfl)
  | parameter => exact hdeclares (.inr (.inl rfl))
  | structMember => exact hdeclares (.inr (.inr rfl))
  | struct =>
    simp only [collect?, collectStruct, Option.bind_eq_bind, Option.bind_eq_some_iff] at hc
    obtain ⟨global, -, name, -, hs⟩ := hc
    exact Option.some.inj hs ▸ (s.cg.typeEdits_addType global name).declarations
  | function =>
    simp only [collect?, collectFunction, Option.bind_eq_bind, Option.bind_eq_some_iff] at hc
    obtain ⟨global, -, typeName, -, name, -, hs⟩ := hc
    exact Option.some.inj hs ▸ (s.cg.typeEdits_resolveType global typeName).declarations
  | block =>
    simp only [collect?, collectBlock, Option.bind_eq_bind, Option.bind_eq_some_iff] at hc
    obtain ⟨upper, -, hs⟩ := hc
    obtain rfl := Option.some.inj hs
    have hcontext := s.cg.declarations_createContext upper
    dsimp only [setState]
    split
    · exact (Cg.Table.declarations_setBody _ _ _).trans hcontext ▸ List.prefix_rfl
    · exact hcontext ▸ List.prefix_rfl
  | «variable» =>
    simp only [collect?, collectVariable, Option.bind_eq_bind, Option.bind_eq_some_iff] at hc
    obtain ⟨global, -, typeName, -, hs⟩ := hc
    exact Option.some.inj hs ▸ (s.cg.typeEdits_resolveType global typeName).declarations
  | forInit =>
    simp only [collect?, collectForInit, Option.bind_eq_bind, Option.bind_eq_some_iff] at hc
    obtain ⟨context, -, typeName, -, name, -, k, -, hs⟩ := hc
    obtain rfl := Option.some.inj hs
    refine (s.cg.typeEdits_resolveType k.global typeName).declarations.trans ?_
    rw [Cg.Table.declarations_addVariable, Cg.Table.declarations_createVariable]
    exact List.prefix_append _ _
  | _ => exact hchange.declarations rfl

/-- **Declarations stay** along a run. -/
theorem declarations_after (m : MatchedDocument) (v : Vocabulary) (done rest : List (NodeId × Collector)) :
    (after m v done).cg.declarations <+: (after m v (done ++ rest)).cg.declarations := by
  induction rest using List.reverseRecOn with
  | nil => exact (List.append_nil done).symm ▸ List.prefix_rfl
  | append_singleton rest entry ih =>
    rw [← List.append_assoc]
    refine ih.trans ?_
    rcases after_concat_cases m v (done ++ rest) entry with heq | hc
    · exact heq.symm ▸ List.prefix_rfl
    · exact declarations_of_collect? (inRange_after m v _) hc

/-! ### Declared variables -/

/-- A collector of a document declares a variable, parameter or member with a type. It is the last variable when
the collector has run. -/
def Declares (m : MatchedDocument) (v : Vocabulary) (g : CompiledGrammar) (c : Collector) (node : NodeId)
    (id : Cg.VariableId) (type : Cg.TypeId) : Prop :=
  DeclaresOne c ∧ ∃ done rest, plan g m.tree = done ++ (node, c) :: rest ∧
    ((after m v done).collect? m v node c).map (fun s => s.cg.vars.size) = some (id.index + 1) ∧
    (after m v done).declaredType? m node c = some type

/-- **A declared variable in the end** has the type it was declared with, and the recorded array size. -/
theorem Declares.variableAt? {id : Cg.VariableId} {type : Cg.TypeId} (h : Declares m v g c node id type) :
    ∃ x, (ofMatched m v g).cg.variableAt? id = some x ∧ x.type = type ∧ x.arraySize = recordedSize m node c := by
  obtain ⟨hone, done, rest, hplan, hrun, htype⟩ := h
  obtain ⟨s', hc, hid⟩ := Option.map_eq_some_iff.1 hrun
  obtain ⟨front, name, type', hdecl, -, htype'⟩ := declarations_collect? hone hc
  obtain rfl : type' = type := Option.some.inj (htype'.symm.trans htype)
  have hafter : after m v (done ++ [(node, c)]) = s' := by
    rw [after_concat, collect, hc]
    rfl
  have hindex : front.length = id.index := by
    have hlength := s'.cg.length_declarations
    rw [hdecl, List.length_append, List.length_singleton, hid] at hlength
    exact Nat.succ.inj hlength
  have hend : (ofMatched m v g).cg.declarations[id.index]? = some ⟨name, type', recordedSize m node c⟩ := by
    obtain ⟨later, hlater⟩ := declarations_after m v (done ++ [(node, c)]) rest
    rw [List.append_assoc, List.singleton_append, ← hplan, hafter, hdecl, List.append_assoc] at hlater
    rw [← hindex, ofMatched, ← after, ← hlater, List.getElem?_append_right (Nat.le_refl _), Nat.sub_self]
    rfl
  rw [Cg.Table.getElem?_declarations, Option.map_eq_some_iff] at hend
  obtain ⟨x, hx, hdeclaration⟩ := hend
  exact ⟨x, hx, congrArg Cg.Declaration.type hdeclaration, congrArg Cg.Declaration.arraySize hdeclaration⟩

end Symbols

namespace UnitType

open Symbols

/-! ### Declared arrays -/

/-- After some accessors, a unit goes on by the type that `next` gives to the next one. -/
def GoesOnBy (m : MatchedDocument) (s : Symbols) (unit : NodeId) (done : List NodeId)
    (next : String → Option UnitType) : Prop :=
  ∀ last a rest, accessorsBefore m unit last = done ++ a :: rest →
    ofUnit m s unit last = (next (m.trimmedText a)).bind (follow m s.cg rest)

theorem Reaches.goesOnBy {m : MatchedDocument} {s : Symbols} {unit : NodeId} {done : List NodeId} {u : UnitType}
    (h : Reaches m s unit done u) : GoesOnBy m s unit done (u.access s.cg) := by
  intro last a rest hacc
  rw [h.ofUnit_eq hacc, follow_cons]

/-- **The type of a declared array.** Where a unit selects a variable, a parameter or a member that was declared
with an array size, it has the declared type, and is an array if it is a variable at the start of the unit. Then
the next accessor has to be a subscript, which leaves the declared type. A parameter, and what an accessor selects,
goes on as a value of the declared type. -/
theorem ofUnit_declaredArray (m : MatchedDocument) (v : Vocabulary) (g : CompiledGrammar) {c : Collector}
    {unit node : NodeId} {done : List NodeId} {id : Cg.VariableId} {type : Cg.TypeId}
    (hselects : Selects m (ofMatched m v g) unit done id) (hdeclares : Declares m v g c node id type)
    (hsize : (m.word? node "arraySize").isSome) :
    (∀ last, accessorsBefore m unit last = done →
      ofUnit m (ofMatched m v g) unit last = some ⟨type, decide (done = [] ∧ c ≠ .parameter)⟩) ∧
    GoesOnBy m (ofMatched m v g) unit done
      (if done = [] ∧ c ≠ .parameter then ofElement type else ofPart (ofMatched m v g).cg type) := by
  obtain ⟨x, hx, rfl, harray⟩ := hdeclares.variableAt?
  have hreaches := hselects.reaches hx
  have hflag : (decide (done = []) && x.arraySize.isSome) = decide (done = [] ∧ c ≠ .parameter) := by
    rw [harray, recordedSize]
    by_cases hc : c = .parameter
    · simp [hc]
    · simp [hc, hsize]
  rw [hflag] at hreaches
  refine ⟨fun last hacc => hreaches.ofUnit_eq (hacc.trans (List.append_nil done).symm), ?_⟩
  have hgoes := hreaches.goesOnBy
  split_ifs with hvar
  · rw [decide_eq_true hvar, funext (access_array _ _)] at hgoes
    exact hgoes
  · rw [decide_eq_false hvar, funext (access_value _ _)] at hgoes
    exact hgoes

/-- A program with a struct whose member `m` is an array, and a function with an array `p` as its parameter and an
array `l` as a variable, in the body of which there are the units `l[0]`, `p[0]` and `s.m[0]`. -/
def arrayProgram : MatchedDocument where
  document := .ofString "struct S\x7bint m[4];\x7dint f(int p[4])\x7bS s;int l[4];l[0]p[0]s.m[0]\x7d"
  tree :=
    let word (name : String) (start stop : Nat) : Match :=
      .node ⟨none, .item, .matched, start, stop, some name⟩ []
    let definition (origin : Origin) (start stop : Nat) (parts : List Match) : Match :=
      .node ⟨none, origin, .matched, start, stop, none⟩ parts
    .ofMatch <| definition (.scope ⟨0⟩) 0 63 [
      definition (.pattern ⟨0⟩) 0 19 [word "name" 7 8,
        definition (.pattern ⟨1⟩) 9 17 [word "type" 9 12, word "name" 13 14, word "arraySize" 14 17]],
      definition (.pattern ⟨2⟩) 19 63 [word "type" 19 22, word "name" 23 24,
        definition (.pattern ⟨3⟩) 25 33 [word "type" 25 28, word "name" 29 30, word "arraySize" 30 33],
        definition (.scope ⟨1⟩) 34 63 [
          definition (.pattern ⟨4⟩) 35 38 [word "type" 35 36,
            definition (.pattern ⟨5⟩) 37 38 [word "name" 37 38]],
          definition (.pattern ⟨4⟩) 39 47 [word "type" 39 42,
            definition (.pattern ⟨5⟩) 43 47 [word "name" 43 44, word "arraySize" 44 47]],
          definition (.pattern ⟨6⟩) 48 52 [word "variable" 48 49, word "accessor" 49 52],
          definition (.pattern ⟨6⟩) 52 56 [word "variable" 52 53, word "accessor" 53 56],
          definition (.pattern ⟨6⟩) 56 62 [word "variable" 56 57, word "accessor" 57 59, word "accessor" 59 62]]]]

/-- A grammar whose patterns are structs, members, functions, parameters, declarations, declarators and units, and
whose scopes are programs and blocks. -/
def arrayGrammar : CompiledGrammar where
  name := none
  items := #[]
  patterns := #[⟨none, none, some .struct, none⟩, ⟨none, none, some .structMember, none⟩,
    ⟨none, none, some .function, none⟩, ⟨none, none, some .parameter, none⟩,
    ⟨none, none, some .variable, none⟩, ⟨none, none, some .declarator, none⟩, ⟨none, none, none, none⟩]
  scopes := #[⟨none, some .program, none⟩, ⟨none, some .block, none⟩]

/-- A vocabulary in which `int` is the only type. -/
def intOnly : Vocabulary :=
  { (default : Vocabulary) with types := ["int"] }

/-- The symbols of the program with arrays. -/
def arraySymbols : Symbols :=
  ofMatched arrayProgram intOnly arrayGrammar

theorem ofUnit_declaredArray_arrayProgram :
    Selects arrayProgram arraySymbols ⟨24⟩ [] ⟨3⟩ ∧ Selects arrayProgram arraySymbols ⟨27⟩ [] ⟨1⟩ ∧
      Selects arrayProgram arraySymbols ⟨30⟩ [⟨32⟩] ⟨0⟩ ∧
      Declares arrayProgram intOnly arrayGrammar .declarator ⟨21⟩ ⟨3⟩ ⟨0⟩ ∧
      Declares arrayProgram intOnly arrayGrammar .parameter ⟨10⟩ ⟨1⟩ ⟨0⟩ ∧
      Declares arrayProgram intOnly arrayGrammar .structMember ⟨3⟩ ⟨0⟩ ⟨0⟩ ∧
      GoesOnBy arrayProgram arraySymbols ⟨24⟩ [] (ofElement ⟨0⟩) ∧
      GoesOnBy arrayProgram arraySymbols ⟨27⟩ [] (ofPart arraySymbols.cg ⟨0⟩) ∧
      GoesOnBy arrayProgram arraySymbols ⟨30⟩ [⟨32⟩] (ofPart arraySymbols.cg ⟨0⟩) := by
  have hnames : (arraySymbols.contextAround? arrayProgram.tree ⟨24⟩ = some ⟨1⟩ ∧
        arrayProgram.captured? ⟨24⟩ "variable" = some "l" ∧ arraySymbols.cg.findVariable ⟨1⟩ "l" = some ⟨3⟩) ∧
      (arraySymbols.contextAround? arrayProgram.tree ⟨27⟩ = some ⟨1⟩ ∧
        arrayProgram.captured? ⟨27⟩ "variable" = some "p" ∧ arraySymbols.cg.findVariable ⟨1⟩ "p" = some ⟨1⟩) ∧
      (start arrayProgram arraySymbols ⟨30⟩).bind (follow arrayProgram arraySymbols.cg []) = some ⟨⟨1⟩, false⟩ ∧
      ¬IsSubscript (arrayProgram.trimmedText ⟨32⟩) ∧
      (arraySymbols.cg.typeAt? ⟨1⟩).any fun info => decide (info.members.find?
        (arraySymbols.cg.variableNamed (memberName (arrayProgram.trimmedText ⟨32⟩))) = some ⟨0⟩) := by
    decide +kernel
  obtain ⟨⟨hcontext, hname, hfound⟩, ⟨hcontext', hname', hfound'⟩, hstart, hdot, hstruct⟩ := hnames
  obtain ⟨info, hinfo, hmember⟩ := (Option.any_eq_true _ _).mp hstruct
  have hvariable : Selects arrayProgram arraySymbols ⟨24⟩ [] ⟨3⟩ := .variable hcontext hname hfound
  have hparameter : Selects arrayProgram arraySymbols ⟨27⟩ [] ⟨1⟩ := .variable hcontext' hname' hfound'
  have hmember : Selects arrayProgram arraySymbols ⟨30⟩ [⟨32⟩] ⟨0⟩ :=
    .member hstart hdot hinfo (of_decide_eq_true hmember)
  have hplan : plan arrayGrammar arrayProgram.tree = [(⟨0⟩, .program), (⟨1⟩, .struct), (⟨3⟩, .structMember),
    (⟨7⟩, .function), (⟨10⟩, .parameter), (⟨14⟩, .block), (⟨15⟩, .variable), (⟨17⟩, .declarator),
    (⟨19⟩, .variable), (⟨21⟩, .declarator)] := by decide +kernel
  have hl : Declares arrayProgram intOnly arrayGrammar .declarator ⟨21⟩ ⟨3⟩ ⟨0⟩ :=
    ⟨Or.inl rfl, [(⟨0⟩, .program), (⟨1⟩, .struct), (⟨3⟩, .structMember), (⟨7⟩, .function), (⟨10⟩, .parameter),
      (⟨14⟩, .block), (⟨15⟩, .variable), (⟨17⟩, .declarator), (⟨19⟩, .variable)], [], hplan, by decide +kernel⟩
  have hp : Declares arrayProgram intOnly arrayGrammar .parameter ⟨10⟩ ⟨1⟩ ⟨0⟩ :=
    ⟨Or.inr (Or.inl rfl), [(⟨0⟩, .program), (⟨1⟩, .struct), (⟨3⟩, .structMember), (⟨7⟩, .function)], _, hplan,
      by decide +kernel⟩
  have hm : Declares arrayProgram intOnly arrayGrammar .structMember ⟨3⟩ ⟨0⟩ ⟨0⟩ :=
    ⟨Or.inr (Or.inr rfl), [(⟨0⟩, .program), (⟨1⟩, .struct)], _, hplan, by decide +kernel⟩
  exact ⟨hvariable, hparameter, hmember, hl, hp, hm,
    (ofUnit_declaredArray _ _ _ hvariable hl (by decide +kernel)).2,
    (ofUnit_declaredArray _ _ _ hparameter hp (by decide +kernel)).2,
    (ofUnit_declaredArray _ _ _ hmember hm (by decide +kernel)).2⟩

/-- **Declared arrays are typed differently.** A variable, a parameter and a member are declared as arrays of `int`
alike, but of `l[0]`, `p[0]` and `s.m[0]` only the first has a type. -/
theorem subscripts_differ :
    arrayProgram.word? ⟨21⟩ "arraySize" = some "[4]" ∧ arrayProgram.word? ⟨10⟩ "arraySize" = some "[4]" ∧
      arrayProgram.word? ⟨3⟩ "arraySize" = some "[4]" ∧
      ofUnit arrayProgram arraySymbols ⟨24⟩ none = some ⟨⟨0⟩, false⟩ ∧
      ofUnit arrayProgram arraySymbols ⟨27⟩ none = none ∧ ofUnit arrayProgram arraySymbols ⟨30⟩ none = none := by
  decide +kernel

end UnitType

end ShaderAssist
