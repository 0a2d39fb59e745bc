import ShaderAssist.Json.Reader

/-!
# Completion items

What an editor can offer at a caret. Items are shown in the order of their sort texts, and of several
with the same label only the first one is shown.
-/

namespace ShaderAssist

/-- What an item stands for. -/
inductive CompletionKind where
  | keyword
  | struct
  | variable
  | function
  | field
  | property
  | enumMember
  | snippet
  | typeParameter
  | unit
  | module
  | value
deriving DecidableEq, Repr, Inhabited

namespace CompletionKind

/-- All kinds. -/
def all : List CompletionKind :=
  [.keyword, .struct, .variable, .function, .field, .property, .enumMember, .snippet,
    .typeParameter, .unit, .module, .value]

/-- The name of a kind. -/
def name : CompletionKind → String
  | .keyword => "Keyword"
  | .struct => "Struct"
  | .variable => "Variable"
  | .function => "Function"
  | .field => "Field"
  | .property => "Property"
  | .enumMember => "EnumMember"
  | .snippet => "Snippet"
  | .typeParameter => "TypeParameter"
  | .unit => "Unit"
  | .module => "Module"
  | .value => "Value"

/-- The kind with a name. -/
def ofName? (name : String) : Option CompletionKind :=
  all.find? fun kind => kind.name == name

/-- The kind that a JSON value gives: its name, alone or as the key of an object with null. -/
def ofJson? : Json → Option CompletionKind
  | .string name => ofName? name
  | .object [(name, .null)] => ofName? name
  | _ => none

end CompletionKind

/-- A completion item. -/
structure CompletionItem where
  label : String
  kind : CompletionKind
  detail : Option String := none
  /-- What is inserted in place of the label. -/
  insertText : Option String := none
  /-- What the item is sorted by in place of the label. -/
  sortText : Option String := none
deriving DecidableEq, Repr, Inhabited

namespace CompletionItem

/-- What an item is sorted by. -/
def sortKey (i : CompletionItem) : String :=
  i.sortText.getD i.label

/-- The items of which none has the label of one before it. -/
def distinct : List CompletionItem → List CompletionItem
  | [] => []
  | i :: items => i :: (distinct items).filter fun j => j.label != i.label

/-- The items in the order of their sort keys, those with equal keys in the given order. -/
def ordered (items : List CompletionItem) : List CompletionItem :=
  items.mergeSort fun i j => decide (i.sortKey ≤ j.sortKey)

/-- **The items as they are shown:** in order, and with the first one of each label. -/
def arrange (items : List CompletionItem) : List CompletionItem :=
  distinct (ordered items)

/-! ### JSON -/

/-- The keys of an item in JSON. -/
def keys : List String :=
  ["label", "kind", "detail", "insertText", "sortText"]

/-- An optional text in JSON. -/
def text? : Option Json → Option (Option String)
  | none => some none
  | some .null => some none
  | some j => j.string?.map some

/-- The item that the values of its keys give. -/
def ofValues? : List (Option Json) → Option CompletionItem
  | [some label, some kind, detail, insertText, sortText] => do
    some {
      label := ← label.string?
      kind := ← CompletionKind.ofJson? kind
      detail := ← text? detail
      insertText := ← text? insertText
      sortText := ← text? sortText }
  | _ => none

/-- The item that a JSON value gives: an object, or an array with a value for each key. -/
def ofJson? (j : Json) : Option CompletionItem := do
  if (j.array?).any fun elements => elements.length != keys.length then none
  ofValues? (← j.record? keys)

end CompletionItem

end ShaderAssist
