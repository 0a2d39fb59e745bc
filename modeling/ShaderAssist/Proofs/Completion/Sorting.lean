import Mathlib.Data.List.Nodup
import ShaderAssist.Proofs.Completion.Arranging
import ShaderAssist.Proofs.Text.ByteOrder

/-!
# Which items are shown, and in which order

Items are sorted by their keys, and of several with one label only one is shown. To say which one, an item is taken
together with its place among the given ones, as there may be equal items. An item with its place comes before
another one if its key is smaller, or if the keys are equal and its place comes first (`CompletionItem.Precedes`).
The items that are shown are those that come before all others with their label, in that order
(`CompletionItem.Arranges`).
-/

namespace ShaderAssist

namespace CompletionItem

variable {items : List CompletionItem} {x y : CompletionItem × Nat}

end CompletionItem

end ShaderAssist
