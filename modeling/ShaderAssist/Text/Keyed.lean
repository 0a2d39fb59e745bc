/-!
# Keyed tables

A table from texts to values is a list of entries in ascending order of their keys, with one entry
for a key.
-/

namespace ShaderAssist

namespace Keyed

variable {α : Type}

/-- The table with an entry added, in place of the one with the same key if there is one. -/
def insert (key : String) (value : α) : List (String × α) → List (String × α)
  | [] => [(key, value)]
  | entry :: rest =>
    if key < entry.1 then (key, value) :: entry :: rest
    else if key = entry.1 then (key, value) :: rest
    else entry :: insert key value rest

/-- The table of some entries; of two entries with one key the later one counts. -/
def ofEntries (entries : List (String × α)) : List (String × α) :=
  entries.foldl (fun table entry => insert entry.1 entry.2 table) []

end Keyed

end ShaderAssist
