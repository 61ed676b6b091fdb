/-
**Sorted dictionaries.**

A dictionary keeps its entries in ascending order of their keys, each key once. The order of keys is
that of their code points, which is also that of their UTF-8 bytes.

* `Dict.get?_insert`: what a dictionary holds after an insertion.
-/

namespace ArtifactIndex

/-- Entries in ascending order of their keys. -/
structure Dict (α : Type) where
  /-- The keys with their values. -/
  entries : List (String × α)
deriving Repr, DecidableEq

namespace Dict

variable {α β : Type}

/-- The dictionary without entries. -/
def empty : Dict α := ⟨[]⟩

instance : Inhabited (Dict α) := ⟨empty⟩

/-- The entries with one key set, at its place in the order. -/
def insertEntry (key : String) (value : α) : List (String × α) → List (String × α)
  | [] => [(key, value)]
  | (other, old) :: rest =>
    if key = other then (key, value) :: rest
    else if key < other then (key, value) :: (other, old) :: rest
    else (other, old) :: insertEntry key value rest

/-- The dictionary with one key set. -/
def insert (dict : Dict α) (key : String) (value : α) : Dict α :=
  ⟨insertEntry key value dict.entries⟩

/-- The value of a key. -/
def get? (dict : Dict α) (key : String) : Option α :=
  dict.entries.lookup key

/-- The key has a value. -/
def contains (dict : Dict α) (key : String) : Bool :=
  (dict.get? key).isSome

/-- The keys in ascending order. -/
def keys (dict : Dict α) : List String :=
  dict.entries.map Prod.fst

/-- The number of keys. -/
def size (dict : Dict α) : Nat :=
  dict.entries.length

/-- The dictionary has no entry. -/
def isEmpty (dict : Dict α) : Bool :=
  dict.entries.isEmpty

/-- The entries one after another; a later entry replaces an earlier one of the same key. -/
def ofList (entries : List (String × α)) : Dict α :=
  entries.foldl (fun dict entry => dict.insert entry.1 entry.2) empty

/-- The dictionary with a function applied to each value. -/
def map (change : α → β) (dict : Dict α) : Dict β :=
  ⟨dict.entries.map fun entry => (entry.1, change entry.2)⟩

theorem lookup_insertEntry (key other : String) (value : α) (entries : List (String × α)) :
    (insertEntry key value entries).lookup other =
      if other = key then some value else entries.lookup other := by
  by_cases hit : other = key
  · subst hit
    induction entries with
    | nil => simp [insertEntry]
    | cons entry rest ih =>
      obtain ⟨name, old⟩ := entry
      simp only [insertEntry]
      split
      · simp
      · next differ =>
        have miss : (other == name) = false := beq_false_of_ne differ
        split
        · simp
        · simp [List.lookup_cons, miss, ih]
  · have away : (other == key) = false := beq_false_of_ne hit
    induction entries with
    | nil => simp [insertEntry, List.lookup_cons, away, hit]
    | cons entry rest ih =>
      obtain ⟨name, old⟩ := entry
      simp only [insertEntry]
      split
      · next same =>
        subst same
        simp [List.lookup_cons, away]
      · split
        · simp [List.lookup_cons, away]
        · simp [List.lookup_cons, ih, hit]

/-- After an insertion the key has the new value and every other key its old one. -/
@[simp]
theorem get?_insert (dict : Dict α) (key other : String) (value : α) :
    (dict.insert key value).get? other = if other = key then some value else dict.get? other :=
  lookup_insertEntry key other value dict.entries

@[simp]
theorem get?_empty (key : String) : (empty : Dict α).get? key = none := rfl

end Dict

end ArtifactIndex
