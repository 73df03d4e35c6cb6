/-!
# Maps with string keys, in key order

A finite map from strings to values, kept as the list of its entries in strictly ascending key
order. The order is that of code points, which is also the order of the UTF-8 bytes. Two maps with
the same entries are therefore equal, and every walk over a map meets its keys from the lowest to
the highest.
-/

namespace QueryCompiler

variable {α β : Type}

/-! ### Entry lists -/

/-- Puts `value` at `key` into an ascending list of entries, replacing what the key held. -/
def insertEntry (key : String) (value : α) : List (String × α) → List (String × α)
  | [] => [(key, value)]
  | (k, v) :: rest =>
    if key < k then (key, value) :: (k, v) :: rest
    else if key = k then (key, value) :: rest
    else (k, v) :: insertEntry key value rest

theorem mem_keys_insertEntry {key k : String} {value : α} {entries : List (String × α)}
    (h : k ∈ (insertEntry key value entries).map Prod.fst) :
    k = key ∨ k ∈ entries.map Prod.fst := by
  induction entries with
  | nil => simpa [insertEntry] using h
  | cons e rest ih =>
    obtain ⟨k', v'⟩ := e
    simp only [insertEntry] at h
    split at h
    · simpa using h
    · split at h
      · simp at h ⊢
        rcases h with h | h
        · exact Or.inl h
        · exact Or.inr (Or.inr h)
      · simp only [List.map_cons, List.mem_cons] at h ⊢
        rcases h with h | h
        · exact Or.inr (Or.inl h)
        · rcases ih h with h | h
          · exact Or.inl h
          · exact Or.inr (Or.inr h)

theorem insertEntry_ascending (key : String) (value : α) {entries : List (String × α)}
    (h : (entries.map Prod.fst).Pairwise (· < ·)) :
    ((insertEntry key value entries).map Prod.fst).Pairwise (· < ·) := by
  induction entries with
  | nil => simp [insertEntry]
  | cons e rest ih =>
    obtain ⟨k, v⟩ := e
    simp only [List.map_cons, List.pairwise_cons] at h
    obtain ⟨below, tail⟩ := h
    simp only [insertEntry]
    split
    · rename_i lt
      simp only [List.map_cons, List.pairwise_cons, List.mem_cons]
      refine ⟨?_, below, tail⟩
      rintro k' (rfl | mem)
      · exact lt
      · exact String.lt_trans lt (below k' mem)
    · rename_i not_lt
      split
      · rename_i eq
        subst eq
        simpa only [List.map_cons, List.pairwise_cons] using ⟨below, tail⟩
      · rename_i ne
        simp only [List.map_cons, List.pairwise_cons]
        refine ⟨?_, ih tail⟩
        intro k' mem
        rcases mem_keys_insertEntry mem with rfl | mem
        · exact Std.lt_of_le_of_ne (String.not_lt.1 not_lt) (Ne.symm ne)
        · exact below k' mem

/-- The value that a list of entries holds at `key`: that of the first entry with this key. -/
def findEntry (key : String) : List (String × α) → Option α
  | [] => none
  | (k, v) :: rest => if k = key then some v else findEntry key rest

/-! ### Maps -/

/-- A finite map from strings, as its entries in strictly ascending key order. -/
structure SortedMap (α : Type) where
  entries : List (String × α)
  ascending : (entries.map Prod.fst).Pairwise (· < ·)
  deriving DecidableEq

namespace SortedMap

@[ext] theorem ext {m n : SortedMap α} (h : m.entries = n.entries) : m = n := by
  cases m; cases n; cases h; rfl

def empty : SortedMap α := ⟨[], List.Pairwise.nil⟩

instance : Inhabited (SortedMap α) := ⟨empty⟩

def insert (m : SortedMap α) (key : String) (value : α) : SortedMap α :=
  ⟨insertEntry key value m.entries, insertEntry_ascending key value m.ascending⟩

/-- The map of a list of entries; of two entries with one key the later counts. -/
def ofList (entries : List (String × α)) : SortedMap α :=
  entries.foldl (fun m e => m.insert e.1 e.2) empty

def keys (m : SortedMap α) : List String := m.entries.map Prod.fst

def get? (m : SortedMap α) (key : String) : Option α := findEntry key m.entries

def contains (m : SortedMap α) (key : String) : Bool := (m.get? key).isSome

def size (m : SortedMap α) : Nat := m.entries.length

def isEmpty (m : SortedMap α) : Bool := m.entries.isEmpty

/-- Replaces every value, given its key. -/
def mapValues (f : String → α → β) (m : SortedMap α) : SortedMap β :=
  ⟨m.entries.map fun e => (e.1, f e.1 e.2), by
    have : (m.entries.map fun e => (e.1, f e.1 e.2)).map Prod.fst = m.entries.map Prod.fst := by
      simp
    rw [this]; exact m.ascending⟩

@[simp] theorem keys_mapValues (f : String → α → β) (m : SortedMap α) :
    (m.mapValues f).keys = m.keys := by
  simp [keys, mapValues]

end SortedMap

end QueryCompiler
