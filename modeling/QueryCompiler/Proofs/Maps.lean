import Mathlib.Data.List.Nodup
import QueryCompiler.SortedMap

/-!
# Maps with string keys

A map is known by what it holds at its keys. What is put at one key is found there and leaves the
other keys as they are; a list of entries in ascending order is the list of the entries of its map.
-/

namespace QueryCompiler

variable {α β : Type}

/-! ### Entry lists -/

/-- An entry above all others is put at the end. -/
theorem insertEntry_of_above {key : String} {value : α} {entries : List (String × α)}
    (h : ∀ k ∈ entries.map Prod.fst, k < key) :
    insertEntry key value entries = entries ++ [(key, value)] := by
  induction entries with
  | nil => rfl
  | cons e rest ih =>
    obtain ⟨k, v⟩ := e
    rw [List.map_cons, List.forall_mem_cons] at h
    have hlt : ¬ key < k := fun hk => String.lt_irrefl k (String.lt_trans h.1 hk)
    have hne : key ≠ k := fun hk => String.lt_irrefl k (by simpa [hk] using h.1)
    rw [insertEntry, if_neg hlt, if_neg hne, ih h.2]
    rfl

/-- An ascending list of entries is the list of the entries of its map. -/
theorem entries_ofList {entries : List (String × α)}
    (h : (entries.map Prod.fst).Pairwise (· < ·)) :
    (SortedMap.ofList entries).entries = entries := by
  suffices hfold : ∀ m : SortedMap α, ((m.entries ++ entries).map Prod.fst).Pairwise (· < ·) →
      (entries.foldl (fun m e => m.insert e.1 e.2) m).entries = m.entries ++ entries from
    hfold .empty h
  clear h
  induction entries with
  | nil => simp
  | cons e rest ih =>
    intro m h
    have habove : ∀ k ∈ m.entries.map Prod.fst, k < e.1 := by
      intro k hk
      rw [List.map_append] at h
      exact (List.pairwise_append.1 h).2.2 k hk e.1 (by simp)
    have heq : (m.insert e.1 e.2).entries = m.entries ++ [e] := insertEntry_of_above habove
    rw [List.foldl_cons, ih _ (by rw [heq]; simpa using h), heq]
    simp

theorem findEntry_eq_none {key : String} {entries : List (String × α)} :
    findEntry key entries = none ↔ key ∉ entries.map Prod.fst := by
  induction entries with
  | nil => simp [findEntry]
  | cons e rest ih =>
    obtain ⟨k, v⟩ := e
    rw [findEntry, List.map_cons, List.mem_cons, not_or]
    split
    · rename_i heq
      simp [heq]
    · rename_i hne
      rw [ih]
      exact ⟨fun h => ⟨fun heq => hne heq.symm, h⟩, fun h => h.2⟩

theorem findEntry_append (key : String) (entries more : List (String × α)) :
    findEntry key (entries ++ more) = (findEntry key entries).or (findEntry key more) := by
  induction entries with
  | nil => rfl
  | cons entry rest ih =>
    rw [List.cons_append, findEntry, findEntry, ih]
    split <;> rfl

theorem findEntry_map {key : String} (f : α → β) (entries : List (String × α)) :
    findEntry key (entries.map fun e => (e.1, f e.2)) = (findEntry key entries).map f := by
  induction entries with
  | nil => rfl
  | cons e rest ih =>
    rw [List.map_cons, findEntry, findEntry, ih]
    split <;> rfl

theorem mem_of_findEntry {key : String} {value : α} {entries : List (String × α)}
    (h : findEntry key entries = some value) : (key, value) ∈ entries := by
  induction entries with
  | nil => cases h
  | cons entry rest ih =>
    obtain ⟨k, v⟩ := entry
    rw [findEntry] at h
    split at h
    · rename_i heq
      cases h
      rw [heq]
      exact List.mem_cons_self
    · exact List.mem_cons_of_mem _ (ih h)

/-- What is put at a key is found there, and what other keys hold stays. -/
theorem findEntry_insertEntry (k key : String) (value : α) (entries : List (String × α)) :
    findEntry k (insertEntry key value entries) =
      if key = k then some value else findEntry k entries := by
  induction entries with
  | nil => rfl
  | cons entry rest ih =>
    obtain ⟨key', value'⟩ := entry
    rw [insertEntry]
    split
    · rw [findEntry]
    split
    · rename_i heq
      rw [findEntry, findEntry, heq]
      split <;> rfl
    · rename_i hne
      rw [findEntry, findEntry, ih]
      by_cases hkey : key = k
      · rw [if_pos hkey, if_pos hkey, if_neg fun h => hne (hkey.trans h.symm)]
      · rw [if_neg hkey, if_neg hkey]

/-! ### Maps -/

theorem get?_of_mem {m : SortedMap α} {e : String × α} (h : e ∈ m.entries) :
    m.get? e.1 = some e.2 := by
  obtain ⟨entries, ascending⟩ := m
  rw [SortedMap.get?]
  induction entries with
  | nil => cases h
  | cons first rest ih =>
    rw [List.map_cons, List.pairwise_cons] at ascending
    rcases List.mem_cons.1 h with rfl | h
    · rw [findEntry, if_pos rfl]
    · rw [findEntry, if_neg]
      · exact ih ascending.2 h
      · intro heq
        exact String.lt_irrefl e.1 (heq ▸ ascending.1 e.1 (List.mem_map_of_mem h))

theorem get?_isSome_of_mem_keys {m : SortedMap α} {key : String} (h : key ∈ m.keys) :
    ∃ value, m.get? key = some value := by
  obtain ⟨entry, hentry, rfl⟩ := List.mem_map.1 h
  exact ⟨entry.2, get?_of_mem hentry⟩

theorem mem_keys_of_get? {m : SortedMap α} {key : String} {value : α}
    (h : m.get? key = some value) : key ∈ m.keys :=
  List.mem_map.2 ⟨(key, value), mem_of_findEntry h, rfl⟩

theorem SortedMap.keys_ofList {entries : List (String × α)}
    (h : (entries.map Prod.fst).Pairwise (· < ·)) :
    (SortedMap.ofList entries).keys = entries.map Prod.fst := by
  rw [SortedMap.keys, entries_ofList h]

namespace SortedMap

theorem mem_entries_iff {m : SortedMap α} {key : String} {value : α} :
    (key, value) ∈ m.entries ↔ m.get? key = some value :=
  ⟨fun h => get?_of_mem h, mem_of_findEntry⟩

/-- Maps that hold the same at every key are the same. -/
theorem ext_get? {m n : SortedMap α} (h : ∀ key, m.get? key = n.get? key) : m = n := by
  have hsorted (m : SortedMap α) : m.entries.Pairwise (fun e e' => e.1 < e'.1) :=
    List.pairwise_map.1 m.ascending
  have hnodup (m : SortedMap α) : m.entries.Nodup :=
    List.Pairwise.of_map Prod.fst (fun _ _ hne heq => hne (congrArg Prod.fst heq))
      m.ascending.nodup
  have hperm : m.entries.Perm n.entries := by
    refine (List.perm_ext_iff_of_nodup (hnodup m) (hnodup n)).2 fun entry => ?_
    rw [mem_entries_iff, mem_entries_iff, h]
  refine ext (hperm.eq_of_pairwise (fun e e' _ _ hlt hgt => ?_) (hsorted m) (hsorted n))
  exact absurd (String.lt_trans hlt hgt) (String.lt_irrefl _)

theorem get?_insert (m : SortedMap α) (key : String) (value : α) (k : String) :
    (m.insert key value).get? k = if key = k then some value else m.get? k :=
  findEntry_insertEntry k key value m.entries

theorem insert_eq_self {m : SortedMap α} {key : String} {value : α}
    (h : m.get? key = some value) : m.insert key value = m := by
  refine ext_get? fun k => ?_
  rw [get?_insert]
  split
  · rename_i heq
    rw [← heq, h]
  · rfl

/-- Where a list has an entry, it does not count into which map its entries are put. -/
theorem get?_foldl_insert {m n : SortedMap α} {entries : List (String × α)} {key : String}
    (h : m.get? key = n.get? key ∨ key ∈ entries.map Prod.fst) :
    (entries.foldl (fun m e => m.insert e.1 e.2) m).get? key =
      (entries.foldl (fun m e => m.insert e.1 e.2) n).get? key := by
  induction entries generalizing m n with
  | nil => exact h.resolve_right (List.not_mem_nil)
  | cons entry rest ih =>
    refine ih ?_
    rw [get?_insert, get?_insert]
    rw [List.map_cons, List.mem_cons] at h
    by_cases heq : entry.1 = key
    · exact Or.inl (by rw [if_pos heq, if_pos heq])
    · rw [if_neg heq, if_neg heq]
      exact h.imp_right fun h => h.resolve_left (Ne.symm heq)

/-! ### Values replaced -/

section

variable (f : α → β)

theorem get?_mapValues (m : SortedMap α) (key : String) :
    (m.mapValues fun _ => f).get? key = (m.get? key).map f :=
  findEntry_map f m.entries

theorem insertEntry_map (key : String) (value : α) (entries : List (String × α)) :
    insertEntry key (f value) (entries.map fun entry => (entry.1, f entry.2)) =
      (insertEntry key value entries).map fun entry => (entry.1, f entry.2) := by
  induction entries with
  | nil => rfl
  | cons entry rest ih =>
    rw [List.map_cons, insertEntry, insertEntry, ih]
    split
    · rfl
    split <;> rfl

theorem insert_mapValues (m : SortedMap α) (key : String) (value : α) :
    (m.mapValues fun _ => f).insert key (f value) = (m.insert key value).mapValues fun _ => f :=
  SortedMap.ext (insertEntry_map f key value m.entries)

theorem ofList_map (entries : List (String × α)) :
    ofList (entries.map fun entry => (entry.1, f entry.2)) =
      (ofList entries).mapValues fun _ => f := by
  suffices hfold : ∀ m : SortedMap α,
      (entries.map fun entry => (entry.1, f entry.2)).foldl (fun m e => m.insert e.1 e.2)
        (m.mapValues fun _ => f) =
      (entries.foldl (fun m e => m.insert e.1 e.2) m).mapValues fun _ => f from hfold empty
  induction entries with
  | nil => exact fun _ => rfl
  | cons entry rest ih =>
    intro m
    rw [List.map_cons, List.foldl_cons, List.foldl_cons, insert_mapValues, ih]

end

end SortedMap

end QueryCompiler
