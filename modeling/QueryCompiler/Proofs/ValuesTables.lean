import QueryCompiler.Proofs.Maps
import QueryCompiler.ValuesTable.Validation

/-!
# Validated values tables

A table that passes validation is *regular*: it has rows, and every row has exactly the fields that
have a type. Validating it once more changes nothing, provided that the resolution of its type
targets is itself stable in this sense.
-/

namespace QueryCompiler

/-! ### Resolved columns -/

variable {catalog : Catalog} {resolve : TypeRef → Except CastError (TypeRef × ResolvedType)}

theorem keys_of_resolveColumns {types : SortedMap TypeRef} {keys : List String}
    {columns : List (String × TypeRef × ResolvedType)}
    (h : resolveColumns resolve types keys = .ok columns) : columns.map Prod.fst = keys := by
  induction keys generalizing columns with
  | nil => cases h; rfl
  | cons key rest ih =>
    rw [resolveColumns] at h
    split at h
    · cases h
    · split at h
      · cases h
      · split at h
        · cases h
        · rename_i columns' hrest
          cases h
          rw [List.map_cons, ih hrest]

theorem keys_of_schemaColumns {schema : Schema} {keys : List String}
    {columns : List (String × ResolvedType)} (h : schemaColumns schema keys = .ok columns) :
    columns.map Prod.fst = keys := by
  induction keys generalizing columns with
  | nil => cases h; rfl
  | cons key rest ih =>
    rw [schemaColumns] at h
    split at h
    · cases h
    · split at h
      · cases h
      · rename_i columns' hrest
        cases h
        rw [List.map_cons, ih hrest]

theorem field?_of_mem_schemaColumns {schema : Schema} {keys : List String}
    {columns : List (String × ResolvedType)} (h : schemaColumns schema keys = .ok columns) :
    ∀ column ∈ columns, ∃ field, schema.field? column.1 = some field ∧
      column.2 = .builtin field.type := by
  induction keys generalizing columns with
  | nil =>
    cases h
    simp
  | cons key rest ih =>
    rw [schemaColumns] at h
    split at h
    · cases h
    · rename_i field hfield
      split at h
      · cases h
      · rename_i columns' hrest
        cases h
        exact List.forall_mem_cons.2 ⟨⟨field, hfield, rfl⟩, ih hrest⟩

/-- Whether a resolution of type targets gives on its own results what it gave before. -/
def StableResolution (resolve : TypeRef → Except CastError (TypeRef × ResolvedType)) : Prop :=
  ∀ target target' type, resolve target = .ok (target', type) →
    resolve target' = .ok (target', type)

theorem resolve_of_mem_resolveColumns {types : SortedMap TypeRef} {keys : List String}
    {columns : List (String × TypeRef × ResolvedType)}
    (h : resolveColumns resolve types keys = .ok columns) :
    ∀ column ∈ columns, ∃ target, types.get? column.1 = some target ∧
      resolve target = .ok column.2 := by
  induction keys generalizing columns with
  | nil => cases h; simp
  | cons key rest ih =>
    rw [resolveColumns] at h
    split at h
    · cases h
    · rename_i target htarget
      split at h
      · cases h
      · rename_i found hfound
        split at h
        · cases h
        · rename_i columns' hrest
          cases h
          exact List.forall_mem_cons.2 ⟨⟨target, htarget, hfound⟩, ih hrest⟩

/-- Columns are resolved to themselves in a map that holds their targets. -/
theorem resolveColumns_of_targets (hstable : StableResolution resolve) {types : SortedMap TypeRef}
    {columns : List (String × TypeRef × ResolvedType)}
    (hresolved : ∀ column ∈ columns, ∃ target, resolve target = .ok column.2)
    (htypes : ∀ column ∈ columns, types.get? column.1 = some column.2.1) :
    resolveColumns resolve types (columns.map Prod.fst) = .ok columns := by
  induction columns with
  | nil => rfl
  | cons column rest ih =>
    rw [List.forall_mem_cons] at hresolved htypes
    obtain ⟨⟨target, htarget⟩, hrest⟩ := hresolved
    have hcolumn : resolve column.2.1 = .ok column.2 := hstable target _ _ htarget
    rw [List.map_cons, resolveColumns, htypes.1]
    simp only [hcolumn, ih hrest htypes.2]

/-- What types of fields resolve to resolves to itself. -/
theorem resolveTypes_stable (hstable : StableResolution resolve) {keys : List String}
    (hkeys : keys.Pairwise (· < ·)) {types types' : ValuesTypes}
    {resolved : SortedMap ResolvedType}
    (h : resolveTypes catalog resolve keys types = .ok (types', resolved)) :
    resolveTypes catalog resolve keys types' = .ok (types', resolved) := by
  match types with
  | .schema name =>
    rw [resolveTypes] at h
    split at h
    · cases h
    · rename_i schema hschema
      split at h
      · cases h
      · rename_i columns hcolumns
        cases h
        simp only [resolveTypes, hschema, hcolumns]
  | .map types =>
    rw [resolveTypes] at h
    split at h
    · cases h
    · rename_i columns hcolumns
      split at h
      · cases h
      · cases h
        have hfst := keys_of_resolveColumns hcolumns
        have hentries : (SortedMap.ofList (columns.map fun c => (c.1, c.2.1))).entries =
            columns.map fun c => (c.1, c.2.1) := by
          refine entries_ofList ?_
          rw [List.map_map]
          change (columns.map Prod.fst).Pairwise (· < ·)
          rwa [hfst]
        have htypes : ∀ column ∈ columns,
            (SortedMap.ofList (columns.map fun c => (c.1, c.2.1))).get? column.1 =
              some column.2.1 := by
          intro column hmem
          refine get?_of_mem (e := (column.1, column.2.1)) ?_
          rw [hentries]
          exact List.mem_map_of_mem (f := fun c => (c.1, c.2.1)) hmem
        have hresolved : ∀ column ∈ columns, ∃ target, resolve target = .ok column.2 :=
          fun column hmem =>
            (resolve_of_mem_resolveColumns hcolumns column hmem).imp fun _ h => h.2
        have hcolumns' := resolveColumns_of_targets hstable hresolved htypes
        rw [hfst] at hcolumns'
        have hkeys' : (SortedMap.ofList (columns.map fun c => (c.1, c.2.1))).keys = keys := by
          rw [SortedMap.keys, hentries, List.map_map]
          exact hfst
        have hextra : ((SortedMap.ofList (columns.map fun c => (c.1, c.2.1))).keys.find?
            fun key => !keys.contains key) = none := by
          rw [hkeys', List.find?_eq_none]
          simp
        simp only [resolveTypes, hcolumns', hextra]

/-- The targets that a values table holds after validation are what some targets resolved to. -/
theorem resolve_of_resolveTypes {keys : List String} (hkeys : keys.Pairwise (· < ·))
    {types : ValuesTypes} {types' : SortedMap TypeRef} {resolved : SortedMap ResolvedType}
    (h : resolveTypes catalog resolve keys types = .ok (.map types', resolved)) :
    ∀ column ∈ types'.entries, ∃ target type, resolve target = .ok (column.2, type) := by
  cases types with
  | schema name =>
    rw [resolveTypes] at h
    split at h
    · cases h
    · split at h <;> cases h
  | map types =>
    rw [resolveTypes] at h
    split at h
    · cases h
    · rename_i columns hcolumns
      split at h
      · cases h
      · cases h
        have hascending : ((columns.map fun c => (c.1, c.2.1)).map Prod.fst).Pairwise (· < ·) := by
          rw [List.map_map]
          change (columns.map Prod.fst).Pairwise (· < ·)
          rwa [keys_of_resolveColumns hcolumns]
        rw [entries_ofList hascending, List.forall_mem_map]
        intro column hmem
        obtain ⟨target, -, htarget⟩ := resolve_of_mem_resolveColumns hcolumns column hmem
        exact ⟨target, _, htarget⟩

theorem keys_of_resolveTypes {keys : List String} (hkeys : keys.Pairwise (· < ·))
    {types types' : ValuesTypes} {resolved : SortedMap ResolvedType}
    (h : resolveTypes catalog resolve keys types = .ok (types', resolved)) :
    resolved.keys = keys := by
  match types with
  | .schema name =>
    rw [resolveTypes] at h
    split at h
    · cases h
    · split at h
      · cases h
      · rename_i columns hcolumns
        cases h
        have hfst := keys_of_schemaColumns hcolumns
        rw [SortedMap.keys_ofList (by rwa [hfst]), hfst]
  | .map types =>
    rw [resolveTypes] at h
    split at h
    · cases h
    · rename_i columns hcolumns
      split at h
      · cases h
      · cases h
        have hfst := keys_of_resolveColumns hcolumns
        have hmap : (columns.map fun c => (c.1, c.2.2)).map Prod.fst = keys := by
          rw [List.map_map]
          exact hfst
        rw [SortedMap.keys_ofList (by rwa [hmap]), hmap]

/-! ### Validation -/

theorem firstInconsistent_eq_none {keys : List String} {index : Nat} {rows : List Row} :
    firstInconsistent keys index rows = none ↔ ∀ row ∈ rows, row.keys = keys := by
  induction rows generalizing index with
  | nil => simp [firstInconsistent]
  | cons row rest ih =>
    rw [firstInconsistent, List.forall_mem_cons]
    split
    · rename_i heq
      rw [ih]
      exact ⟨fun h => ⟨heq, h⟩, fun h => h.2⟩
    · rename_i hne
      constructor
      · rintro ⟨⟩
      · intro h
        exact absurd h.1 hne

theorem accepts_of_firstMismatch {types : SortedMap ResolvedType} {entries : List (String × Value)}
    (h : firstMismatch types entries = none) :
    ∀ entry ∈ entries, ∀ t, types.get? entry.1 = some (.builtin t) → t.accepts entry.2 = true := by
  induction entries with
  | nil => simp
  | cons entry rest ih =>
    obtain ⟨field, value⟩ := entry
    rw [List.forall_mem_cons]
    rw [firstMismatch] at h
    split at h
    · rename_i t htype
      split at h
      · rename_i haccepts
        refine ⟨?_, ih h⟩
        intro t' htype'
        rw [htype] at htype'
        cases htype'
        exact haccepts
      · cases h
    · rename_i hother
      exact ⟨fun t htype => absurd htype (hother t), ih h⟩

theorem accepts_of_firstMismatchIn {types : SortedMap ResolvedType} {index : Nat} {rows : List Row}
    (h : firstMismatchIn types index rows = none) :
    ∀ row ∈ rows, ∀ entry ∈ row.entries, ∀ t, types.get? entry.1 = some (.builtin t) →
      t.accepts entry.2 = true := by
  induction rows generalizing index with
  | nil => simp
  | cons row rest ih =>
    rw [firstMismatchIn] at h
    split at h
    · cases h
    · rename_i hrow
      exact List.forall_mem_cons.2 ⟨accepts_of_firstMismatch hrow, ih h⟩

/-- What validation checks, and what it changes. -/
theorem validate_eq_ok {table table' : ValuesTable} :
    table.validate catalog resolve = .ok table' ↔
      ∃ first rest types resolved, table.rows = first :: rest ∧ first.isEmpty = false ∧
        (∀ row ∈ rest, row.keys = first.keys) ∧
        resolveTypes catalog resolve first.keys table.types = .ok (types, resolved) ∧
        firstMismatchIn resolved 0 table.rows = none ∧
        table' = { table with types := types, resolved := resolved } := by
  constructor
  · intro h
    rw [ValuesTable.validate] at h
    split at h
    · cases h
    · rename_i first rest hrows
      split at h
      · cases h
      · rename_i hempty
        split at h
        · cases h
        · rename_i hconsistent
          split at h
          · cases h
          · rename_i types resolved htypes
            split at h
            · cases h
            · rename_i hmatch
              cases h
              exact ⟨first, rest, types, resolved, hrows, by simpa using hempty,
                firstInconsistent_eq_none.1 hconsistent, htypes, hmatch, rfl⟩
  · rintro ⟨first, rest, types, resolved, hrows, hempty, hconsistent, htypes, hmatch, rfl⟩
    rw [hrows] at hmatch
    simp [ValuesTable.validate, hrows, hempty, firstInconsistent_eq_none.2 hconsistent, htypes,
      hmatch]

/-- A validated table, whatever its indices, is left as it is. -/
theorem validate_stable (hstable : StableResolution resolve) {table table' : ValuesTable}
    (h : table.validate catalog resolve = .ok table') (firstParam : Option Nat) :
    { table' with firstParam := firstParam }.validate catalog resolve =
      .ok { table' with firstParam := firstParam } := by
  obtain ⟨first, rest, types, resolved, hrows, hempty, hconsistent, htypes, hmatch, rfl⟩ :=
    validate_eq_ok.1 h
  exact validate_eq_ok.2 ⟨first, rest, types, resolved, hrows, hempty, hconsistent,
    resolveTypes_stable hstable first.ascending htypes, hmatch, rfl⟩

/-- There are rows, and every row has exactly the fields that have a type. -/
def ValuesTable.Regular (table : ValuesTable) : Prop :=
  table.rows ≠ [] ∧ ∀ row ∈ table.rows, row.keys = table.resolved.keys

theorem regular_of_validate {table table' : ValuesTable}
    (h : table.validate catalog resolve = .ok table') : table'.Regular := by
  obtain ⟨first, rest, types, resolved, hrows, -, hconsistent, htypes, -, rfl⟩ :=
    validate_eq_ok.1 h
  have hkeys : resolved.keys = first.keys := keys_of_resolveTypes first.ascending htypes
  refine ⟨by simp [hrows], ?_⟩
  change ∀ row ∈ table.rows, row.keys = resolved.keys
  rw [hrows, List.forall_mem_cons, hkeys]
  exact ⟨rfl, hconsistent⟩

theorem ValuesTable.Regular.fieldNames_eq {table : ValuesTable} (h : table.Regular) :
    table.fieldNames = table.resolved.keys := by
  obtain ⟨hne, hrows⟩ := h
  rw [ValuesTable.fieldNames]
  split
  · rename_i hnil
    exact absurd hnil hne
  · rename_i row rest hcons
    exact hrows row (by simp [hcons])

/-- A regular table has as many cells as it takes parameters. -/
theorem ValuesTable.Regular.length_cells {table : ValuesTable} (h : table.Regular) :
    table.cells.length = table.paramCount := by
  rw [ValuesTable.cells, ValuesTable.paramCount, h.fieldNames_eq, List.length_flatMap]
  have hlength : ∀ row ∈ table.rows,
      (row.entries.map fun e => (e.2, table.resolved.get? e.1)).length =
        table.resolved.keys.length := by
    intro row hmem
    rw [List.length_map, ← h.2 row hmem, SortedMap.keys, List.length_map]
  rw [List.map_congr_left hlength, List.map_const', List.sum_replicate_nat]

end QueryCompiler
