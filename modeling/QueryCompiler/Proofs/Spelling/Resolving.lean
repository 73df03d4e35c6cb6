import QueryCompiler.Proofs.Binding.Scopes
import QueryCompiler.Proofs.Spelling.Respelling

/-!
# Respelled references in scopes

A way of writing references that keeps what each of them means in some scopes is kept by every check
against these scopes: it fails with the same error or gives the respelled result. In the scope of a
query, as it stands when all its sources are declared, a position and the name of the source there
mean the same.
-/

namespace QueryCompiler

/-! ### Checks against scopes -/

/-- A way of writing references that keeps what they mean. -/
def ScopeStack.Respects (scopes : ScopeStack) (write : SourceRef → SourceRef) : Prop :=
  ∀ ref, scopes.resolve (write ref) = scopes.resolve ref

section

variable {scopes : ScopeStack} {write : SourceRef → SourceRef} (h : scopes.Respects write)

include h

theorem bindField_respell (f : FieldRef) :
    scopes.bindField (f.respell write) = (scopes.bindField f).map (FieldRef.respell write) := by
  rw [ScopeStack.bindField, ScopeStack.bindField, FieldRef.respell, h]
  cases scopes.resolve f.source with
  | error e => rfl
  | ok found =>
    obtain ⟨slot, source⟩ := found
    dsimp only
    cases source.shape.field f.name <;> rfl

theorem resolveType_respell (target : TypeRef) :
    scopes.resolveType (target.respell write) =
      (scopes.resolveType target).map fun found => (found.1.respell write, found.2) := by
  cases target with
  | builtin name =>
    rw [TypeRef.respell, ScopeStack.resolveType]
    cases resolveBuiltin name <;> rfl
  | parameterized descriptor => rfl
  | column f =>
    rw [TypeRef.respell, ScopeStack.resolveType, ScopeStack.resolveType, bindField_respell h]
    cases scopes.bindField f with
    | error e => rfl
    | ok bound =>
      simp only [Except.map, FieldRef.respell]
      cases bound.resolved.bind (·.type) <;> rfl

theorem resolveColumns_respell (types : SortedMap TypeRef) (keys : List String) :
    resolveColumns scopes.resolveType (types.mapValues fun _ => TypeRef.respell write) keys =
      (resolveColumns scopes.resolveType types keys).map
        (List.map fun column => (column.1, column.2.1.respell write, column.2.2)) := by
  induction keys with
  | nil => rfl
  | cons key rest ih =>
    rw [resolveColumns, resolveColumns, SortedMap.get?_mapValues]
    cases types.get? key with
    | none => rfl
    | some target =>
      simp only [Option.map_some, resolveType_respell h]
      cases scopes.resolveType target with
      | error e => rfl
      | ok found =>
        simp only [Except.map, ih]
        cases resolveColumns scopes.resolveType types rest <;> rfl

theorem resolveTypes_respell (catalog : Catalog) (keys : List String) (types : ValuesTypes) :
    resolveTypes catalog scopes.resolveType keys (types.respell write) =
      (resolveTypes catalog scopes.resolveType keys types).map
        fun found => (found.1.respell write, found.2) := by
  cases types with
  | schema name =>
    rw [ValuesTypes.respell, resolveTypes]
    cases catalog.get? name with
    | none => rfl
    | some schema =>
      dsimp only
      cases schemaColumns schema keys <;> rfl
  | map types =>
    rw [ValuesTypes.respell, resolveTypes, resolveTypes, resolveColumns_respell h,
      SortedMap.keys_mapValues]
    cases resolveColumns scopes.resolveType types keys with
    | error e => rfl
    | ok columns =>
      simp only [Except.map]
      cases types.keys.find? fun key => !keys.contains key with
      | some extra => rfl
      | none =>
        simp only [List.map_map, ValuesTypes.respell, ← SortedMap.ofList_map, Function.comp_def]

/-- A respelled table is refused with the error of the table, or validated to what it is. -/
theorem check_respell (catalog : Catalog) (table : ValuesTable) :
    (table.respell write).check catalog scopes =
      (table.check catalog scopes).map (ValuesTable.respell write) := by
  obtain ⟨rows, types, resolved, firstParam⟩ := table
  rw [ValuesTable.respell, ValuesTable.check, ValuesTable.check, ValuesTable.validate,
    ValuesTable.validate]
  cases rows with
  | nil => rfl
  | cons first rest =>
    dsimp only
    split
    · rfl
    split
    · rfl
    rw [resolveTypes_respell h]
    cases resolveTypes catalog scopes.resolveType first.keys types with
    | error e => rfl
    | ok found =>
      obtain ⟨types', resolved'⟩ := found
      simp only [Except.map]
      cases firstMismatchIn resolved' 0 (first :: rest) <;> rfl

end

/-! ### Declared sources -/

theorem declare_respell (spell : Spelling) (names : List (Option String)) (catalog : Catalog)
    (scopes : ScopeStack) (source : Source) :
    (source.respell spell names).declare catalog scopes = source.declare catalog scopes := by
  obtain ⟨origin, name⟩ := source
  cases origin <;> rfl

theorem declareSources_respell (spell : Spelling) (names : List (Option String))
    (catalog : Catalog) (outer : ScopeStack) (scope : Scope) (sources : List Source) :
    declareSources catalog outer scope (sources.map (Source.respell spell names)) =
      declareSources catalog outer scope sources := by
  induction sources generalizing scope with
  | nil => rfl
  | cons source rest ih =>
    simp only [List.map_cons, declareSources, declare_respell, name_respell, ih]

/-- A scope in which every named source is found by its name. -/
def Scope.Distinct (scope : Scope) : Prop :=
  ∀ source ∈ scope.sources, ∀ name, source.name = some name → scope.lookup name = some source

theorem Scope.Distinct.add {scope scope' : Scope} (h : scope.Distinct) {name : Option String}
    {shape : SourceShape} (hadd : scope.add name shape = .ok scope') : scope'.Distinct := by
  obtain ⟨hnew, rfl⟩ := add_eq_ok.1 hadd
  intro source hmem other hname
  rw [Scope.lookup, List.find?_append]
  rcases List.mem_append.1 hmem with hmem | hmem
  · have hfound := h source hmem other hname
    rw [Scope.lookup] at hfound
    rw [hfound, Option.some_or]
  · obtain rfl := List.mem_singleton.1 hmem
    have hnone := hnew other hname
    rw [Scope.lookup] at hnone
    simp only [hnone, Option.none_or]
    exact List.find?_cons_of_pos (by simpa using hname)

/-- Declared sources are found by their names, and have those in order. -/
theorem declareSources_distinct {catalog : Catalog} {outer : ScopeStack} {scope scope' : Scope}
    (hdistinct : scope.Distinct) {sources : List Source} {tables : List (Option ValuesTable)}
    (h : declareSources catalog outer scope sources = (.ok tables, scope')) :
    scope'.Distinct ∧
      scope'.sources.map BoundSource.name =
        scope.sources.map BoundSource.name ++ sources.map Source.name := by
  induction sources generalizing scope tables with
  | nil =>
    cases h
    exact ⟨hdistinct, (List.append_nil _).symm⟩
  | cons source rest ih =>
    obtain ⟨shape, table, next, tables', -, hadd, hrest, rfl⟩ := declareSources_cons_eq_ok.1 h
    obtain ⟨hdistinct', hnames⟩ := ih (hdistinct.add hadd) hrest
    obtain ⟨-, rfl⟩ := add_eq_ok.1 hadd
    exact ⟨hdistinct', by simp [hnames]⟩

/-- Among all sources of a query the name of a source means what its position means. -/
theorem Scope.respects_named {scope : Scope} (hplaced : scope.Placed) (hdistinct : scope.Distinct)
    (outer : ScopeStack) :
    ScopeStack.Respects (scope :: outer) (Spelling.named (scope.sources.map BoundSource.name)) := by
  intro ref
  cases ref with
  | binding name => rfl
  | parentBinding name => rfl
  | position index =>
    rw [Spelling.named]
    split
    · rename_i name hname
      rw [List.getElem?_map] at hname
      obtain ⟨source, hsource, hname⟩ := Option.map_eq_some_iff.1 hname
      have hlookup := hdistinct source (List.mem_of_getElem? hsource) name hname
      simp only [ScopeStack.resolve, ScopeStack.lookupBinding, ScopeStack.findBinding, hlookup,
        ScopeStack.lookupPosition, Scope.source?, hsource, hplaced index source hsource]
    · rfl

end QueryCompiler
