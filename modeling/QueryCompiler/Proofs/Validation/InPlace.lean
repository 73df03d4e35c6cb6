import QueryCompiler.Binding
import QueryCompiler.Proofs.ValuesTables

/-!
# Validation in place

Validation as a change of the table that it is given: the target of a field is bound where it
stands, and the types of the fields are put down at the end. Each step gives back what it leaves,
whether it succeeds or fails. It succeeds with what validation by value gives, and fails with the
same error; what a failure leaves are targets that are bound and otherwise as they were written.
-/

namespace QueryCompiler

variable (catalog : Catalog) (resolveIn : TypeRef → TypeRef × Except CastError ResolvedType)

/-! ### Steps -/

/-- Resolves a target. A field without a declared type is bound all the same. -/
def ScopeStack.resolveTypeIn (scopes : ScopeStack) :
    TypeRef → TypeRef × Except CastError ResolvedType
  | .builtin name => (.builtin name, resolveBuiltin name)
  | .parameterized descriptor => (.parameterized descriptor, .ok (.parameterized descriptor))
  | .column field => match scopes.bindField field with
    | .error e => (.column field, .error (.unboundField field.name.text e))
    | .ok bound => match bound.resolved.bind (·.type) with
      | some t => (.column bound, .ok (.builtin t))
      | none => (.column bound, .error (.untypedField field.name.text))

/-- Resolves the targets of some fields one after another, beside the types gathered so far. -/
def resolveColumnsIn (resolved : SortedMap ResolvedType) :
    List String → SortedMap TypeRef →
      SortedMap TypeRef × Except CompileError (SortedMap ResolvedType)
  | [], types => (types, .ok resolved)
  | field :: rest, types => match types.get? field with
    | none => (types, .error (.values (.missingType field)))
    | some target => match resolveIn target with
      | (target, .error e) => (types.insert field target, .error (.cast e))
      | (target, .ok type) =>
        resolveColumnsIn (resolved.insert field type) rest (types.insert field target)

def resolveTypesIn (keys : List String) :
    ValuesTypes → ValuesTypes × Except CompileError (SortedMap ResolvedType)
  | .map types => match resolveColumnsIn resolveIn .empty keys types with
    | (types, .error e) => (.map types, .error e)
    | (types, .ok resolved) => match types.keys.find? fun key => !keys.contains key with
      | some extra => (.map types, .error (.values (.unexpectedType extra)))
      | none => (.map types, .ok resolved)
  | .schema name => match catalog.get? name with
    | none => (.schema name, .error (.binding (.unknownSchema name)))
    | some schema => (.schema name, (schemaColumns schema keys).map .ofList)

/-- Validates a table where it stands. -/
def ValuesTable.validateIn (table : ValuesTable) : ValuesTable × Except CompileError Unit :=
  match table.rows with
  | [] => (table, .error (.values .noRows))
  | first :: rest =>
    if first.isEmpty then (table, .error (.values .noRows))
    else match firstInconsistent first.keys 1 rest with
      | some row => (table, .error (.values (.inconsistentFields row)))
      | none => match resolveTypesIn catalog resolveIn first.keys table.types with
        | (types, .error e) => ({ table with types := types }, .error e)
        | (types, .ok resolved) => match firstMismatchIn resolved 0 table.rows with
          | some (row, field, t) =>
            ({ table with types := types }, .error (.values (.typeMismatch row field t)))
          | none => ({ table with types := types, resolved := resolved }, .ok ())

/-! ### Targets as they are written -/

/-- A target without what its field is bound to. -/
def TypeRef.written : TypeRef → TypeRef
  | .column field => .column { field with resolved := none }
  | target => target

def ValuesTypes.written : ValuesTypes → ValuesTypes
  | .map types => .map (types.mapValues fun _ => TypeRef.written)
  | .schema name => .schema name

theorem written_resolveTypeIn (scopes : ScopeStack) (target : TypeRef) :
    (scopes.resolveTypeIn target).1.written = target.written := by
  cases target with
  | builtin name => rfl
  | parameterized descriptor => rfl
  | column field =>
    rw [ScopeStack.resolveTypeIn]
    split
    · rfl
    · rename_i bound hbound
      have hwritten : (TypeRef.column bound).written = (TypeRef.column field).written := by
        rw [ScopeStack.bindField] at hbound
        split at hbound
        · cases hbound
        · split at hbound <;> cases hbound
          rfl
      split <;> exact hwritten

section

variable {resolveIn} (hwritten : ∀ target, (resolveIn target).1.written = target.written)

include hwritten

theorem written_resolveColumnsIn (resolved : SortedMap ResolvedType) (keys : List String)
    (types : SortedMap TypeRef) :
    (resolveColumnsIn resolveIn resolved keys types).1.mapValues (fun _ => TypeRef.written) =
      types.mapValues fun _ => TypeRef.written := by
  induction keys generalizing resolved types with
  | nil => rfl
  | cons key rest ih =>
    rw [resolveColumnsIn]
    split
    · rfl
    · rename_i target htarget
      have hinsert : (types.insert key (resolveIn target).1).mapValues (fun _ => TypeRef.written) =
          types.mapValues fun _ => TypeRef.written := by
        rw [← SortedMap.insert_mapValues, hwritten]
        refine SortedMap.insert_eq_self ?_
        rw [SortedMap.get?_mapValues, htarget]
        rfl
      split
      · rename_i target' e heq
        rw [heq] at hinsert
        exact hinsert
      · rename_i target' type heq
        rw [heq] at hinsert
        rw [ih, hinsert]

theorem written_resolveTypesIn (keys : List String) (types : ValuesTypes) :
    (resolveTypesIn catalog resolveIn keys types).1.written = types.written := by
  cases types with
  | schema name =>
    rw [resolveTypesIn]
    split <;> rfl
  | map types =>
    have hcolumns := written_resolveColumnsIn hwritten .empty keys types
    rw [resolveTypesIn]
    split
    · rename_i types' e heq
      rw [heq] at hcolumns
      exact congrArg ValuesTypes.map hcolumns
    · rename_i types' resolved heq
      rw [heq] at hcolumns
      split <;> exact congrArg ValuesTypes.map hcolumns

theorem keys_resolveColumnsIn (resolved : SortedMap ResolvedType) (keys : List String)
    (types : SortedMap TypeRef) :
    (resolveColumnsIn resolveIn resolved keys types).1.keys = types.keys := by
  have hmap := written_resolveColumnsIn hwritten resolved keys types
  rw [← SortedMap.keys_mapValues (fun _ => TypeRef.written), hmap, SortedMap.keys_mapValues]

end

/-! ### Outcomes -/

/-- What a step in place leaves and gives back, if it succeeds. -/
def outcome {σ ε α : Type} (result : σ × Except ε α) : Except ε (σ × α) :=
  result.2.map fun a => (result.1, a)

theorem outcome_resolveTypeIn (scopes : ScopeStack) (target : TypeRef) :
    outcome (scopes.resolveTypeIn target) = scopes.resolveType target := by
  cases target with
  | builtin name =>
    rw [ScopeStack.resolveTypeIn, ScopeStack.resolveType]
    cases resolveBuiltin name <;> rfl
  | parameterized descriptor => rfl
  | column field =>
    rw [ScopeStack.resolveTypeIn, ScopeStack.resolveType]
    cases scopes.bindField field with
    | error e => rfl
    | ok bound =>
      dsimp only
      cases bound.resolved.bind (·.type) <;> rfl

/-- A target that is not asked for does not count. -/
theorem resolveColumns_insert {resolve : TypeRef → Except CastError (TypeRef × ResolvedType)}
    {key : String} {target : TypeRef} {keys : List String} (h : key ∉ keys)
    (types : SortedMap TypeRef) :
    resolveColumns resolve (types.insert key target) keys = resolveColumns resolve types keys := by
  induction keys with
  | nil => rfl
  | cons first rest ih =>
    rw [List.mem_cons, not_or] at h
    rw [resolveColumns, resolveColumns, SortedMap.get?_insert, if_neg h.1, ih h.2]

theorem outcome_resolveColumnsIn {keys : List String} (hkeys : keys.Nodup)
    (resolved : SortedMap ResolvedType) (types : SortedMap TypeRef) :
    outcome (resolveColumnsIn resolveIn resolved keys types) =
      (resolveColumns (fun target => outcome (resolveIn target)) types keys).map fun columns =>
        ((columns.map fun c => (c.1, c.2.1)).foldl (fun m e => m.insert e.1 e.2) types,
          (columns.map fun c => (c.1, c.2.2)).foldl (fun m e => m.insert e.1 e.2) resolved) := by
  induction keys generalizing resolved types with
  | nil => rfl
  | cons key rest ih =>
    rw [List.nodup_cons] at hkeys
    rw [resolveColumnsIn, resolveColumns]
    cases types.get? key with
    | none => rfl
    | some target =>
      dsimp only
      obtain ⟨target', result⟩ := resolveIn target
      cases result with
      | error e => rfl
      | ok type =>
        have hrest := ih hkeys.2 (resolved.insert key type) (types.insert key target')
        rw [resolveColumns_insert hkeys.1] at hrest
        refine hrest.trans ?_
        cases resolveColumns (fun target => outcome (resolveIn target)) types rest <;> rfl

/-- Where a type map names just the fields that are asked for, it is filled anew. -/
theorem foldl_insert_eq_ofList {α : Type} {m : SortedMap α} {entries : List (String × α)}
    (h : ∀ key ∈ m.keys, key ∈ entries.map Prod.fst) :
    entries.foldl (fun m e => m.insert e.1 e.2) m = .ofList entries := by
  refine SortedMap.ext_get? fun key => SortedMap.get?_foldl_insert ?_
  by_cases hkey : key ∈ entries.map Prod.fst
  · exact Or.inr hkey
  · exact Or.inl (findEntry_eq_none.2 fun hmem => hkey (h key hmem))

section

variable (hwritten : ∀ target, (resolveIn target).1.written = target.written)

include hwritten

theorem outcome_resolveTypesIn {keys : List String} (hkeys : keys.Pairwise (· < ·))
    (types : ValuesTypes) :
    outcome (resolveTypesIn catalog resolveIn keys types) =
      resolveTypes catalog (fun target => outcome (resolveIn target)) keys types := by
  cases types with
  | schema name =>
    rw [resolveTypesIn, resolveTypes]
    cases catalog.get? name with
    | none => rfl
    | some schema =>
      dsimp only
      cases schemaColumns schema keys <;> rfl
  | map types =>
    have hcolumns := outcome_resolveColumnsIn resolveIn hkeys.nodup .empty types
    have hnames := keys_resolveColumnsIn hwritten .empty keys types
    rw [resolveTypesIn, resolveTypes]
    generalize resolveColumnsIn resolveIn .empty keys types = result at hcolumns hnames ⊢
    obtain ⟨types', result⟩ := result
    cases hresolved : resolveColumns (fun target => outcome (resolveIn target)) types keys with
    | error e =>
      rw [hresolved] at hcolumns
      cases result <;> cases hcolumns
      rfl
    | ok columns =>
      rw [hresolved] at hcolumns
      cases result <;> cases hcolumns
      dsimp only at hnames ⊢
      rw [hnames]
      cases hextra : types.keys.find? fun key => !keys.contains key with
      | some extra => rfl
      | none =>
        have hfst : (columns.map fun c => (c.1, c.2.1)).map Prod.fst = keys := by
          rw [List.map_map]
          exact keys_of_resolveColumns hresolved
        rw [foldl_insert_eq_ofList]
        · rfl
        · intro key hkey
          rw [hfst]
          simpa using List.find?_eq_none.1 hextra key hkey

/-- Validation in place succeeds and fails as validation by value does. -/
theorem outcome_validateIn (table : ValuesTable) :
    (outcome (table.validateIn catalog resolveIn)).map Prod.fst =
      table.validate catalog fun target => outcome (resolveIn target) := by
  obtain ⟨rows, types, resolved, firstParam⟩ := table
  rw [ValuesTable.validateIn, ValuesTable.validate]
  cases rows with
  | nil => rfl
  | cons first rest =>
    dsimp only
    split
    · rfl
    · cases firstInconsistent first.keys 1 rest with
      | some index => rfl
      | none =>
        have hascending : first.keys.Pairwise (· < ·) := first.ascending
        have htypes := outcome_resolveTypesIn catalog resolveIn hwritten hascending types
        dsimp only
        rw [← htypes]
        cases resolveTypesIn catalog resolveIn first.keys types with
        | mk types' result =>
          cases result with
          | error e => rfl
          | ok resolved' =>
            dsimp only [outcome, Except.map]
            cases firstMismatchIn resolved' 0 (first :: rest) <;> rfl

/-- A validation that fails leaves the targets bound, and nothing else is changed. -/
theorem validateIn_keeps (table : ValuesTable) :
    (table.validateIn catalog resolveIn).1.rows = table.rows ∧
      (table.validateIn catalog resolveIn).1.firstParam = table.firstParam ∧
      (table.validateIn catalog resolveIn).1.types.written = table.types.written ∧
      ∀ e, (table.validateIn catalog resolveIn).2 = .error e →
        (table.validateIn catalog resolveIn).1.resolved = table.resolved := by
  rw [ValuesTable.validateIn]
  split
  · exact ⟨rfl, rfl, rfl, fun _ _ => rfl⟩
  rename_i first rest _
  split
  · exact ⟨rfl, rfl, rfl, fun _ _ => rfl⟩
  split
  · exact ⟨rfl, rfl, rfl, fun _ _ => rfl⟩
  have htypes := written_resolveTypesIn catalog hwritten first.keys table.types
  split
  · rename_i types e heq
    rw [heq] at htypes
    exact ⟨rfl, rfl, htypes, fun _ _ => rfl⟩
  · rename_i types resolved heq
    rw [heq] at htypes
    split
    · exact ⟨rfl, rfl, htypes, fun _ _ => rfl⟩
    · exact ⟨rfl, rfl, htypes, nofun⟩

end

end QueryCompiler
