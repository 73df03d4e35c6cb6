import QueryCompiler.Proofs.ValuesTables

/-!
# Faults of values tables

What validation asks of a values table, said without its passes over the rows: a table is *well
typed*, or it has *faults*. Faults are ranked by the stage of validation at which they show, then by
row, then by field. Validation accepts exactly the well-typed tables, and refuses any other one with
a fault that no fault stands before.
-/

namespace QueryCompiler

variable (catalog : Catalog) (resolve : TypeRef → Except CastError (TypeRef × ResolvedType))

/-! ### Well-typed tables -/

/-- The type that is given to a field, if one is and its target resolves. -/
def ValuesTypes.type? (types : ValuesTypes) (field : String) : Option ResolvedType :=
  match types with
  | .map types => (types.get? field).bind fun target => (resolve target).toOption.map Prod.snd
  | .schema name =>
    (catalog.get? name).bind fun schema => (schema.field? field).map fun f => .builtin f.type

/-- The fields to which a type map gives a type. -/
def ValuesTypes.names : ValuesTypes → List String
  | .map types => types.keys
  | .schema _ => []

structure ValuesTable.WellTyped (table : ValuesTable) : Prop where
  rows : table.rows ≠ []
  fields : table.fieldNames ≠ []
  consistent : ∀ row ∈ table.rows, row.keys = table.fieldNames
  typed : ∀ field ∈ table.fieldNames, ∃ type, table.types.type? catalog resolve field = some type
  named : ∀ name ∈ table.types.names, name ∈ table.fieldNames
  accepted : ∀ row ∈ table.rows, ∀ field value t, row.get? field = some value →
    table.types.type? catalog resolve field = some (.builtin t) → t.accepts value = true

/-! ### Faults -/

/-- Where a fault shows: at a stage of validation and, as far as it has them, a row and a field. -/
structure FaultRank where
  stage : Nat
  row : Nat
  field : String

def FaultRank.Before (rank rank' : FaultRank) : Prop :=
  rank.stage < rank'.stage ∨ rank.stage = rank'.stage ∧
    (rank.row < rank'.row ∨ rank.row = rank'.row ∧ rank.field < rank'.field)

theorem FaultRank.trichotomy (rank rank' : FaultRank) :
    rank.Before rank' ∨ rank = rank' ∨ rank'.Before rank := by
  obtain ⟨stage, row, field⟩ := rank
  obtain ⟨stage', row', field'⟩ := rank'
  rcases Nat.lt_trichotomy stage stage' with hstage | rfl | hstage
  · exact .inl (.inl hstage)
  · rcases Nat.lt_trichotomy row row' with hrow | rfl | hrow
    · exact .inl (.inr ⟨rfl, .inl hrow⟩)
    · by_cases hlt : field < field'
      · exact .inl (.inr ⟨rfl, .inr ⟨rfl, hlt⟩⟩)
      by_cases hgt : field' < field
      · exact .inr (.inr (.inr ⟨rfl, .inr ⟨rfl, hgt⟩⟩))
      · rw [String.le_antisymm (String.not_lt.1 hgt) (String.not_lt.1 hlt)]
        exact .inr (.inl rfl)
    · exact .inr (.inr (.inr ⟨rfl, .inl hrow⟩))
  · exact .inr (.inr (.inl hstage))

/-- What is wrong with a table, each fault at its rank and with its error. -/
inductive ValuesTable.Fault (table : ValuesTable) : FaultRank → CompileError → Prop where
  | empty (h : table.rows = [] ∨ table.fieldNames = []) :
    table.Fault ⟨0, 0, ""⟩ (.values .noRows)
  | inconsistent {index : Nat} {row : Row} (hrow : table.rows[index]? = some row)
      (h : row.keys ≠ table.fieldNames) :
    table.Fault ⟨1, index, ""⟩ (.values (.inconsistentFields index))
  | unknownSchema {name : String} (htypes : table.types = .schema name)
      (h : catalog.get? name = none) :
    table.Fault ⟨2, 0, ""⟩ (.binding (.unknownSchema name))
  | noTarget {types : SortedMap TypeRef} {field : String} (htypes : table.types = .map types)
      (hfield : field ∈ table.fieldNames) (h : types.get? field = none) :
    table.Fault ⟨3, 0, field⟩ (.values (.missingType field))
  | unresolved {types : SortedMap TypeRef} {field : String} {target : TypeRef} {cause : CastError}
      (htypes : table.types = .map types) (hfield : field ∈ table.fieldNames)
      (htarget : types.get? field = some target) (h : resolve target = .error cause) :
    table.Fault ⟨3, 0, field⟩ (.cast cause)
  | noField {name field : String} {schema : Schema} (htypes : table.types = .schema name)
      (hfield : field ∈ table.fieldNames) (hschema : catalog.get? name = some schema)
      (h : schema.field? field = none) :
    table.Fault ⟨3, 0, field⟩ (.values (.missingType field))
  | unexpected {name : String} (hname : name ∈ table.types.names) (h : name ∉ table.fieldNames) :
    table.Fault ⟨4, 0, name⟩ (.values (.unexpectedType name))
  | mismatch {index : Nat} {row : Row} {field : String} {value : Value} {t : DataType}
      (hrow : table.rows[index]? = some row) (hvalue : row.get? field = some value)
      (htype : table.types.type? catalog resolve field = some (.builtin t))
      (h : t.accepts value = false) :
    table.Fault ⟨5, index, field⟩ (.values (.typeMismatch index field t))

/-- Whether an error is that of a fault with no other one before it. -/
def ValuesTable.FirstFault (table : ValuesTable) (e : CompileError) : Prop :=
  ∃ rank, table.Fault catalog resolve rank e ∧
    ∀ rank' e', table.Fault catalog resolve rank' e' → ¬ rank'.Before rank

/-- What holds of a table without faults of a stage. -/
def ValuesTable.Passes (table : ValuesTable) : Nat → Prop
  | 0 => table.rows ≠ [] ∧ table.fieldNames ≠ []
  | 1 => ∀ row ∈ table.rows, row.keys = table.fieldNames
  | 2 => ∀ name, table.types = .schema name → ∃ schema, catalog.get? name = some schema
  | 3 => ∀ field ∈ table.fieldNames, ∃ type, table.types.type? catalog resolve field = some type
  | 4 => ∀ name ∈ table.types.names, name ∈ table.fieldNames
  | 5 => ∀ row ∈ table.rows, ∀ field value t, row.get? field = some value →
    table.types.type? catalog resolve field = some (.builtin t) → t.accepts value = true
  | _ => True

variable {catalog : Catalog} {resolve : TypeRef → Except CastError (TypeRef × ResolvedType)}

namespace ValuesTable

variable {table : ValuesTable} {rank : FaultRank} {e : CompileError}

/-- A fault of the third stage is a field without a type. -/
theorem Fault.untyped (h : table.Fault catalog resolve rank e) (hstage : rank.stage = 3) :
    rank.row = 0 ∧ rank.field ∈ table.fieldNames ∧
      table.types.type? catalog resolve rank.field = none := by
  cases h with
  | noTarget htypes hfield h => exact ⟨rfl, hfield, by simp [htypes, ValuesTypes.type?, h]⟩
  | unresolved htypes hfield htarget h =>
    exact ⟨rfl, hfield, by simp [htypes, ValuesTypes.type?, htarget, h, Except.toOption]⟩
  | noField htypes hfield hschema h =>
    exact ⟨rfl, hfield, by simp [htypes, ValuesTypes.type?, hschema, h]⟩
  | empty | inconsistent | unknownSchema | unexpected | mismatch => cases hstage

theorem Fault.not_passes (h : table.Fault catalog resolve rank e) :
    ¬ table.Passes catalog resolve rank.stage := by
  intro hpasses
  by_cases hstage : rank.stage = 3
  · obtain ⟨-, hfield, hnone⟩ := h.untyped hstage
    rw [hstage] at hpasses
    obtain ⟨type, htype⟩ := hpasses _ hfield
    rw [hnone] at htype
    cases htype
  cases h with
  | empty h => exact h.elim hpasses.1 hpasses.2
  | inconsistent hrow h => exact h (hpasses _ (List.mem_of_getElem? hrow))
  | unknownSchema htypes h =>
    obtain ⟨schema, hschema⟩ := hpasses _ htypes
    rw [h] at hschema
    cases hschema
  | noTarget | unresolved | noField => exact hstage rfl
  | unexpected hname h => exact h (hpasses _ hname)
  | mismatch hrow hvalue htype h =>
    have haccepts := hpasses _ (List.mem_of_getElem? hrow) _ _ _ hvalue htype
    rw [h] at haccepts
    cases haccepts

theorem WellTyped.passes (h : table.WellTyped catalog resolve) (stage : Nat) :
    table.Passes catalog resolve stage := by
  match stage with
  | 0 => exact ⟨h.rows, h.fields⟩
  | 1 => exact h.consistent
  | 2 =>
    intro name htypes
    obtain ⟨field, hfield⟩ := List.exists_mem_of_ne_nil _ h.fields
    obtain ⟨type, htype⟩ := h.typed field hfield
    rw [htypes, ValuesTypes.type?, Option.bind_eq_some_iff] at htype
    exact htype.imp fun _ hschema => hschema.1
  | 3 => exact h.typed
  | 4 => exact h.named
  | 5 => exact h.accepted
  | _ + 6 => trivial

/-- A fault of a rank has one error. -/
theorem Fault.unique {e' : CompileError} (h : table.Fault catalog resolve rank e)
    (h' : table.Fault catalog resolve rank e') : e = e' := by
  cases h with
  | empty => cases h' with | empty => rfl
  | inconsistent => cases h' with | inconsistent => rfl
  | unknownSchema htypes =>
    cases h' with | unknownSchema htypes' =>
    rw [htypes] at htypes'
    cases htypes'
    rfl
  | noTarget htypes _ hnone =>
    cases h' with
    | noTarget | noField => rfl
    | unresolved htypes' _ htarget' =>
      rw [htypes] at htypes'
      cases htypes'
      rw [hnone] at htarget'
      cases htarget'
  | unresolved htypes _ htarget hcause =>
    cases h' with
    | noTarget htypes' _ hnone' =>
      rw [htypes] at htypes'
      cases htypes'
      rw [htarget] at hnone'
      cases hnone'
    | unresolved htypes' _ htarget' hcause' =>
      rw [htypes] at htypes'
      cases htypes'
      rw [htarget] at htarget'
      cases htarget'
      rw [hcause] at hcause'
      cases hcause'
      rfl
    | noField htypes' =>
      rw [htypes] at htypes'
      cases htypes'
  | noField htypes =>
    cases h' with
    | noTarget | noField => rfl
    | unresolved htypes' =>
      rw [htypes] at htypes'
      cases htypes'
  | unexpected => cases h' with | unexpected => rfl
  | mismatch _ _ htype =>
    cases h' with | mismatch _ _ htype' =>
    rw [htype] at htype'
    cases htype'
    rfl

/-- Faults that come first have one error. -/
theorem FirstFault.unique {e' : CompileError} (h : table.FirstFault catalog resolve e)
    (h' : table.FirstFault catalog resolve e') : e = e' := by
  obtain ⟨rank, hfault, hfirst⟩ := h
  obtain ⟨rank', hfault', hfirst'⟩ := h'
  obtain hbefore | rfl | hbefore := rank.trichotomy rank'
  · exact absurd hbefore (hfirst' _ _ hfault)
  · exact hfault.unique hfault'
  · exact absurd hbefore (hfirst _ _ hfault')

/-- A fault comes first if there is none of an earlier stage and none before it at its own. -/
theorem firstFault_of_stage (h : table.Fault catalog resolve rank e)
    (hpasses : ∀ stage < rank.stage, table.Passes catalog resolve stage)
    (hwithin : ∀ rank' e', table.Fault catalog resolve rank' e' → rank'.stage = rank.stage →
      ¬ (rank'.row < rank.row ∨ rank'.row = rank.row ∧ rank'.field < rank.field)) :
    table.FirstFault catalog resolve e := by
  refine ⟨rank, h, fun rank' e' h' hbefore => ?_⟩
  rcases hbefore with hstage | ⟨hstage, hbefore⟩
  · exact h'.not_passes (hpasses _ hstage)
  · exact hwithin rank' e' h' hstage hbefore

end ValuesTable

/-! ### Passes over the rows and their fields -/

theorem ValuesTable.fieldNames_ascending (table : ValuesTable) :
    table.fieldNames.Pairwise (· < ·) := by
  rw [fieldNames]
  split
  · exact .nil
  · rename_i row _ _
    exact row.ascending

/-- What is below an item of an ascending list stands before it. -/
theorem mem_of_lt_of_ascending {before after : List String} {x y : String}
    (h : (before ++ x :: after).Pairwise (· < ·)) (hy : y ∈ before ++ x :: after) (hlt : y < x) :
    y ∈ before := by
  rcases List.mem_append.1 hy with hy | hy
  · exact hy
  have habove := (List.pairwise_append.1 h).2.1
  rcases List.mem_cons.1 hy with rfl | hy
  · exact absurd hlt (String.lt_irrefl _)
  · have hgt := (List.pairwise_cons.1 habove).1 y hy
    exact absurd (String.lt_trans hlt hgt) (String.lt_irrefl _)

theorem firstInconsistent_eq_some {keys : List String} {start index : Nat} {rows : List Row}
    (h : firstInconsistent keys start rows = some index) :
    ∃ before row after, rows = before ++ row :: after ∧ index = start + before.length ∧
      row.keys ≠ keys ∧ ∀ r ∈ before, r.keys = keys := by
  induction rows generalizing start with
  | nil => cases h
  | cons row rest ih =>
    rw [firstInconsistent] at h
    split at h
    · rename_i heq
      obtain ⟨before, found, after, rfl, rfl, hne, hbefore⟩ := ih h
      refine ⟨row :: before, found, after, rfl, ?_, hne, List.forall_mem_cons.2 ⟨heq, hbefore⟩⟩
      rw [List.length_cons]
      omega
    · rename_i hne
      cases h
      exact ⟨[], row, rest, rfl, rfl, hne, List.forall_mem_nil _⟩

theorem resolveColumns_eq_error {types : SortedMap TypeRef} {keys : List String} {e : CompileError}
    (h : resolveColumns resolve types keys = .error e) :
    ∃ before field after, keys = before ++ field :: after ∧
      (∀ f ∈ before, ∃ target found, types.get? f = some target ∧ resolve target = .ok found) ∧
      (types.get? field = none ∧ e = .values (.missingType field) ∨
        ∃ target cause, types.get? field = some target ∧ resolve target = .error cause ∧
          e = .cast cause) := by
  induction keys with
  | nil => cases h
  | cons key rest ih =>
    rw [resolveColumns] at h
    split at h
    · rename_i hnone
      cases h
      exact ⟨[], key, rest, rfl, List.forall_mem_nil _, .inl ⟨hnone, rfl⟩⟩
    · rename_i target htarget
      split at h
      · rename_i cause hcause
        cases h
        exact ⟨[], key, rest, rfl, List.forall_mem_nil _,
          .inr ⟨target, cause, htarget, hcause, rfl⟩⟩
      · rename_i found hfound
        split at h
        · rename_i e' hrest
          cases h
          obtain ⟨before, field, after, rfl, hbefore, hfault⟩ := ih hrest
          exact ⟨key :: before, field, after, rfl,
            List.forall_mem_cons.2 ⟨⟨target, found, htarget, hfound⟩, hbefore⟩, hfault⟩
        · cases h

theorem schemaColumns_eq_error {schema : Schema} {keys : List String} {e : CompileError}
    (h : schemaColumns schema keys = .error e) :
    ∃ before field after, keys = before ++ field :: after ∧
      (∀ f ∈ before, ∃ found, schema.field? f = some found) ∧
      schema.field? field = none ∧ e = .values (.missingType field) := by
  induction keys with
  | nil => cases h
  | cons key rest ih =>
    rw [schemaColumns] at h
    split at h
    · rename_i hnone
      cases h
      exact ⟨[], key, rest, rfl, List.forall_mem_nil _, hnone, rfl⟩
    · rename_i found hfound
      split at h
      · rename_i e' hrest
        cases h
        obtain ⟨before, field, after, rfl, hbefore, hfault⟩ := ih hrest
        exact ⟨key :: before, field, after, rfl,
          List.forall_mem_cons.2 ⟨⟨found, hfound⟩, hbefore⟩, hfault⟩
      · cases h

theorem firstMismatch_eq_some {types : SortedMap ResolvedType} {entries : List (String × Value)}
    {field : String} {t : DataType} (h : firstMismatch types entries = some (field, t)) :
    ∃ before value after, entries = before ++ (field, value) :: after ∧
      types.get? field = some (.builtin t) ∧ t.accepts value = false ∧
      firstMismatch types before = none := by
  induction entries with
  | nil => cases h
  | cons entry rest ih =>
    obtain ⟨name, value⟩ := entry
    rw [firstMismatch] at h
    split at h
    · rename_i t' htype
      split at h
      · rename_i haccepts
        obtain ⟨before, found, after, rfl, htype', hrefused, hbefore⟩ := ih h
        refine ⟨(name, value) :: before, found, after, rfl, htype', hrefused, ?_⟩
        simp only [firstMismatch, htype, haccepts, hbefore, if_true]
      · rename_i hrefused
        cases h
        exact ⟨[], value, rest, rfl, htype, by simpa using hrefused, rfl⟩
    · rename_i hother
      obtain ⟨before, found, after, rfl, htype', hrefused, hbefore⟩ := ih h
      refine ⟨(name, value) :: before, found, after, rfl, htype', hrefused, ?_⟩
      rw [firstMismatch]
      split
      · rename_i t' htype
        exact absurd htype (hother t')
      · exact hbefore

theorem firstMismatchIn_eq_some {types : SortedMap ResolvedType} {start index : Nat}
    {rows : List Row} {field : String} {t : DataType}
    (h : firstMismatchIn types start rows = some (index, field, t)) :
    ∃ before row after, rows = before ++ row :: after ∧ index = start + before.length ∧
      firstMismatch types row.entries = some (field, t) ∧
      ∀ r ∈ before, firstMismatch types r.entries = none := by
  induction rows generalizing start with
  | nil => cases h
  | cons row rest ih =>
    rw [firstMismatchIn] at h
    split at h
    · rename_i hrow
      cases h
      exact ⟨[], row, rest, rfl, rfl, hrow, List.forall_mem_nil _⟩
    · rename_i hrow
      obtain ⟨before, found, after, rfl, rfl, hfound, hbefore⟩ := ih h
      refine ⟨row :: before, found, after, rfl, ?_, hfound, List.forall_mem_cons.2 ⟨hrow, hbefore⟩⟩
      rw [List.length_cons]
      omega

/-! ### Types of fields -/

theorem type?_of_resolveTypes {keys : List String} (hkeys : keys.Pairwise (· < ·))
    {types types' : ValuesTypes} {resolved : SortedMap ResolvedType}
    (h : resolveTypes catalog resolve keys types = .ok (types', resolved)) {field : String}
    {type : ResolvedType} (htype : resolved.get? field = some type) :
    types.type? catalog resolve field = some type := by
  match types with
  | .schema name =>
    rw [resolveTypes] at h
    split at h
    · cases h
    · rename_i schema hschema
      split at h
      · cases h
      · rename_i columns hcolumns
        cases h
        rw [SortedMap.get?, entries_ofList (by rwa [keys_of_schemaColumns hcolumns])] at htype
        obtain ⟨found, hfound, heq⟩ :=
          field?_of_mem_schemaColumns hcolumns _ (mem_of_findEntry htype)
        simp [ValuesTypes.type?, hschema, hfound, ← heq]
  | .map types =>
    rw [resolveTypes] at h
    split at h
    · cases h
    · rename_i columns hcolumns
      split at h
      · cases h
      · cases h
        have hascending : ((columns.map fun c => (c.1, c.2.2)).map Prod.fst).Pairwise (· < ·) := by
          rw [List.map_map]
          change (columns.map Prod.fst).Pairwise (· < ·)
          rwa [keys_of_resolveColumns hcolumns]
        rw [SortedMap.get?, entries_ofList hascending] at htype
        obtain ⟨column, hcolumn, heq⟩ := List.mem_map.1 (mem_of_findEntry htype)
        cases heq
        obtain ⟨target, htarget, hfound⟩ := resolve_of_mem_resolveColumns hcolumns column hcolumn
        simp [ValuesTypes.type?, htarget, hfound, Except.toOption]

/-- Validation gives every field its type, and a type to nothing else. -/
theorem get?_of_resolveTypes {keys : List String} (hkeys : keys.Pairwise (· < ·))
    {types types' : ValuesTypes} {resolved : SortedMap ResolvedType}
    (h : resolveTypes catalog resolve keys types = .ok (types', resolved)) (field : String)
    (type : ResolvedType) :
    resolved.get? field = some type ↔
      field ∈ keys ∧ types.type? catalog resolve field = some type := by
  rw [← keys_of_resolveTypes hkeys h]
  constructor
  · intro htype
    exact ⟨mem_keys_of_get? htype, type?_of_resolveTypes hkeys h htype⟩
  · rintro ⟨hfield, htype⟩
    obtain ⟨type', htype'⟩ := get?_isSome_of_mem_keys hfield
    rw [type?_of_resolveTypes hkeys h htype', Option.some_inj] at htype
    rw [htype', htype]

theorem names_of_resolveTypes {keys : List String} {types types' : ValuesTypes}
    {resolved : SortedMap ResolvedType}
    (h : resolveTypes catalog resolve keys types = .ok (types', resolved)) :
    ∀ name ∈ types.names, name ∈ keys := by
  match types with
  | .schema name => exact List.forall_mem_nil _
  | .map types =>
    rw [resolveTypes] at h
    split at h
    · cases h
    · split at h
      · cases h
      · rename_i hextra
        intro name hname
        simpa using List.find?_eq_none.1 hextra name hname

/-! ### The fault that is reported -/

namespace ValuesTable

variable {table : ValuesTable} {e : CompileError}

theorem firstFault_untyped {before after : List String} {field : String}
    (hsplit : table.fieldNames = before ++ field :: after)
    (hbefore : ∀ f ∈ before, ∃ type, table.types.type? catalog resolve f = some type)
    (hpasses : ∀ stage < 3, table.Passes catalog resolve stage)
    (h : table.Fault catalog resolve ⟨3, 0, field⟩ e) : table.FirstFault catalog resolve e := by
  refine firstFault_of_stage h hpasses fun rank e' h' hstage hrank => ?_
  obtain ⟨hrow, hfield, hnone⟩ := h'.untyped hstage
  have hlt : rank.field < field := by simpa [hrow] using hrank
  have hascending := table.fieldNames_ascending
  rw [hsplit] at hfield hascending
  obtain ⟨type, htype⟩ := hbefore _ (mem_of_lt_of_ascending hascending hfield hlt)
  rw [hnone] at htype
  cases htype

theorem firstFault_unexpected {before after : List String} {name : String}
    (hsplit : table.types.names = before ++ name :: after)
    (hascending : table.types.names.Pairwise (· < ·))
    (hname : name ∉ table.fieldNames) (hbefore : ∀ n ∈ before, n ∈ table.fieldNames)
    (hpasses : ∀ stage < 4, table.Passes catalog resolve stage) :
    table.FirstFault catalog resolve (.values (.unexpectedType name)) := by
  have hmem : name ∈ table.types.names := by simp [hsplit]
  refine firstFault_of_stage (.unexpected hmem hname) hpasses fun rank e' h' hstage hrank => ?_
  cases h' with
  | unexpected hmem' hname' =>
    rename_i name'
    have hlt : name' < name := by simpa using hrank
    rw [hsplit] at hmem' hascending
    exact hname' (hbefore _ (mem_of_lt_of_ascending hascending hmem' hlt))
  | empty | inconsistent | unknownSchema | noTarget | unresolved | noField | mismatch =>
    cases hstage

theorem firstFault_of_resolveTypes (hpasses : ∀ stage < 2, table.Passes catalog resolve stage)
    (h : resolveTypes catalog resolve table.fieldNames table.types = .error e) :
    table.FirstFault catalog resolve e := by
  cases htypes : table.types with
  | schema name =>
    rw [htypes, resolveTypes] at h
    split at h
    · rename_i hnone
      cases h
      refine firstFault_of_stage (.unknownSchema htypes hnone) hpasses ?_
      intro rank e' h' hstage hrank
      cases h' with
      | unknownSchema => exact hrank.elim (Nat.lt_irrefl 0) fun h => String.lt_irrefl _ h.2
      | empty | inconsistent | noTarget | unresolved | noField | unexpected | mismatch =>
        cases hstage
    · rename_i schema hschema
      split at h
      · rename_i e' hcolumns
        cases h
        obtain ⟨before, field, after, hsplit, hbefore, hnone, rfl⟩ :=
          schemaColumns_eq_error hcolumns
        have hfield : field ∈ table.fieldNames := by simp [hsplit]
        refine firstFault_untyped hsplit (fun f hf => ?_)
          (Nat.forall_lt_succ_right.2 ⟨hpasses, fun name' htypes' => ?_⟩)
          (.noField htypes hfield hschema hnone)
        · obtain ⟨found, hfound⟩ := hbefore f hf
          exact ⟨.builtin found.type, by simp [htypes, ValuesTypes.type?, hschema, hfound]⟩
        · rw [htypes] at htypes'
          cases htypes'
          exact ⟨schema, hschema⟩
      · cases h
  | map types =>
    rw [htypes, resolveTypes] at h
    have hpasses' : ∀ stage < 3, table.Passes catalog resolve stage := by
      refine Nat.forall_lt_succ_right.2 ⟨hpasses, fun name hname => ?_⟩
      rw [htypes] at hname
      cases hname
    split at h
    · rename_i e' hcolumns
      cases h
      obtain ⟨before, field, after, hsplit, hbefore, hfault⟩ := resolveColumns_eq_error hcolumns
      have hfield : field ∈ table.fieldNames := by simp [hsplit]
      refine firstFault_untyped hsplit (fun f hf => ?_) hpasses' ?_
      · obtain ⟨target, found, htarget, hfound⟩ := hbefore f hf
        exact ⟨found.2, by simp [htypes, ValuesTypes.type?, htarget, hfound, Except.toOption]⟩
      · rcases hfault with ⟨hnone, rfl⟩ | ⟨target, cause, htarget, hcause, rfl⟩
        · exact .noTarget htypes hfield hnone
        · exact .unresolved htypes hfield htarget hcause
    · rename_i columns hcolumns
      split at h
      · rename_i extra hextra
        cases h
        obtain ⟨hname, before, after, hsplit, hbefore⟩ := List.find?_eq_some_iff_append.1 hextra
        have hnames : table.types.names = types.keys := by rw [htypes, ValuesTypes.names]
        refine firstFault_unexpected (hnames.trans hsplit) ?_ (by simpa using hname)
          (by simpa using hbefore) (Nat.forall_lt_succ_right.2 ⟨hpasses', fun field hfield => ?_⟩)
        · rw [hnames]
          exact types.ascending
        · rw [← keys_of_resolveColumns hcolumns] at hfield
          obtain ⟨column, hcolumn, rfl⟩ := List.mem_map.1 hfield
          obtain ⟨target, htarget, hfound⟩ :=
            resolve_of_mem_resolveColumns hcolumns column hcolumn
          exact ⟨column.2.2, by simp [htypes, ValuesTypes.type?, htarget, hfound, Except.toOption]⟩
      · cases h

theorem firstFault_mismatch {types : SortedMap ResolvedType} {index : Nat} {field : String}
    {t : DataType}
    (htypes : ∀ f type, types.get? f = some type ↔
      f ∈ table.fieldNames ∧ table.types.type? catalog resolve f = some type)
    (hpasses : ∀ stage < 5, table.Passes catalog resolve stage)
    (h : firstMismatchIn types 0 table.rows = some (index, field, t)) :
    table.FirstFault catalog resolve (.values (.typeMismatch index field t)) := by
  obtain ⟨before, row, after, hrows, hindex, hrow, hbefore⟩ := firstMismatchIn_eq_some h
  obtain ⟨cells, value, others, hentries, htype, hrefused, hcells⟩ := firstMismatch_eq_some hrow
  rw [Nat.zero_add] at hindex
  have hconsistent : ∀ row ∈ table.rows, row.keys = table.fieldNames := hpasses 1 (by omega)
  have hget : table.rows[index]? = some row := by simp [hrows, hindex]
  have hvalue : row.get? field = some value :=
    get?_of_mem (e := (field, value)) (by simp [hentries])
  refine firstFault_of_stage (.mismatch hget hvalue ((htypes _ _).1 htype).2 hrefused) hpasses ?_
  intro rank e' h' hstage hrank
  cases h' with
  | empty | inconsistent | unknownSchema | noTarget | unresolved | noField | unexpected =>
    cases hstage
  | mismatch hget' hvalue' htype' hrefused' =>
    rename_i index' row' field' value' t'
    have hfield' : field' ∈ table.fieldNames := by
      rw [← hconsistent _ (List.mem_of_getElem? hget')]
      exact mem_keys_of_get? hvalue'
    have htype' : types.get? field' = some (.builtin t') := (htypes _ _).2 ⟨hfield', htype'⟩
    have haccepts : t'.accepts value' = true := by
      rcases hrank with hlt | ⟨heq, hlt⟩
      · -- all cells of a row above are accepted
        change index' < index at hlt
        rw [hrows, List.getElem?_append_left (hindex ▸ hlt)] at hget'
        have hrow' := hbefore row' (List.mem_of_getElem? hget')
        exact accepts_of_firstMismatch hrow' _ (mem_of_findEntry hvalue') t' htype'
      · -- so are the cells of the same row before the field
        change index' = index at heq
        rw [heq, hget] at hget'
        cases hget'
        have hascending := row.ascending
        have hmem : field' ∈ row.entries.map Prod.fst := mem_keys_of_get? hvalue'
        rw [hentries, List.map_append, List.map_cons] at hascending hmem
        obtain ⟨cell, hcell, rfl⟩ := List.mem_map.1 (mem_of_lt_of_ascending hascending hmem hlt)
        have hsame : row.get? cell.1 = some cell.2 := get?_of_mem (by simp [hentries, hcell])
        rw [hsame] at hvalue'
        cases hvalue'
        exact accepts_of_firstMismatch hcells cell hcell t' htype'
    rw [hrefused'] at haccepts
    cases haccepts

theorem firstFault_empty (h : table.rows = [] ∨ table.fieldNames = []) :
    table.FirstFault catalog resolve (.values .noRows) := by
  have hpasses : ∀ stage < 0, table.Passes catalog resolve stage :=
    fun stage hstage => absurd hstage stage.not_lt_zero
  refine firstFault_of_stage (.empty h) hpasses fun rank e' h' hstage hrank => ?_
  cases h' with
  | empty => exact hrank.elim (Nat.lt_irrefl 0) fun h => String.lt_irrefl _ h.2
  | inconsistent | unknownSchema | noTarget | unresolved | noField | unexpected | mismatch =>
    cases hstage

theorem firstFault_inconsistent {first : Row} {rest : List Row} {index : Nat}
    (hrows : table.rows = first :: rest)
    (hpasses : ∀ stage < 1, table.Passes catalog resolve stage)
    (h : firstInconsistent table.fieldNames 1 rest = some index) :
    table.FirstFault catalog resolve (.values (.inconsistentFields index)) := by
  obtain ⟨before, row, after, rfl, rfl, hne, hbefore⟩ := firstInconsistent_eq_some h
  have hsplit : table.rows = (first :: before) ++ row :: after := hrows
  have hindex : 1 + before.length = (first :: before).length := by
    rw [List.length_cons, Nat.add_comm]
  have hfirst : first.keys = table.fieldNames := by rw [fieldNames, hrows]
  have hrow : table.rows[1 + before.length]? = some row := by simp [hsplit, hindex]
  refine firstFault_of_stage (.inconsistent hrow hne) hpasses ?_
  intro rank e' h' hstage hrank
  cases h' with
  | inconsistent hrow' hne' =>
    rename_i index' row'
    have hlt : index' < (first :: before).length := by
      simpa [hindex, String.lt_irrefl] using hrank
    rw [hsplit, List.getElem?_append_left hlt] at hrow'
    have habove : ∀ r ∈ first :: before, r.keys = table.fieldNames :=
      List.forall_mem_cons.2 ⟨hfirst, hbefore⟩
    exact hne' (habove row' (List.mem_of_getElem? hrow'))
  | empty | unknownSchema | noTarget | unresolved | noField | unexpected | mismatch => cases hstage

theorem passes_of_resolveTypes {types : ValuesTypes} {resolved : SortedMap ResolvedType}
    (hpasses : ∀ stage < 2, table.Passes catalog resolve stage)
    (h : resolveTypes catalog resolve table.fieldNames table.types = .ok (types, resolved)) :
    ∀ stage < 5, table.Passes catalog resolve stage := by
  have hschema : table.Passes catalog resolve 2 := by
    intro name htypes
    rw [htypes, resolveTypes] at h
    split at h
    · cases h
    · rename_i schema hschema
      exact ⟨schema, hschema⟩
  have htyped : table.Passes catalog resolve 3 := by
    intro field hfield
    rw [← keys_of_resolveTypes table.fieldNames_ascending h] at hfield
    obtain ⟨type, htype⟩ := get?_isSome_of_mem_keys hfield
    exact ⟨type, type?_of_resolveTypes table.fieldNames_ascending h htype⟩
  have hnamed : table.Passes catalog resolve 4 := names_of_resolveTypes h
  simp only [Nat.forall_lt_succ_right] at hpasses ⊢
  exact ⟨⟨⟨hpasses, hschema⟩, htyped⟩, hnamed⟩

theorem passes_zero {first : Row} {rest : List Row} (hrows : table.rows = first :: rest)
    (hempty : first.isEmpty = false) : ∀ stage < 1, table.Passes catalog resolve stage := by
  refine Nat.forall_lt_succ_right.2 ⟨fun stage h => absurd h stage.not_lt_zero, ?_⟩
  refine ⟨by simp [hrows], ?_⟩
  rw [fieldNames, hrows]
  simpa [SortedMap.keys, SortedMap.isEmpty] using hempty

theorem passes_one {first : Row} {rest : List Row} (hrows : table.rows = first :: rest)
    (hpasses : ∀ stage < 1, table.Passes catalog resolve stage)
    (hconsistent : ∀ row ∈ rest, row.keys = first.keys) :
    ∀ stage < 2, table.Passes catalog resolve stage := by
  refine Nat.forall_lt_succ_right.2 ⟨hpasses, ?_⟩
  change ∀ row ∈ table.rows, row.keys = table.fieldNames
  rw [fieldNames, hrows]
  exact List.forall_mem_cons.2 ⟨rfl, hconsistent⟩

/-- What validation reports is a fault, and no fault stands before it. -/
theorem firstFault_of_validate (h : table.validate catalog resolve = .error e) :
    table.FirstFault catalog resolve e := by
  rw [validate] at h
  split at h
  · rename_i hrows
    cases h
    exact firstFault_empty (Or.inl hrows)
  · rename_i first rest hrows
    have hnames : first.keys = table.fieldNames := by rw [fieldNames, hrows]
    split at h
    · rename_i hempty
      cases h
      refine firstFault_empty (Or.inr ?_)
      rw [← hnames]
      simpa [SortedMap.keys, SortedMap.isEmpty] using hempty
    · rename_i hempty
      have hpasses : ∀ stage < 1, table.Passes catalog resolve stage :=
        passes_zero hrows (by simpa using hempty)
      split at h
      · rename_i index hindex
        cases h
        exact firstFault_inconsistent hrows hpasses (hnames ▸ hindex)
      · rename_i hconsistent
        have hpasses : ∀ stage < 2, table.Passes catalog resolve stage :=
          passes_one hrows hpasses (firstInconsistent_eq_none.1 hconsistent)
        rw [hnames] at h
        split at h
        · rename_i e' htypes
          cases h
          exact firstFault_of_resolveTypes hpasses htypes
        · rename_i types resolved htypes
          split at h
          · rename_i index field t hmismatch
            cases h
            exact firstFault_mismatch (get?_of_resolveTypes table.fieldNames_ascending htypes)
              (passes_of_resolveTypes hpasses htypes) hmismatch
          · cases h

theorem wellTyped_of_validate {table' : ValuesTable}
    (h : table.validate catalog resolve = .ok table') : table.WellTyped catalog resolve := by
  obtain ⟨first, rest, types, resolved, hrows, hempty, hconsistent, htypes, hmatch, -⟩ :=
    validate_eq_ok.1 h
  have hnames : first.keys = table.fieldNames := by rw [fieldNames, hrows]
  rw [hnames] at htypes
  have hpasses : ∀ stage < 5, table.Passes catalog resolve stage :=
    passes_of_resolveTypes (passes_one hrows (passes_zero hrows hempty) hconsistent) htypes
  have hzero : table.Passes catalog resolve 0 := hpasses 0 (by omega)
  have hone : table.Passes catalog resolve 1 := hpasses 1 (by omega)
  refine ⟨hzero.1, hzero.2, hone, hpasses 3 (by omega), hpasses 4 (by omega), ?_⟩
  intro row hrow field value t hvalue htype
  have hfield : field ∈ table.fieldNames := hone row hrow ▸ mem_keys_of_get? hvalue
  have hresolved : resolved.get? field = some (.builtin t) :=
    (get?_of_resolveTypes table.fieldNames_ascending htypes _ _).2 ⟨hfield, htype⟩
  exact accepts_of_firstMismatchIn hmatch row hrow _ (mem_of_findEntry hvalue) t hresolved

/-- Validation accepts exactly the well-typed tables. -/
theorem exists_validate_iff :
    (∃ table', table.validate catalog resolve = .ok table') ↔ table.WellTyped catalog resolve := by
  refine ⟨fun ⟨_, h⟩ => wellTyped_of_validate h, fun h => ?_⟩
  cases hvalidate : table.validate catalog resolve with
  | ok table' => exact ⟨table', rfl⟩
  | error e =>
    obtain ⟨rank, hfault, -⟩ := firstFault_of_validate hvalidate
    exact absurd (h.passes rank.stage) hfault.not_passes

/-- Validation refuses a table with an error exactly if it is that of the first fault. -/
theorem validate_eq_error_iff :
    table.validate catalog resolve = .error e ↔ table.FirstFault catalog resolve e := by
  refine ⟨firstFault_of_validate, fun h => ?_⟩
  cases hvalidate : table.validate catalog resolve with
  | ok table' =>
    obtain ⟨rank, hfault, -⟩ := h
    exact absurd ((wellTyped_of_validate hvalidate).passes rank.stage) hfault.not_passes
  | error e' => rw [(firstFault_of_validate hvalidate).unique h]

end ValuesTable

end QueryCompiler
