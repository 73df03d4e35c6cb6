import QueryCompiler.Proofs.Validation.Faults
import QueryCompiler.Proofs.Validation.InPlace

/-!
# Validation is exact and leaves nothing half done

Validating a values table where it stands succeeds for exactly the well-typed tables, and puts down
exactly the types of its fields. On any other table it fails with the first of its faults, and keeps
the rows and the types that were there before; only targets of columns may have been bound.
-/

namespace QueryCompiler

/-- What validation by value gives is what validation in place leaves, if it succeeds. -/
theorem check_eq_validateIn (catalog : Catalog) (scopes : ScopeStack) (table : ValuesTable) :
    table.check catalog scopes = (outcome (table.validateIn catalog scopes.resolveTypeIn)).map
      Prod.fst := by
  have hresolve : (fun target => outcome (scopes.resolveTypeIn target)) = scopes.resolveType :=
    funext (outcome_resolveTypeIn scopes)
  rw [outcome_validateIn catalog scopes.resolveTypeIn (written_resolveTypeIn scopes), hresolve]
  rfl

/-- The types that a validated table has are those of its fields. -/
theorem get?_of_check {catalog : Catalog} {scopes : ScopeStack} {table table' : ValuesTable}
    (h : table.check catalog scopes = .ok table') (field : String) (type : ResolvedType) :
    table'.resolved.get? field = some type ↔ field ∈ table.fieldNames ∧
      table.types.type? catalog scopes.resolveType field = some type := by
  obtain ⟨first, rest, types, resolved, hrows, -, -, htypes, -, rfl⟩ := validate_eq_ok.1 h
  rw [ValuesTable.fieldNames, hrows]
  exact get?_of_resolveTypes first.ascending htypes field type

/--
Whatever is in scope, validating a table in place does what checking it does. It succeeds exactly if
the table is well typed, and the table then has exactly the types of its fields. It fails with an
error exactly if this is the error of the first fault, and the table keeps the types it had before.
Its rows and its index stay in any case, and so do the targets as they are written.
-/
theorem validateIn_exact (catalog : Catalog) (scopes : ScopeStack) (table : ValuesTable) :
    ∃ table' result, table.validateIn catalog scopes.resolveTypeIn = (table', result) ∧
      table.check catalog scopes = result.map (fun _ => table') ∧
      table'.rows = table.rows ∧ table'.firstParam = table.firstParam ∧
      table'.types.written = table.types.written ∧
      (result = .ok () ↔ table.WellTyped catalog scopes.resolveType) ∧
      (result = .ok () → ∀ field type, table'.resolved.get? field = some type ↔
        field ∈ table.fieldNames ∧
          table.types.type? catalog scopes.resolveType field = some type) ∧
      (∀ e, result = .error e ↔ table.FirstFault catalog scopes.resolveType e) ∧
      (∀ e, result = .error e → table'.resolved = table.resolved) := by
  have hcheck := check_eq_validateIn catalog scopes table
  obtain ⟨hrows, hfirst, htypes, hresolved⟩ := validateIn_keeps catalog scopes.resolveTypeIn
    (written_resolveTypeIn scopes) table
  rcases hleft : table.validateIn catalog scopes.resolveTypeIn with ⟨table', result⟩
  rw [hleft] at hcheck hrows hfirst htypes hresolved
  have hresult : table.check catalog scopes = result.map (fun _ => table') := by
    rw [hcheck]
    cases result <;> rfl
  have hvalidate : table.validate catalog scopes.resolveType = result.map (fun _ => table') :=
    hresult
  refine ⟨table', result, rfl, hresult, hrows, hfirst, htypes, ?_, fun hok => ?_, fun e => ?_,
    hresolved⟩
  · rw [← ValuesTable.exists_validate_iff, hvalidate]
    cases result <;> simp [Except.map]
  · rw [hok] at hresult
    exact get?_of_check hresult
  · rw [← ValuesTable.validate_eq_error_iff, hvalidate]
    cases result <;> simp [Except.map]

/-- The scope of a query from posts that are named `p`. -/
def postScope : Scope :=
  ⟨[⟨0, some "p", .schema ⟨"posts", "posts", [⟨"id", "post_id", .id⟩], ["id"], []⟩⟩]⟩

/-- A table of posts, typed as the identifier of those in scope, and of their stars. -/
def ratings (rows : List Row) : ValuesTable :=
  .ofRows rows (.map (.ofList
    [("post", .column ⟨.binding "p", .schema "id", none⟩), ("stars", .builtin "integer")]))

theorem validateIn_exact_ratings :
    (∃ table', (ratings [.ofList [("post", .integer 1), ("stars", .integer 5)]]).validateIn .empty
        (ScopeStack.resolveTypeIn [postScope]) = (table', .ok ()) ∧
      table'.resolved.get? "post" = some (.builtin .id)) ∧
    (ratings [.ofList [("post", .integer 1), ("stars", .integer 5)]]).WellTyped .empty
      (ScopeStack.resolveType [postScope]) ∧
    (ratings [.ofList [("post", .integer 1), ("stars", .string "five")],
      .ofList [("stars", .integer 5)]]).FirstFault .empty (ScopeStack.resolveType [postScope])
        (.values (.inconsistentFields 1)) := by
  obtain ⟨table', _, ⟨⟩, -, -, -, -, hok, hget, -⟩ :=
    validateIn_exact .empty [postScope]
      (ratings [.ofList [("post", .integer 1), ("stars", .integer 5)]])
  obtain ⟨_, _, ⟨⟩, -, -, -, -, -, -, herror, -⟩ :=
    validateIn_exact .empty [postScope]
      (ratings [.ofList [("post", .integer 1), ("stars", .string "five")],
        .ofList [("stars", .integer 5)]])
  exact ⟨⟨_, rfl, rfl⟩, hok.1 rfl, (herror _).1 rfl⟩

end QueryCompiler
