import QueryCompiler.Reference

/-!
# Values tables

A table of constant rows inside a query. Its cells are bound as parameters, row after row and in
each row in the order of the field names.
-/

namespace QueryCompiler

/-- Where a values table has the types of its fields from. -/
inductive ValuesTypes where
  | map (types : SortedMap TypeRef)
  | schema (name : String)
  deriving DecidableEq, Inhabited

structure ValuesTable where
  rows : List Row
  types : ValuesTypes
  /-- The type of every field, filled in by validation. -/
  resolved : SortedMap ResolvedType
  /-- The parameter index of the first cell. -/
  firstParam : Option Nat
  deriving Inhabited

namespace ValuesTable

def ofRows (rows : List Row) (types : ValuesTypes) : ValuesTable := ⟨rows, types, .empty, none⟩

/-- The field names of the first row, in order. -/
def fieldNames (table : ValuesTable) : List String :=
  match table.rows with
  | [] => []
  | row :: _ => row.keys

/-- How many parameters the table takes. -/
def paramCount (table : ValuesTable) : Nat := table.rows.length * table.fieldNames.length

/-- The cells in binding order, with their types. -/
def cells (table : ValuesTable) : List (Value × Option ResolvedType) :=
  table.rows.flatMap fun row => row.entries.map fun e => (e.2, table.resolved.get? e.1)

def sameRows : List Row → List Row → Bool
  | [], [] => true
  | r :: rs, s :: ss => Value.sameEntries r.entries s.entries && sameRows rs ss
  | _, _ => false

def same (t u : ValuesTable) : Bool :=
  sameRows t.rows u.rows && t.types == u.types && t.resolved == u.resolved &&
    t.firstParam == u.firstParam

end ValuesTable

end QueryCompiler
