import QueryCompiler.Error
import QueryCompiler.ValuesTable

/-!
# Validation of values tables

A values table needs a row with a field, the same fields in every row, a type for exactly these
fields, and in every cell of a builtin type a value that the type accepts. Of several faults the
first in this order counts.
-/

namespace QueryCompiler

/-- The first row, counted from `index`, that has other fields than `keys`. -/
def firstInconsistent (keys : List String) (index : Nat) : List Row → Option Nat
  | [] => none
  | row :: rest => if row.keys = keys then firstInconsistent keys (index + 1) rest else some index

/-- The types that a type map gives to some fields, with its targets as `resolve` leaves them. -/
def resolveColumns (resolve : TypeRef → Except CastError (TypeRef × ResolvedType))
    (types : SortedMap TypeRef) :
    List String → Except CompileError (List (String × TypeRef × ResolvedType))
  | [] => .ok []
  | field :: rest => match types.get? field with
    | none => .error (.values (.missingType field))
    | some target => match resolve target with
      | .error e => .error (.cast e)
      | .ok found => match resolveColumns resolve types rest with
        | .error e => .error e
        | .ok columns => .ok ((field, found) :: columns)

/-- The types that a schema gives to some fields. -/
def schemaColumns (schema : Schema) :
    List String → Except CompileError (List (String × ResolvedType))
  | [] => .ok []
  | field :: rest => match schema.field? field with
    | none => .error (.values (.missingType field))
    | some f => match schemaColumns schema rest with
      | .error e => .error e
      | .ok columns => .ok ((field, .builtin f.type) :: columns)

/-- The types of the fields of a table, and where they come from with its targets bound. -/
def resolveTypes (catalog : Catalog) (resolve : TypeRef → Except CastError (TypeRef × ResolvedType))
    (keys : List String) :
    ValuesTypes → Except CompileError (ValuesTypes × SortedMap ResolvedType)
  | .map types => match resolveColumns resolve types keys with
    | .error e => .error e
    | .ok columns => match types.keys.find? fun key => !keys.contains key with
      | some extra => .error (.values (.unexpectedType extra))
      | none => .ok (.map (.ofList (columns.map fun c => (c.1, c.2.1))),
          .ofList (columns.map fun c => (c.1, c.2.2)))
  | .schema name => match catalog.get? name with
    | none => .error (.binding (.unknownSchema name))
    | some schema => match schemaColumns schema keys with
      | .error e => .error e
      | .ok columns => .ok (.schema name, .ofList columns)

/-- The first cell of a row that its type does not accept. -/
def firstMismatch (types : SortedMap ResolvedType) :
    List (String × Value) → Option (String × DataType)
  | [] => none
  | (field, value) :: rest => match types.get? field with
    | some (.builtin t) => if t.accepts value then firstMismatch types rest else some (field, t)
    | _ => firstMismatch types rest

/-- The first cell of some rows, counted from `index`, that its type does not accept. -/
def firstMismatchIn (types : SortedMap ResolvedType) (index : Nat) :
    List Row → Option (Nat × String × DataType)
  | [] => none
  | row :: rest => match firstMismatch types row.entries with
    | some (field, t) => some (index, field, t)
    | none => firstMismatchIn types (index + 1) rest

/-- Validates a table and fills in the types of its fields. -/
def ValuesTable.validate (catalog : Catalog)
    (resolve : TypeRef → Except CastError (TypeRef × ResolvedType)) (table : ValuesTable) :
    Except CompileError ValuesTable :=
  match table.rows with
  | [] => .error (.values .noRows)
  | first :: rest =>
    if first.isEmpty then .error (.values .noRows)
    else match firstInconsistent first.keys 1 rest with
      | some row => .error (.values (.inconsistentFields row))
      | none => match resolveTypes catalog resolve first.keys table.types with
        | .error e => .error e
        | .ok (types, resolved) => match firstMismatchIn resolved 0 table.rows with
          | some (row, field, t) => .error (.values (.typeMismatch row field t))
          | none => .ok { table with types := types, resolved := resolved }

end QueryCompiler
