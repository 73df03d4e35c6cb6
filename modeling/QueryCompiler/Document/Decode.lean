import QueryCompiler.Compilation
import QueryCompiler.Document.Labels

/-!
# Reading from documents

The inverse of writing as documents. Members that are not asked for are passed over, a part that may
be missing may be null or left out, and the options of a configuration stand at their defaults where
they are left out. Nothing is checked beyond the form. Trees are read to the depth of their
document.
-/

namespace QueryCompiler

open Document

/-! ### Types and values -/

def DataType.ofDocument? : Document → Option DataType := oneOf? label all

def TypeDescriptor.ofDocument? (d : Document) : Option TypeDescriptor := do
  return ⟨← d.required string? "name", ← d.required (mapOf? string?) "params"⟩

def ResolvedType.ofDocument? (d : Document) : Option ResolvedType := do
  match ← d.tagged? with
  | ("Builtin", content) => return .builtin (← DataType.ofDocument? content)
  | ("Array", content) => return .array (← DataType.ofDocument? content)
  | ("Parameterized", content) => return .parameterized (← TypeDescriptor.ofDocument? content)
  | _ => none

/-- A value in a document of at most the given depth. -/
def Value.decode : Nat → Document → Option Value
  | 0, d => if d.name? = some "Null" then some .null else none
  | depth + 1, d =>
    if d.name? = some "Null" then some .null
    else do
      match ← d.tagged? with
      | ("Bool", content) => return .bool (← content.bool?)
      | ("Integer", content) => return .integer (← content.int64?)
      | ("Float", content) => return .float (← content.float?)
      | ("Decimal", content) => return .decimal (← content.string?)
      | ("String", content) => return .string (← content.string?)
      | ("Binary", content) => return .binary (← content.arrayOf? byte?)
      | ("Date", content) => return .date (← content.int32?)
      | ("Time", content) => return .time (← content.int64?)
      | ("Timestamp", content) => return .timestamp (← content.int64?)
      | ("List", content) => return .list (← content.arrayOf? (Value.decode depth))
      | ("Map", content) => return .map (← content.mapOf? (Value.decode depth)).entries
      | _ => none

def Value.ofDocument? (d : Document) : Option Value := Value.decode (d.depth + 1) d

/-! ### References -/

def SourceRef.ofDocument? (d : Document) : Option SourceRef := do
  match ← d.tagged? with
  | ("Position", content) => return .position (← content.nat?)
  | ("Binding", content) => return .binding (← content.string?)
  | ("ParentBinding", content) => return .parentBinding (← content.string?)
  | _ => none

def Slot.ofDocument? (d : Document) : Option Slot := do
  return ⟨← d.required nat? "level", ← d.required nat? "position"⟩

def FieldName.ofDocument? (d : Document) : Option FieldName := do
  match ← d.tagged? with
  | ("Schema", content) => return .schema (← content.string?)
  | ("Raw", content) => return .raw (← content.string?)
  | _ => none

def ResolvedField.ofDocument? (d : Document) : Option ResolvedField := do
  return ⟨← d.required Slot.ofDocument? "slot", ← d.required string? "storage_name",
    ← d.optional DataType.ofDocument? "data_type"⟩

def FieldRef.ofDocument? (d : Document) : Option FieldRef := do
  return ⟨← d.required SourceRef.ofDocument? "source", ← d.required FieldName.ofDocument? "name",
    ← d.optional ResolvedField.ofDocument? "resolved"⟩

def BindingRef.ofDocument? (d : Document) : Option BindingRef := do
  return ⟨← d.required string? "name", ← d.optional Slot.ofDocument? "slot"⟩

def TypeRef.ofDocument? (d : Document) : Option TypeRef := do
  match ← d.tagged? with
  | ("Builtin", content) => return .builtin (← content.string?)
  | ("ColumnType", content) => return .column (← FieldRef.ofDocument? content)
  | ("Parameterized", content) => return .parameterized (← TypeDescriptor.ofDocument? content)
  | _ => none

def ProjectionKind.ofDocument? : Document → Option ProjectionKind := oneOf? label all

/-- A field set in a document of at most the given depth. -/
def FieldSet.decode : Nat → Document → Option FieldSet
  | 0, _ => none
  | depth + 1, d => do
    let nested ← d.required (arrayOf? fun item => do
      return NestedSelect.mk (← item.required string? "assoc")
        (← item.required ProjectionKind.ofDocument? "kind")
        (← item.required (FieldSet.decode depth) "set")) "nested"
    return .mk (← d.required strings? "fields") nested

def FieldSet.ofDocument? (d : Document) : Option FieldSet := FieldSet.decode (d.depth + 1) d

def Projection.ofDocument? (d : Document) : Option Projection := do
  return ⟨← d.required SourceRef.ofDocument? "source", ← d.required FieldSet.ofDocument? "set",
    ← d.optional Slot.ofDocument? "slot"⟩

def ValuesTypes.ofDocument? (d : Document) : Option ValuesTypes := do
  match ← d.tagged? with
  | ("Map", content) => return .map (← content.mapOf? TypeRef.ofDocument?)
  | ("Schema", content) => return .schema (← content.string?)
  | _ => none

def ValuesTable.ofDocument? (d : Document) : Option ValuesTable := do
  return ⟨← d.required (arrayOf? (mapOf? Value.ofDocument?)) "rows",
    ← d.required ValuesTypes.ofDocument? "types",
    ← d.required (mapOf? ResolvedType.ofDocument?) "resolved", ← d.optional nat? "first_param"⟩

def Param.ofDocument? (d : Document) : Option Param := do
  return ⟨← d.required Value.ofDocument? "value", ← d.optional nat? "index",
    ← d.optional ResolvedType.ofDocument? "data_type", ← d.required bool? "splice"⟩

/-! ### Expressions and queries -/

mutual

/-- An expression in a document of at most the given depth. -/
def Expr.decode : Nat → Document → Option Expr
  | 0, _ => none
  | depth + 1, d => do
    match ← d.tagged? with
    | ("Literal", content) => return .literal (← Value.ofDocument? content)
    | ("Param", content) => return .param (← Param.ofDocument? content)
    | ("Field", content) => return .field (← FieldRef.ofDocument? content)
    | ("BindingRef", content) => return .binding (← BindingRef.ofDocument? content)
    | ("ParentBindingRef", content) => return .parentBinding (← BindingRef.ofDocument? content)
    | ("Operator", content) =>
      return .operator (← content.required (oneOf? Operator.label Operator.all) "kind")
        (← content.required (arrayOf? (Expr.decode depth)) "operands")
    | ("Aggregate", content) =>
      return .aggregate (← content.required (oneOf? AggregateKind.label AggregateKind.all) "kind")
        (← content.required (arrayOf? (Expr.decode depth)) "args")
        (← content.required bool? "distinct")
        (← content.optional (Expr.decode depth) "filter")
    | ("Fragment", content) =>
      return .fragment (← content.required string? "text") (← content.required strings? "parts")
        (← content.required (arrayOf? (FragmentArg.decode depth)) "args")
    | ("Cast", content) =>
      return .cast (← content.required (Expr.decode depth) "value")
        (← content.required TypeRef.ofDocument? "target")
        (← content.optional ResolvedType.ofDocument? "resolved")
    | ("Subquery", content) =>
      return .subquery (← content.required (oneOf? SubqueryKind.label SubqueryKind.every) "kind")
        (← content.required (Query.decode depth) "query")
    | ("ValuesTable", content) => return .values (← ValuesTable.ofDocument? content)
    | ("StructSelect", content) => return .projection .struct (← Projection.ofDocument? content)
    | ("MapSelect", content) => return .projection .map (← Projection.ofDocument? content)
    | ("Merge", .array [left, right]) =>
      return .merge (← Expr.decode depth left) (← Expr.decode depth right)
    | ("Alias", content) =>
      return .aliased (← content.required (Expr.decode depth) "value")
        (← content.required string? "name")
    | ("AliasRef", content) => return .aliasRef (← content.string?)
    | ("JsonPath", content) =>
      return .jsonPath (← content.required (Expr.decode depth) "field")
        (← content.required (arrayOf? (PathStep.decode depth)) "path")
    | ("Interval", content) =>
      return .interval (← content.required (Expr.decode depth) "count")
        (← content.required (oneOf? IntervalUnit.label IntervalUnit.all) "unit")
    | ("Tuple", content) => return .tuple (← content.arrayOf? (Expr.decode depth))
    | ("Map", content) =>
      return .mapping (← content.arrayOf? fun item => do
        match item with
        | .array [key, e] => return (← key.string?, ← Expr.decode depth e)
        | _ => none)
    | _ => none

def FragmentArg.decode : Nat → Document → Option FragmentArg
  | 0, _ => none
  | depth + 1, d => do
    let (tag, content) ← d.tagged?
    let role ← ArgRole.all.find? fun role => role.label == tag
    return .mk role (← Expr.decode depth content)

def PathStep.decode : Nat → Document → Option PathStep
  | 0, _ => none
  | depth + 1, d => do
    match ← d.tagged? with
    | ("Key", content) => return .key (← content.string?)
    | ("Index", content) => return .index (← content.int64?)
    | ("Dynamic", content) => return .computed (← Expr.decode depth content)
    | _ => none

def Query.decode : Nat → Document → Option Query
  | 0, _ => none
  | depth + 1, d => do
    return .mk (← d.required (Source.decode depth) "from")
      (← d.required (arrayOf? (Join.decode depth)) "joins")
      (← d.required (arrayOf? (Expr.decode depth)) "wheres")
      (← d.optional (Expr.decode depth) "select")
      (← d.required (arrayOf? (Expr.decode depth)) "group_by")
      (← d.required (arrayOf? (Expr.decode depth)) "having")
      (← d.required (arrayOf? (OrderTerm.decode depth)) "order_by")
      (← d.optional (Expr.decode depth) "limit") (← d.optional (Expr.decode depth) "offset")
      (← d.required bool? "distinct")

def Source.decode : Nat → Document → Option Source
  | 0, _ => none
  | depth + 1, d => do
    return .mk (← d.required (Origin.decode depth) "kind") (← d.optional string? "binding")

def Origin.decode : Nat → Document → Option Origin
  | 0, _ => none
  | depth + 1, d => do
    match ← d.tagged? with
    | ("Schema", content) => return .schema (← content.string?)
    | ("Table", content) => return .table (← content.string?)
    | ("Values", content) => return .values (← ValuesTable.ofDocument? content)
    | ("Subquery", content) => return .subquery (← Query.decode depth content)
    | ("Fragment", content) => return .fragment (← Expr.decode depth content)
    | _ => none

def Join.decode : Nat → Document → Option Join
  | 0, _ => none
  | depth + 1, d => do
    return .mk (← d.required (oneOf? JoinKind.label JoinKind.all) "qual")
      (← d.required (Source.decode depth) "source")
      (← d.optional (Expr.decode depth) "on")

def OrderTerm.decode : Nat → Document → Option OrderTerm
  | 0, _ => none
  | depth + 1, d => do
    return .mk (← d.required (Expr.decode depth) "expr")
      (← d.required (oneOf? SortDirection.label SortDirection.all) "direction")

end

def Expr.ofDocument? (d : Document) : Option Expr := Expr.decode (d.depth + 1) d

def Query.ofDocument? (d : Document) : Option Query := Query.decode (d.depth + 1) d

/-! ### Catalogs, configurations and compiled queries -/

def SchemaField.ofDocument? (d : Document) : Option SchemaField := do
  return ⟨← d.required string? "name", ← d.required string? "source",
    ← d.required DataType.ofDocument? "data_type"⟩

def Association.ofDocument? (d : Document) : Option Association := do
  return ⟨← d.required string? "name", ← d.required string? "related",
    ← d.required (oneOf? Cardinality.label Cardinality.all) "cardinality",
    ← d.required string? "owner_key", ← d.required string? "related_key"⟩

def Schema.ofDocument? (d : Document) : Option Schema := do
  return ⟨← d.required string? "name", ← d.required string? "source",
    ← d.required (arrayOf? SchemaField.ofDocument?) "fields", ← d.required strings? "primary_key",
    ← d.required (arrayOf? Association.ofDocument?) "associations"⟩

def Catalog.ofDocument? (d : Document) : Option Catalog := do
  return ⟨← d.required (mapOf? Schema.ofDocument?) "schemas"⟩

def Config.ofDocument? (d : Document) : Option Config := do
  let standard := Config.default
  return ⟨← d.withDefault nat? "max_subquery_depth" standard.maxSubqueryDepth,
    ← d.withDefault bool? "allow_identical_alias_redefinition" standard.allowIdenticalAliases,
    ← d.withDefault bool? "reject_aggregates_in_where" standard.rejectAggregatesInWhere⟩

def BoundParam.ofDocument? (d : Document) : Option BoundParam := do
  return ⟨← d.required Value.ofDocument? "value", ← d.optional ResolvedType.ofDocument? "data_type",
    ← d.required bool? "splice"⟩

def CacheKey.ofDocument? (d : Document) : Option CacheKey := do
  return ⟨← d.required string? "shape", ← d.required uint32? "checksum"⟩

def CompiledQuery.ofDocument? (d : Document) : Option CompiledQuery := do
  return ⟨← d.required Query.ofDocument? "query",
    ← d.required (arrayOf? BoundParam.ofDocument?) "params",
    ← d.required CacheKey.ofDocument? "cache_key"⟩

end QueryCompiler
