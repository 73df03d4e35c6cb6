import QueryCompiler.Compilation
import QueryCompiler.Document.Labels

/-!
# Writing as documents

Values, expressions, queries, catalogs, configurations and compiled queries as documents. Structures
are objects with all their fields, a missing part is null, a constructor without arguments is its
name, and one with arguments is an object that has the name as its only key.
-/

namespace QueryCompiler

open Document

/-! ### Types and values -/

def DataType.document (t : DataType) : Document := .string t.label

def TypeDescriptor.document (d : TypeDescriptor) : Document :=
  .object [("name", .string d.name),
    ("params", .object (d.params.entries.map fun e => (e.1, .string e.2)))]

def ResolvedType.document : ResolvedType → Document
  | .builtin t => tagged "Builtin" t.document
  | .array t => tagged "Array" t.document
  | .parameterized d => tagged "Parameterized" d.document

mutual

def Value.document : Value → Document
  | .null => .string "Null"
  | .bool b => tagged "Bool" (.bool b)
  | .integer i => tagged "Integer" (.integer i.toInt)
  | .float x => tagged "Float" (.float x)
  | .decimal d => tagged "Decimal" (.string d)
  | .string s => tagged "String" (.string s)
  | .binary bytes => tagged "Binary" (.array (bytes.map fun b => nat b.toNat))
  | .date d => tagged "Date" (.integer d.toInt)
  | .time t => tagged "Time" (.integer t.toInt)
  | .timestamp t => tagged "Timestamp" (.integer t.toInt)
  | .list items => tagged "List" (.array (valueDocuments items))
  | .map entries => tagged "Map" (.object (valueMembers entries))

def valueDocuments : List Value → List Document
  | [] => []
  | v :: rest => v.document :: valueDocuments rest

def valueMembers : List (String × Value) → List (String × Document)
  | [] => []
  | (key, v) :: rest => (key, v.document) :: valueMembers rest

end

/-! ### References -/

def SourceRef.document : SourceRef → Document
  | .position i => tagged "Position" (nat i)
  | .binding name => tagged "Binding" (.string name)
  | .parentBinding name => tagged "ParentBinding" (.string name)

def Slot.document (s : Slot) : Document :=
  .object [("level", nat s.level), ("position", nat s.position)]

def FieldName.document : FieldName → Document
  | .schema name => tagged "Schema" (.string name)
  | .raw name => tagged "Raw" (.string name)

def ResolvedField.document (r : ResolvedField) : Document :=
  .object [("slot", r.slot.document), ("storage_name", .string r.storage),
    ("data_type", option DataType.document r.type)]

def FieldRef.document (f : FieldRef) : Document :=
  .object [("source", f.source.document), ("name", f.name.document),
    ("resolved", option ResolvedField.document f.resolved)]

def BindingRef.document (r : BindingRef) : Document :=
  .object [("name", .string r.name), ("slot", option Slot.document r.slot)]

def TypeRef.document : TypeRef → Document
  | .builtin name => tagged "Builtin" (.string name)
  | .column field => tagged "ColumnType" field.document
  | .parameterized d => tagged "Parameterized" d.document

mutual

def FieldSet.document : FieldSet → Document
  | .mk fields nested =>
    .object [("fields", strings fields), ("nested", .array (nestedDocuments nested))]

def nestedDocuments : List NestedSelect → List Document
  | [] => []
  | .mk association kind set :: rest =>
    .object [("assoc", .string association), ("kind", .string kind.label), ("set", set.document)] ::
      nestedDocuments rest

end

def Projection.document (p : Projection) : Document :=
  .object [("source", p.source.document), ("set", p.set.document),
    ("slot", option Slot.document p.slot)]

def ValuesTypes.document : ValuesTypes → Document
  | .map types => tagged "Map" (.object (types.entries.map fun e => (e.1, e.2.document)))
  | .schema name => tagged "Schema" (.string name)

def ValuesTable.document (t : ValuesTable) : Document :=
  .object [("rows", .array (t.rows.map fun row => .object (valueMembers row.entries))),
    ("types", t.types.document),
    ("resolved", .object (t.resolved.entries.map fun e => (e.1, e.2.document))),
    ("first_param", option nat t.firstParam)]

def Param.document (p : Param) : Document :=
  .object [("value", p.value.document), ("index", option nat p.index),
    ("data_type", option ResolvedType.document p.type), ("splice", .bool p.splice)]

/-! ### Expressions and queries -/

/-- The members of a fragment, given its arguments. -/
def fragmentMembers (text : String) (parts : List String) (args : List Document) : Document :=
  .object [("text", .string text), ("parts", strings parts), ("args", .array args)]

/-- The members of a cast, given its value. -/
def castMembers (value : Document) (target : TypeRef) (resolved : Option ResolvedType) : Document :=
  .object [("value", value), ("target", target.document),
    ("resolved", option ResolvedType.document resolved)]

mutual

def Expr.document : Expr → Document
  | .literal v => tagged "Literal" v.document
  | .param p => tagged "Param" p.document
  | .field f => tagged "Field" f.document
  | .binding r => tagged "BindingRef" r.document
  | .parentBinding r => tagged "ParentBindingRef" r.document
  | .operator op operands =>
    tagged "Operator" (.object [("kind", .string op.label),
      ("operands", .array (exprDocuments operands))])
  | .aggregate kind args distinct filter =>
    tagged "Aggregate" (.object [("kind", .string kind.label),
      ("args", .array (exprDocuments args)), ("distinct", .bool distinct),
      ("filter", optionDocument filter)])
  | .fragment text parts args => tagged "Fragment" (fragmentMembers text parts (argDocuments args))
  | .cast value target resolved => tagged "Cast" (castMembers value.document target resolved)
  | .subquery kind query =>
    tagged "Subquery" (.object [("query", query.document), ("kind", .string kind.label)])
  | .values table => tagged "ValuesTable" table.document
  | .projection .struct p => tagged "StructSelect" p.document
  | .projection .map p => tagged "MapSelect" p.document
  | .merge left right => tagged "Merge" (.array [left.document, right.document])
  | .aliased value name =>
    tagged "Alias" (.object [("value", value.document), ("name", .string name)])
  | .aliasRef name => tagged "AliasRef" (.string name)
  | .jsonPath base path =>
    tagged "JsonPath" (.object [("field", base.document), ("path", .array (pathDocuments path))])
  | .interval count unit =>
    tagged "Interval" (.object [("count", count.document), ("unit", .string unit.label)])
  | .tuple items => tagged "Tuple" (.array (exprDocuments items))
  | .mapping entries => tagged "Map" (.array (entryDocuments entries))

def exprDocuments : List Expr → List Document
  | [] => []
  | e :: rest => e.document :: exprDocuments rest

def optionDocument : Option Expr → Document
  | none => .null
  | some e => e.document

def argDocuments : List FragmentArg → List Document
  | [] => []
  | .mk role e :: rest => tagged role.label e.document :: argDocuments rest

def pathDocuments : List PathStep → List Document
  | [] => []
  | .key k :: rest => tagged "Key" (.string k) :: pathDocuments rest
  | .index i :: rest => tagged "Index" (.integer i.toInt) :: pathDocuments rest
  | .computed e :: rest => tagged "Dynamic" e.document :: pathDocuments rest

def entryDocuments : List (String × Expr) → List Document
  | [] => []
  | (key, e) :: rest => .array [.string key, e.document] :: entryDocuments rest

def Query.document : Query → Document
  | .mk source joins wheres select groupBy having orderBy limit offset distinct =>
    .object [("from", source.document), ("joins", .array (joinDocuments joins)),
      ("wheres", .array (exprDocuments wheres)), ("select", optionDocument select),
      ("group_by", .array (exprDocuments groupBy)), ("having", .array (exprDocuments having)),
      ("order_by", .array (termDocuments orderBy)), ("limit", optionDocument limit),
      ("offset", optionDocument offset), ("distinct", .bool distinct)]

def Source.document : Source → Document
  | .mk origin name => .object [("kind", origin.document), ("binding", option .string name)]

def Origin.document : Origin → Document
  | .schema name => tagged "Schema" (.string name)
  | .table name => tagged "Table" (.string name)
  | .values table => tagged "Values" table.document
  | .subquery query => tagged "Subquery" query.document
  | .fragment e => tagged "Fragment" e.document

def joinDocuments : List Join → List Document
  | [] => []
  | .mk kind source on :: rest =>
    .object [("qual", .string kind.label), ("source", source.document),
      ("on", optionDocument on)] :: joinDocuments rest

def termDocuments : List OrderTerm → List Document
  | [] => []
  | .mk e direction :: rest =>
    .object [("expr", e.document), ("direction", .string direction.label)] :: termDocuments rest

end

/-! ### Catalogs, configurations and compiled queries -/

def SchemaField.document (f : SchemaField) : Document :=
  .object [("name", .string f.name), ("source", .string f.storage), ("data_type", f.type.document)]

def Association.document (a : Association) : Document :=
  .object [("name", .string a.name), ("related", .string a.related),
    ("cardinality", .string a.cardinality.label), ("owner_key", .string a.ownerKey),
    ("related_key", .string a.relatedKey)]

def Schema.document (s : Schema) : Document :=
  .object [("name", .string s.name), ("source", .string s.storage),
    ("fields", .array (s.fields.map SchemaField.document)), ("primary_key", strings s.primaryKey),
    ("associations", .array (s.associations.map Association.document))]

def Catalog.document (c : Catalog) : Document :=
  .object [("schemas", .object (c.schemas.entries.map fun e => (e.1, e.2.document)))]

def Config.document (c : Config) : Document :=
  .object [("max_subquery_depth", nat c.maxSubqueryDepth),
    ("allow_identical_alias_redefinition", .bool c.allowIdenticalAliases),
    ("reject_aggregates_in_where", .bool c.rejectAggregatesInWhere)]

def BoundParam.document (p : BoundParam) : Document :=
  .object [("value", p.value.document), ("data_type", option ResolvedType.document p.type),
    ("splice", .bool p.splice)]

def CacheKey.document (k : CacheKey) : Document :=
  .object [("shape", .string k.shape), ("checksum", nat k.checksum.toNat)]

def CompiledQuery.document (c : CompiledQuery) : Document :=
  .object [("query", c.query.document), ("params", .array (c.params.map BoundParam.document)),
    ("cache_key", c.key.document)]

end QueryCompiler
