import QueryCompiler.Catalog
import QueryCompiler.Query

/-!
# References of a tree

All references in a tree together with the queries that enclose them, the innermost first, and what
it means that the slot recorded for a reference is right. Nothing here speaks of scopes or of a run
of binding: a slot is read against the sources of the enclosing queries as they stand in the tree.
-/

namespace QueryCompiler

inductive Reference where
  /-- A whole source, or a source that is reshaped, with the slot recorded for it. -/
  | source (ref : SourceRef) (slot : Option Slot)
  /-- A field of a source, which records its slot, its storage name and its type. -/
  | field (field : FieldRef)

/-- The field that a type target takes its type from. -/
def TypeRef.references : TypeRef → List Reference
  | column field => [.field field]
  | builtin _ => []
  | parameterized _ => []

/-! ### Collection -/

mutual

/-- The references in an expression that stands in the first of some nested queries. -/
def Expr.references (queries : List Query) : Expr → List (List Query × Reference)
  | .field f => [(queries, .field f)]
  | .binding r => [(queries, .source (.binding r.name) r.slot)]
  | .parentBinding r => [(queries, .source (.parentBinding r.name) r.slot)]
  | .projection _ p => [(queries, .source p.source p.slot)]
  | .operator _ operands => referencesAll queries operands
  | .aggregate _ args _ filter => referencesAll queries args ++ referencesOption queries filter
  | .fragment _ _ args => referencesArgs queries args
  | .cast value target _ =>
    value.references queries ++ target.references.map fun reference => (queries, reference)
  | .subquery _ query => query.references queries
  | .merge left right => left.references queries ++ right.references queries
  | .aliased value _ => value.references queries
  | .jsonPath base path => base.references queries ++ referencesPath queries path
  | .interval count _ => count.references queries
  | .tuple items => referencesAll queries items
  | .mapping entries => referencesEntries queries entries
  | .literal _ | .param _ | .values _ | .aliasRef _ => []

def referencesAll (queries : List Query) : List Expr → List (List Query × Reference)
  | [] => []
  | e :: rest => e.references queries ++ referencesAll queries rest

def referencesOption (queries : List Query) : Option Expr → List (List Query × Reference)
  | none => []
  | some e => e.references queries

def referencesArgs (queries : List Query) : List FragmentArg → List (List Query × Reference)
  | [] => []
  | .mk _ e :: rest => e.references queries ++ referencesArgs queries rest

def referencesPath (queries : List Query) : List PathStep → List (List Query × Reference)
  | [] => []
  | .computed e :: rest => e.references queries ++ referencesPath queries rest
  | .key _ :: rest => referencesPath queries rest
  | .index _ :: rest => referencesPath queries rest

def referencesEntries (queries : List Query) :
    List (String × Expr) → List (List Query × Reference)
  | [] => []
  | (_, e) :: rest => e.references queries ++ referencesEntries queries rest

def referencesTerms (queries : List Query) : List OrderTerm → List (List Query × Reference)
  | [] => []
  | .mk e _ :: rest => e.references queries ++ referencesTerms queries rest

def Source.references (queries : List Query) : Source → List (List Query × Reference)
  | .mk (.subquery query) _ => query.references queries
  | .mk (.fragment e) _ => e.references queries
  | .mk (.schema _) _ => []
  | .mk (.table _) _ => []
  | .mk (.values _) _ => []

def referencesJoins (queries : List Query) : List Join → List (List Query × Reference)
  | [] => []
  | .mk _ source on :: rest =>
    source.references queries ++ referencesOption queries on ++ referencesJoins queries rest

/-- The references in a query, itself enclosed by `outer`. -/
def Query.references (outer : List Query) : Query → List (List Query × Reference)
  | .mk source joins wheres select groupBy having orderBy limit offset distinct =>
    let queries :=
      .mk source joins wheres select groupBy having orderBy limit offset distinct :: outer
    source.references queries ++ referencesJoins queries joins ++ referencesAll queries wheres ++
      referencesOption queries select ++ referencesAll queries groupBy ++
      referencesAll queries having ++ referencesTerms queries orderBy ++
      referencesOption queries limit ++ referencesOption queries offset

end

/-! ### What a slot and a field record -/

/-- So many queries outward there is a source at the position. -/
def Slot.Reaches (queries : List Query) (slot : Slot) (source : Source) : Prop :=
  ∃ query, queries[slot.level]? = some query ∧ query.sources[slot.position]? = some source

/--
What a written reference says about the slot and the source that it means: a position is one of the
innermost query, a name is that of the source and of none in the queries between, and the name of a
parent is that of a source in the next query outward.
-/
def SourceRef.Means (queries : List Query) (slot : Slot) (source : Source) : SourceRef → Prop
  | .position index => slot.level = 0 ∧ slot.position = index
  | .binding name => source.name = some name ∧
    ∀ level < slot.level, ∀ query, queries[level]? = some query →
      ∀ other ∈ query.sources, other.name ≠ some name
  | .parentBinding name => slot.level = 1 ∧ source.name = some name

/-- The type that a bound type target stands for. -/
def TypeRef.declared? : TypeRef → Option ResolvedType
  | builtin name => (DataType.ofName? name).map .builtin
  | column field => (field.resolved.bind (·.type)).map .builtin
  | parameterized descriptor => some (.parameterized descriptor)

/-- The type that a values table declares for a field. -/
def ValuesTypes.declared? (catalog : Catalog) (name : String) : ValuesTypes → Option ResolvedType
  | .map types => (types.get? name).bind TypeRef.declared?
  | .schema reference => ((catalog.get? reference).bind (·.field? name)).map fun field =>
    .builtin field.type

/-- The storage name and the type that a source gives to a field. -/
inductive Source.Gives (catalog : Catalog) (source : Source) :
    FieldName → String → Option DataType → Prop where
  | raw (name : String) : Source.Gives catalog source (.raw name) name none
  | schema {reference : String} {schema : Schema} {field : SchemaField} {name : String}
      (horigin : source.origin = .schema reference) (hschema : catalog.get? reference = some schema)
      (hfield : schema.field? name = some field) :
      Source.Gives catalog source (.schema name) field.storage (some field.type)
  | values {table : ValuesTable} {name : String} {type : ResolvedType}
      (horigin : source.origin = .values table)
      (htype : table.types.declared? catalog name = some type) :
      Source.Gives catalog source (.schema name) name type.builtin?
  | table {table name : String} (horigin : source.origin = .table table) :
      Source.Gives catalog source (.schema name) name none
  | subquery {query : Query} {name : String} (horigin : source.origin = .subquery query) :
      Source.Gives catalog source (.schema name) name none
  | fragment {e : Expr} {name : String} (horigin : source.origin = .fragment e) :
      Source.Gives catalog source (.schema name) name none

/-- What is recorded for a reference is right, seen from the queries that enclose it. -/
def Reference.Sound (catalog : Catalog) (queries : List Query) : Reference → Prop
  | .source ref slot => ∃ found source, slot = some found ∧ found.Reaches queries source ∧
    ref.Means queries found source
  | .field f => ∃ resolved source, f.resolved = some resolved ∧
    resolved.slot.Reaches queries source ∧ f.source.Means queries resolved.slot source ∧
    source.Gives catalog f.name resolved.storage resolved.type

end QueryCompiler
