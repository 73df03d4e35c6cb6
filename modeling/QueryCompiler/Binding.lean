import QueryCompiler.Binding.Monad
import QueryCompiler.Query.Aggregates
import QueryCompiler.Query.Cast
import QueryCompiler.Query.Fragment
import QueryCompiler.Query.Merge
import QueryCompiler.ValuesTable.Validation

/-!
# Binding

Binding resolves every reference of a query against the scopes of the open queries, processes its
fragments, casts and values tables, numbers its parameters and merges its projection. A query first
declares all its sources; only then are its projection, what its sources carry, and its other
clauses bound, in this order.
-/

namespace QueryCompiler

/-! ### Leaves -/

def Param.assign (p : Param) : BindM Param :=
  return { p with index := some (← BindM.takeIndices 1) }

def ValuesTable.assign (table : ValuesTable) : BindM ValuesTable :=
  return { table with firstParam := some (← BindM.takeIndices table.paramCount) }

/--
Numbers the parameter of a spliced argument; other arguments that are no expressions carry none.
-/
def FragmentArg.assign : FragmentArg → BindM FragmentArg
  | .mk .splice (.param p) => return .mk .splice (.param (← p.assign))
  | arg => return arg

def checkOperands (op : Operator) (operands : List Expr) : Except ExprFault Unit :=
  if operands.length ≠ op.arity then .error (.operandCount op operands.length)
  else if op.isDateArithmetic then
    match operands.getLast? with
    | some (.interval _ _) => .ok ()
    | _ => .error (.missingInterval op)
  else .ok ()

def checkArguments (kind : AggregateKind) (args : List Expr) : Except ExprFault Unit :=
  if args.length ≠ kind.arity then .error (.argumentCount kind args.length) else .ok ()

def Expr.isFragment : Expr → Bool
  | .fragment _ _ _ => true
  | _ => false

/-! ### Projections -/

mutual

/--
Checks a field set against the schema of its source: first all its fields, then what it asks of each
association. Keys that are needed to load an association but not asked for are noted.
-/
def checkFieldSet (catalog : Catalog) (schema : Schema) : FieldSet → BindM Unit
  | .mk fields nested =>
    match fields.find? fun field => !schema.hasField field with
    | some field => throw (.binding (.unknownField schema.name field))
    | none => checkNested catalog schema fields nested

def checkNested (catalog : Catalog) (schema : Schema) (fields : List String) :
    List NestedSelect → BindM Unit
  | [] => pure ()
  | .mk name _ set :: rest =>
    match schema.association? name with
    | none => throw (.binding (.unknownAssociation schema.name name))
    | some association => match catalog.get? association.related with
      | none => throw (.binding (.unknownSchema association.related))
      | some related => do
        if !fields.contains association.ownerKey then
          BindM.note (.ownerKeyOmitted schema.name association.name association.ownerKey)
        if !set.fields.contains association.relatedKey then
          BindM.note (.relatedKeyOmitted related.name association.name association.relatedKey)
        checkFieldSet catalog related set
        checkNested catalog schema fields rest

end

def Projection.bind (ctx : Context) (p : Projection) : BindM Projection := do
  let (slot, source) ← BindM.ofExcept .binding (ctx.scopes.resolve p.source)
  match source.shape with
  | .schema schema => checkFieldSet ctx.catalog schema p.set
  | _ => pure ()
  return { p with slot := some slot }

/-! ### Sources -/

/-- Validates a values table against some scopes. -/
def ValuesTable.check (catalog : Catalog) (scopes : ScopeStack) (table : ValuesTable) :
    Except CompileError ValuesTable :=
  table.validate catalog scopes.resolveType

/-- What a source shows, and its table if it is a values table. -/
def Source.declare (catalog : Catalog) (scopes : ScopeStack) :
    Source → Except CompileError (SourceShape × Option ValuesTable)
  | .mk (.schema name) _ => match catalog.get? name with
    | some schema => .ok (.schema schema, none)
    | none => .error (.binding (.unknownSchema name))
  | .mk (.table name) _ => .ok (.schemaless name, none)
  | .mk (.values table) _ => match table.check catalog scopes with
    | .ok table => .ok (.values table.resolved, some table)
    | .error e => .error e
  | .mk (.subquery _) _ => .ok (.untyped, none)
  | .mk (.fragment _) _ => .ok (.untyped, none)

/--
Declares sources one after another in a scope. The types of a values table may refer to the sources
before it. The scope as far as it came is given even if a source is refused.
-/
def declareSources (catalog : Catalog) (outer : ScopeStack) (scope : Scope) :
    List Source → Except CompileError (List (Option ValuesTable)) × Scope
  | [] => (.ok [], scope)
  | source :: rest => match source.declare catalog (scope :: outer) with
    | .error e => (.error e, scope)
    | .ok (shape, table) => match scope.add source.name shape with
      | .error e => (.error (.binding e), scope)
      | .ok scope => match declareSources catalog outer scope rest with
        | (.ok tables, scope) => (.ok (table :: tables), scope)
        | (.error e, scope) => (.error e, scope)

/-! ### Expressions and queries -/

mutual

/-- Binds an expression. Aliases may be defined only at the outermost positions of a projection. -/
def Expr.bind (ctx : Context) (outermost : Bool) : Expr → BindM Expr
  | .literal v => return .literal v
  | .param p => return .param (← p.assign)
  | .field f => return .field (← BindM.ofExcept .binding (ctx.scopes.bindField f))
  | .binding r => do
    let (slot, _) ← BindM.ofExcept .binding (ctx.scopes.lookupBinding r.name)
    return .binding { r with slot := some slot }
  | .parentBinding r => do
    let (slot, _) ← BindM.ofExcept .binding (ctx.scopes.lookupParent r.name)
    return .parentBinding { r with slot := some slot }
  | .operator op operands => do
    BindM.ofExcept .invalid (checkOperands op operands)
    return .operator op (propagateTypes op (← bindAll ctx false operands))
  | .aggregate kind args distinct filter => do
    BindM.ofExcept .invalid (checkArguments kind args)
    let args ← bindAll ctx false args
    let filter ← bindOption ctx false filter
    return .aggregate kind args distinct filter
  | .fragment text parts args => do
    let processed ← BindM.ofExcept id (Fragment.process ⟨text, parts, args⟩)
    return .fragment text processed.parts (← bindArgs ctx args)
  | .cast value target _ => do
    let value ← value.bind ctx false
    BindM.ofExcept .cast (checkCastOperand value)
    let (target, type) ← BindM.ofExcept .cast (ctx.scopes.resolveType target)
    return .cast (value.withCastType type) target (some type)
  | .subquery kind query => return .subquery kind (← query.bind ctx)
  | .values table => do
    let table ← BindM.ofExcept id (table.check ctx.catalog ctx.scopes)
    return .values (← table.assign)
  | .projection kind p => return .projection kind (← p.bind ctx)
  | .merge left right => do
    let left ← left.bind ctx outermost
    let right ← right.bind ctx outermost
    return .merge left right
  | .aliased value name =>
    if outermost then return .aliased (← value.bind ctx false) name
    else throw (.aliasing (.notOutermost name))
  | .aliasRef name => do
    BindM.ofExcept .aliasing (ctx.aliases.require name)
    return .aliasRef name
  | .jsonPath base path => do
    let (base, steps) ← base.bindAccess ctx
    return .jsonPath base (steps ++ (← bindPath ctx path))
  | .interval count unit =>
    return .interval ((← count.bind ctx false).withType (.builtin .integer)) unit
  | .tuple items => return .tuple (← bindAll ctx outermost items)
  | .mapping entries => return .mapping (← bindEntries ctx outermost entries)

/--
Binds the field that nested paths start from, and the steps of all of them from the innermost path
outward.
-/
def Expr.bindAccess (ctx : Context) : Expr → BindM (Expr × List PathStep)
  | .jsonPath base path => do
    let (base, steps) ← base.bindAccess ctx
    return (base, steps ++ (← bindPath ctx path))
  | .field f => return (.field (← BindM.ofExcept .binding (ctx.scopes.bindField f)), [])
  | e => throw (.invalid (.jsonBase e.kindName))

def bindAll (ctx : Context) (outermost : Bool) : List Expr → BindM (List Expr)
  | [] => return []
  | e :: rest => do
    let e ← e.bind ctx outermost
    return e :: (← bindAll ctx outermost rest)

def bindEntries (ctx : Context) (outermost : Bool) :
    List (String × Expr) → BindM (List (String × Expr))
  | [] => return []
  | (key, e) :: rest => do
    let e ← e.bind ctx outermost
    return (key, e) :: (← bindEntries ctx outermost rest)

def bindOption (ctx : Context) (outermost : Bool) : Option Expr → BindM (Option Expr)
  | none => return none
  | some e => return some (← e.bind ctx outermost)

/-- Binds the arguments of a fragment whose arguments are not faulty. -/
def bindArgs (ctx : Context) : List FragmentArg → BindM (List FragmentArg)
  | [] => return []
  | .mk .parameter e :: rest => do
    let e ← e.bind ctx false
    return .mk .parameter e :: (← bindArgs ctx rest)
  | arg :: rest => do
    let arg ← arg.inlined.assign
    return arg :: (← bindArgs ctx rest)

def bindPath (ctx : Context) : List PathStep → BindM (List PathStep)
  | [] => return []
  | .computed e :: rest => do
    let e ← e.bind ctx false
    return .computed e :: (← bindPath ctx rest)
  | .key k :: rest => return .key k :: (← bindPath ctx rest)
  | .index i :: rest => return .index i :: (← bindPath ctx rest)

/-- Binds the filters of a query; where that is asked for, none of them may contain an aggregate. -/
def bindWheres (ctx : Context) : List Expr → BindM (List Expr)
  | [] => return []
  | e :: rest => do
    if ctx.config.rejectAggregatesInWhere && e.containsAggregate then
      throw (.invalid .aggregateInWhere)
    let e ← e.bind ctx false
    return e :: (← bindWheres ctx rest)

def bindTerms (ctx : Context) : List OrderTerm → BindM (List OrderTerm)
  | [] => return []
  | .mk e direction :: rest => do
    let e ← e.bind ctx false
    return .mk e direction :: (← bindTerms ctx rest)

/--
Binds what a source carries. The table of a values source has been validated when the source was
declared.
-/
def Source.bind (ctx : Context) (validated : Option ValuesTable) : Source → BindM Source
  | .mk (.values table) name => return .mk (.values (← (validated.getD table).assign)) name
  | .mk (.subquery query) name => return .mk (.subquery (← query.bind ctx)) name
  | .mk (.fragment e) name =>
    if e.isFragment then return .mk (.fragment (← e.bind ctx false)) name
    else throw (.invalid (.fragmentSource e.kindName))
  | .mk (.schema schema) name => return .mk (.schema schema) name
  | .mk (.table table) name => return .mk (.table table) name

def bindJoins (ctx : Context) (validated : List (Option ValuesTable)) :
    List Join → BindM (List Join)
  | [] => return []
  | .mk kind source on :: rest => do
    let source ← source.bind ctx validated.head?.join
    let on ← bindOption ctx false on
    return .mk kind source on :: (← bindJoins ctx validated.tail rest)

/-- Binds a query and every query inside it. -/
def Query.bind (ctx : Context) : Query → BindM Query
  | .mk source joins wheres select groupBy having orderBy limit offset distinct =>
    let depth := ctx.scopes.length
    if ctx.config.maxSubqueryDepth < depth then
      throw (.binding (.nestingTooDeep ctx.config.maxSubqueryDepth))
    else do
      BindM.note (.enteredScope (depth + 1))
      let (declared, scope) :=
        declareSources ctx.catalog ctx.scopes .empty (source :: joins.map Join.source)
      BindM.finallyNote (.leftScope depth scope.size) do
        let validated ← BindM.ofExcept id declared
        let aliases ← BindM.ofExcept .aliasing
          (AliasTable.collect select ctx.config.allowIdenticalAliases)
        BindM.note (.collectedAliases aliases.names)
        let ctx := { ctx with scopes := scope :: ctx.scopes, aliases := aliases }
        let select ← bindOption ctx true select
        let source ← source.bind ctx validated.head?.join
        let joins ← bindJoins ctx validated.tail joins
        let wheres ← bindWheres ctx wheres
        let groupBy ← bindAll ctx false groupBy
        let having ← bindAll ctx false having
        let orderBy ← bindTerms ctx orderBy
        let limit ← bindOption ctx false limit
        let offset ← bindOption ctx false offset
        BindM.noteAll ((select.map Expr.normalizeNotes).getD [])
        BindM.note (.boundQuery (depth + 1) (joins.length + 1) (← get).nextParam)
        return .mk source joins wheres (select.map Expr.normalize) groupBy having orderBy
          (limit.map (Expr.withType (.builtin .integer)))
          (offset.map (Expr.withType (.builtin .integer))) distinct

end

end QueryCompiler
