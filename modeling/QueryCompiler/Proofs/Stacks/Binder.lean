import QueryCompiler.Binding

/-!
# Binding on stacks

Binding with the open queries as a part of the state: their scopes and their aliases lie on two
stacks. Entering a query pushes on both, declaring its sources changes the scope on top, and leaving
it pops both again, also after an error. What a step does without the stacks is said as for binding
in a context; the recursion through the tree is its own.
-/

namespace QueryCompiler

/-- A state of binding together with the open queries, the innermost first. -/
structure Binder extends BindState where
  scopes : ScopeStack
  aliases : List AliasTable

/-- A step of binding on stacks. -/
abbrev BinderM := EStateM CompileError Binder

def Binder.note (b : Binder) (event : Event) : Binder :=
  { b with toBindState := b.toBindState.note event }

namespace BinderM

variable {α : Type}

/-- A step that leaves the stacks alone. -/
def lift (m : BindM α) : BinderM α := fun b =>
  match m b.toBindState with
  | .ok a s => .ok a { b with toBindState := s }
  | .error e s => .error e { b with toBindState := s }

/-- A step that looks up something in the open queries. -/
def reading (f : ScopeStack → BindM α) : BinderM α := do
  lift (f (← get).scopes)

/-! ### The stacks -/

def pushScope : BinderM Unit := do
  modify fun b => { b with scopes := .empty :: b.scopes }
  modify fun b => b.note (.enteredScope b.scopes.length)

def pushAliases : BinderM Unit := modify fun b => { b with aliases := .empty false :: b.aliases }

end BinderM

def Binder.popScope (b : Binder) : Binder :=
  Binder.note { b with scopes := b.scopes.tail }
    (.leftScope b.scopes.tail.length ((b.scopes.head?.map Scope.size).getD 0))

def Binder.popAliases (b : Binder) : Binder := { b with aliases := b.aliases.tail }

namespace BinderM

variable {α : Type}

/-- Leaves a query after a step, however the step ends. -/
def finallyPop (step : BinderM α) : BinderM α := fun b =>
  match step b with
  | .ok a b => .ok a b.popAliases.popScope
  | .error e b => .error e b.popAliases.popScope

/-- Puts aliases in place of those on top. -/
def setAliases (table : AliasTable) : BinderM Unit :=
  modify fun b => match b.aliases with
    | [] => b
    | _ :: rest => { b with aliases := table :: rest }

/-- Adds a source to the scope on top. -/
def addSource (name : Option String) (shape : SourceShape) : BinderM Unit := fun b =>
  match b.scopes with
  | [] => .error (.invalid .sourceOutsideQuery) b
  | scope :: rest => match scope.add name shape with
    | .ok scope => .ok () { b with scopes := scope :: rest }
    | .error e => .error (.binding e) b

def declareSource (catalog : Catalog) (source : Source) : BinderM (Option ValuesTable) := do
  let (shape, table) ← reading fun scopes => BindM.ofExcept id (source.declare catalog scopes)
  addSource source.name shape
  return table

def declareAll (catalog : Catalog) : List Source → BinderM (List (Option ValuesTable))
  | [] => return []
  | source :: rest => do
    let table ← declareSource catalog source
    return table :: (← declareAll catalog rest)

/-- A reference to an alias is looked up in the aliases on top. -/
def requireAlias (name : String) : BinderM Unit := do
  match (← get).aliases with
  | [] => throw (.aliasing (.undefined name))
  | table :: _ => lift (BindM.ofExcept .aliasing (table.require name))

end BinderM

open BinderM

variable (catalog : Catalog) (config : Config)

def Projection.bindOn (p : Projection) : BinderM Projection := do
  let (slot, source) ← reading fun scopes => BindM.ofExcept .binding (scopes.resolve p.source)
  match source.shape with
  | .schema schema => lift (checkFieldSet catalog schema p.set)
  | _ => pure ()
  return { p with slot := some slot }

mutual

def Expr.bindOn (outermost : Bool) : Expr → BinderM Expr
  | .literal v => return .literal v
  | .param p => return .param (← lift p.assign)
  | .field f =>
    return .field (← reading fun scopes => BindM.ofExcept .binding (scopes.bindField f))
  | .binding r => do
    let (slot, _) ← reading fun scopes => BindM.ofExcept .binding (scopes.lookupBinding r.name)
    return .binding { r with slot := some slot }
  | .parentBinding r => do
    let (slot, _) ← reading fun scopes => BindM.ofExcept .binding (scopes.lookupParent r.name)
    return .parentBinding { r with slot := some slot }
  | .operator op operands => do
    lift (BindM.ofExcept .invalid (checkOperands op operands))
    return .operator op (propagateTypes op (← bindAllOn false operands))
  | .aggregate kind args distinct filter => do
    lift (BindM.ofExcept .invalid (checkArguments kind args))
    let args ← bindAllOn false args
    let filter ← bindOptionOn false filter
    return .aggregate kind args distinct filter
  | .fragment text parts args => do
    let processed ← lift (BindM.ofExcept id (Fragment.process ⟨text, parts, args⟩))
    return .fragment text processed.parts (← bindArgsOn args)
  | .cast value target _ => do
    let value ← value.bindOn false
    lift (BindM.ofExcept .cast (checkCastOperand value))
    let (target, type) ← reading fun scopes => BindM.ofExcept .cast (scopes.resolveType target)
    return .cast (value.withCastType type) target (some type)
  | .subquery kind query => return .subquery kind (← query.bindOn)
  | .values table => do
    let table ← reading fun scopes => BindM.ofExcept id (table.check catalog scopes)
    return .values (← lift table.assign)
  | .projection kind p => return .projection kind (← p.bindOn catalog)
  | .merge left right => do
    let left ← left.bindOn outermost
    let right ← right.bindOn outermost
    return .merge left right
  | .aliased value name =>
    if outermost then return .aliased (← value.bindOn false) name
    else throw (.aliasing (.notOutermost name))
  | .aliasRef name => do
    requireAlias name
    return .aliasRef name
  | .jsonPath base path => do
    let (base, steps) ← base.bindAccessOn
    return .jsonPath base (steps ++ (← bindPathOn path))
  | .interval count unit =>
    return .interval ((← count.bindOn false).withType (.builtin .integer)) unit
  | .tuple items => return .tuple (← bindAllOn outermost items)
  | .mapping entries => return .mapping (← bindEntriesOn outermost entries)

def Expr.bindAccessOn : Expr → BinderM (Expr × List PathStep)
  | .jsonPath base path => do
    let (base, steps) ← base.bindAccessOn
    return (base, steps ++ (← bindPathOn path))
  | .field f => do
    return (.field (← reading fun scopes => BindM.ofExcept .binding (scopes.bindField f)), [])
  | e => throw (.invalid (.jsonBase e.kindName))

def bindAllOn (outermost : Bool) : List Expr → BinderM (List Expr)
  | [] => return []
  | e :: rest => do
    let e ← e.bindOn outermost
    return e :: (← bindAllOn outermost rest)

def bindEntriesOn (outermost : Bool) : List (String × Expr) → BinderM (List (String × Expr))
  | [] => return []
  | (key, e) :: rest => do
    let e ← e.bindOn outermost
    return (key, e) :: (← bindEntriesOn outermost rest)

def bindOptionOn (outermost : Bool) : Option Expr → BinderM (Option Expr)
  | none => return none
  | some e => return some (← e.bindOn outermost)

def bindArgsOn : List FragmentArg → BinderM (List FragmentArg)
  | [] => return []
  | .mk .parameter e :: rest => do
    let e ← e.bindOn false
    return .mk .parameter e :: (← bindArgsOn rest)
  | arg :: rest => do
    let arg ← lift arg.inlined.assign
    return arg :: (← bindArgsOn rest)

def bindPathOn : List PathStep → BinderM (List PathStep)
  | [] => return []
  | .computed e :: rest => do
    let e ← e.bindOn false
    return .computed e :: (← bindPathOn rest)
  | .key k :: rest => return .key k :: (← bindPathOn rest)
  | .index i :: rest => return .index i :: (← bindPathOn rest)

def bindWheresOn : List Expr → BinderM (List Expr)
  | [] => return []
  | e :: rest => do
    if config.rejectAggregatesInWhere && e.containsAggregate then
      throw (.invalid .aggregateInWhere)
    let e ← e.bindOn false
    return e :: (← bindWheresOn rest)

def bindTermsOn : List OrderTerm → BinderM (List OrderTerm)
  | [] => return []
  | .mk e direction :: rest => do
    let e ← e.bindOn false
    return .mk e direction :: (← bindTermsOn rest)

def Source.bindOn (validated : Option ValuesTable) : Source → BinderM Source
  | .mk (.values table) name =>
    return .mk (.values (← lift (validated.getD table).assign)) name
  | .mk (.subquery query) name => return .mk (.subquery (← query.bindOn)) name
  | .mk (.fragment e) name =>
    if e.isFragment then return .mk (.fragment (← e.bindOn false)) name
    else throw (.invalid (.fragmentSource e.kindName))
  | .mk (.schema schema) name => return .mk (.schema schema) name
  | .mk (.table table) name => return .mk (.table table) name

def bindJoinsOn (validated : List (Option ValuesTable)) : List Join → BinderM (List Join)
  | [] => return []
  | .mk kind source on :: rest => do
    let source ← source.bindOn validated.head?.join
    let on ← bindOptionOn false on
    return .mk kind source on :: (← bindJoinsOn validated.tail rest)

/-- Binds a query and every query inside it, on the stacks. -/
def Query.bindOn : Query → BinderM Query
  | .mk source joins wheres select groupBy having orderBy limit offset distinct => do
    if config.maxSubqueryDepth < (← get).scopes.length then
      throw (.binding (.nestingTooDeep config.maxSubqueryDepth))
    else do
      pushScope
      pushAliases
      finallyPop do
        let validated ← declareAll catalog (source :: joins.map Join.source)
        let aliases ← lift (BindM.ofExcept .aliasing
          (AliasTable.collect select config.allowIdenticalAliases))
        lift (BindM.note (.collectedAliases aliases.names))
        setAliases aliases
        let select ← bindOptionOn true select
        let source ← source.bindOn validated.head?.join
        let joins ← bindJoinsOn validated.tail joins
        let wheres ← bindWheresOn wheres
        let groupBy ← bindAllOn false groupBy
        let having ← bindAllOn false having
        let orderBy ← bindTermsOn orderBy
        let limit ← bindOptionOn false limit
        let offset ← bindOptionOn false offset
        lift (BindM.noteAll ((select.map Expr.normalizeNotes).getD []))
        let b ← get
        lift (BindM.note (.boundQuery b.scopes.length (joins.length + 1) b.nextParam))
        return .mk source joins wheres (select.map Expr.normalize) groupBy having orderBy
          (limit.map (Expr.withType (.builtin .integer)))
          (offset.map (Expr.withType (.builtin .integer))) distinct

end

end QueryCompiler
