import QueryCompiler.Proofs.Binding.Steps
import QueryCompiler.Proofs.Stacks.Binder

/-!
# Binding on stacks agrees with binding in a context

Whatever the stacks are, binding on them does what binding does in the context that they give, and
ends with the stacks as they were. The sources of a query that is open stand on top of the stack as
far as they have been declared, and nothing below the top is touched.
-/

namespace QueryCompiler

/-- The outcome of a step of binding while some queries are open. -/
def BindM.withStacks {α : Type} (scopes : ScopeStack) (aliases : List AliasTable) :
    EStateM.Result CompileError BindState α → EStateM.Result CompileError Binder α
  | .ok a s => .ok a ⟨s, scopes, aliases⟩
  | .error e s => .error e ⟨s, scopes, aliases⟩

open BindM (withStacks)

namespace BinderM

variable {α β : Type} {scopes : ScopeStack} {aliases : List AliasTable}

/-- While some queries are open, a step on stacks does what another step does without them. -/
def Agrees (scopes : ScopeStack) (aliases : List AliasTable) (m : BinderM α) (n : BindM α) : Prop :=
  ∀ s, m ⟨s, scopes, aliases⟩ = withStacks scopes aliases (n s)

namespace Agrees

theorem pure (a : α) : Agrees scopes aliases (pure a) (pure a) := fun _ => rfl

theorem throw (e : CompileError) :
    Agrees scopes aliases (throw e : BinderM α) (throw e : BindM α) := fun _ => rfl

theorem lift (m : BindM α) : Agrees scopes aliases (BinderM.lift m) m := by
  intro s
  rw [BinderM.lift]
  cases m s <;> rfl

theorem bind {m : BinderM α} {n : BindM α} {k : α → BinderM β} {l : α → BindM β}
    (hm : Agrees scopes aliases m n) (hk : ∀ a, Agrees scopes aliases (k a) (l a)) :
    Agrees scopes aliases (m >>= k) (n >>= l) := by
  intro s
  change EStateM.bind m k _ = withStacks scopes aliases (EStateM.bind n l s)
  rw [EStateM.bind, EStateM.bind, hm s]
  cases n s with
  | ok a t => exact hk a t
  | error e t => rfl

theorem ifDeeper {limit : Nat} {m m' : BinderM α} {n n' : BindM α}
    (h : Agrees scopes aliases m n) (h' : Agrees scopes aliases m' n') :
    Agrees scopes aliases (do if limit < (← get).scopes.length then m else m')
      (if limit < scopes.length then n else n') := by
  intro s
  change (if limit < scopes.length then m else m') ⟨s, scopes, aliases⟩ = _
  split
  · exact h s
  · exact h' s

theorem reading (f : ScopeStack → BindM α) :
    Agrees scopes aliases (BinderM.reading f) (f scopes) := by
  intro s
  exact lift (f scopes) s

theorem requireAlias (name : String) :
    Agrees scopes aliases (BinderM.requireAlias name)
      (BindM.ofExcept .aliasing ((aliases.head?.getD (.empty false)).require name)) := by
  cases aliases with
  | nil => exact fun _ => rfl
  | cons table rest => exact fun s => lift (BindM.ofExcept .aliasing (table.require name)) s

/-- A query that is entered and left again by both. -/
theorem framed {m : BinderM α} {n : BindM α} {scope : Scope}
    (h : ∀ s, ∃ table, m ⟨s, .empty :: scopes, .empty false :: aliases⟩ =
      withStacks (scope :: scopes) (table :: aliases) (n s)) :
    Agrees scopes aliases (do pushScope; pushAliases; finallyPop m)
      (do
        BindM.note (.enteredScope (scopes.length + 1))
        BindM.finallyNote (.leftScope scopes.length scope.size) n) := by
  intro s
  obtain ⟨table, hm⟩ := h (s.note (.enteredScope (scopes.length + 1)))
  change finallyPop m ⟨s.note (.enteredScope (scopes.length + 1)), .empty :: scopes,
      .empty false :: aliases⟩ = withStacks scopes aliases
    (BindM.finallyNote (.leftScope scopes.length scope.size) n
      (s.note (.enteredScope (scopes.length + 1))))
  rw [finallyPop, BindM.finallyNote, hm]
  cases n (s.note (.enteredScope (scopes.length + 1))) <;> rfl

end Agrees

/-- A step that is only taken where a condition does not forbid it. -/
theorem agrees_guarded {m : BinderM α} {n : BindM α}
    (h : Agrees scopes aliases m n) (c : Bool) (e : CompileError) :
    Agrees scopes aliases (if c then (do throw e; m) else m)
      (if c then (do throw e; n) else n) := by
  cases c with
  | false => exact h
  | true => exact (Agrees.throw (α := PUnit) e).bind fun _ => h

/-! ### Declared sources -/

theorem bind_apply (m : BinderM α) (k : α → BinderM β) (b : Binder) :
    (m >>= k) b = match m b with
      | .ok a b => k a b
      | .error e b => .error e b := by
  change EStateM.bind m k b = _
  rw [EStateM.bind]
  cases m b <;> rfl

theorem addSource_eq (s : BindState) (scope : Scope) (outer : ScopeStack)
    (aliases : List AliasTable) (name : Option String) (shape : SourceShape) :
    addSource name shape ⟨s, scope :: outer, aliases⟩ = match scope.add name shape with
      | .ok next => .ok () ⟨s, next :: outer, aliases⟩
      | .error e => .error (.binding e) ⟨s, scope :: outer, aliases⟩ := rfl

theorem declareSource_eq (catalog : Catalog) (s : BindState) (scope : Scope) (outer : ScopeStack)
    (aliases : List AliasTable) (source : Source) :
    declareSource catalog source ⟨s, scope :: outer, aliases⟩ =
      match source.declare catalog (scope :: outer) with
      | .error e => .error e ⟨s, scope :: outer, aliases⟩
      | .ok (shape, table) => match scope.add source.name shape with
        | .error e => .error (.binding e) ⟨s, scope :: outer, aliases⟩
        | .ok next => .ok table ⟨s, next :: outer, aliases⟩ := by
  have hagrees : Agrees (scope :: outer) aliases
      (reading fun scopes => BindM.ofExcept id (source.declare catalog scopes))
      (BindM.ofExcept id (source.declare catalog (scope :: outer))) := .reading _
  have hdeclare := hagrees s
  rw [declareSource, bind_apply, hdeclare]
  cases source.declare catalog (scope :: outer) with
  | error e => rfl
  | ok found =>
    obtain ⟨shape, table⟩ := found
    change (addSource source.name shape >>= fun _ => pure table) ⟨s, scope :: outer, aliases⟩ = _
    rw [bind_apply, addSource_eq]
    dsimp only
    cases scope.add source.name shape <;> rfl

/-- Declaring sources changes the scope on top, also if one of them is refused. -/
theorem declareAll_eq (catalog : Catalog) (s : BindState) (scope : Scope) (outer : ScopeStack)
    (aliases : List AliasTable) (sources : List Source) :
    declareAll catalog sources ⟨s, scope :: outer, aliases⟩ =
      match declareSources catalog outer scope sources with
      | (.ok tables, scope) => .ok tables ⟨s, scope :: outer, aliases⟩
      | (.error e, scope) => .error e ⟨s, scope :: outer, aliases⟩ := by
  induction sources generalizing scope with
  | nil => rfl
  | cons source rest ih =>
    rw [declareAll, declareSources, bind_apply, declareSource_eq]
    cases source.declare catalog (scope :: outer) with
    | error e => rfl
    | ok found =>
      obtain ⟨shape, table⟩ := found
      dsimp only
      cases scope.add source.name shape with
      | error e => rfl
      | ok next =>
        dsimp only
        rw [bind_apply, ih next]
        cases declareSources catalog outer next rest with
        | mk declared last => cases declared <;> rfl

/--
What a query does after it has been entered: its sources are declared, its aliases collected, and
with these on top the rest agrees.
-/
theorem exists_opened (catalog : Catalog) (allow : Bool) (sources : List Source)
    (select : Option Expr) {k : List (Option ValuesTable) → AliasTable → BinderM α}
    {l : List (Option ValuesTable) → AliasTable → BindM α}
    (hrest : ∀ tables table,
      Agrees ((declareSources catalog scopes .empty sources).2 :: scopes) (table :: aliases)
        (k tables table) (l tables table)) (s : BindState) :
    ∃ table, (do
        let tables ← declareAll catalog sources
        let table ← lift (BindM.ofExcept .aliasing (AliasTable.collect select allow))
        lift (BindM.note (.collectedAliases table.names))
        setAliases table
        k tables table : BinderM α) ⟨s, .empty :: scopes, .empty false :: aliases⟩ =
      withStacks ((declareSources catalog scopes .empty sources).2 :: scopes) (table :: aliases)
        ((do
          let tables ← BindM.ofExcept id (declareSources catalog scopes .empty sources).1
          let table ← BindM.ofExcept .aliasing (AliasTable.collect select allow)
          BindM.note (.collectedAliases table.names)
          l tables table : BindM α) s) := by
  rw [bind_apply, declareAll_eq]
  generalize declareSources catalog scopes .empty sources = declared at hrest ⊢
  obtain ⟨tables, scope⟩ := declared
  cases tables with
  | error e => exact ⟨.empty false, rfl⟩
  | ok tables =>
    cases hcollect : AliasTable.collect select allow with
    | error e => exact ⟨.empty false, rfl⟩
    | ok table => exact ⟨table, hrest tables table (s.note (.collectedAliases table.names))⟩

namespace Agrees

theorem boundQuery {scope : Scope} {sources : Nat} {m : BinderM α} {n : BindM α}
    (h : Agrees (scope :: scopes) aliases m n) :
    Agrees (scope :: scopes) aliases
      (do
        let b ← get
        BinderM.lift (BindM.note (.boundQuery b.scopes.length sources b.nextParam))
        m)
      (do
        BindM.note (.boundQuery (scopes.length + 1) sources (← get).nextParam)
        n) :=
  fun s => h (s.note (.boundQuery (scopes.length + 1) sources s.nextParam))

end Agrees

end BinderM

/-! ### The tree -/

/-- The place of an expression while these queries are open. -/
def Context.ofStacks (catalog : Catalog) (config : Config) (scopes : ScopeStack)
    (aliases : List AliasTable) : Context :=
  ⟨catalog, config, scopes, aliases.head?.getD (.empty false)⟩

open BinderM

variable {catalog : Catalog} {config : Config}

theorem Projection.bindOn_agrees {scopes : ScopeStack} {aliases : List AliasTable}
    (p : Projection) :
    Agrees scopes aliases (p.bindOn catalog)
      (p.bind (.ofStacks catalog config scopes aliases)) := by
  refine (Agrees.reading _).bind fun found => ?_
  obtain ⟨slot, source⟩ := found
  dsimp only
  cases source.shape with
  | schema schema => exact (Agrees.lift _).bind fun _ => .pure _
  | schemaless _ | values _ | untyped => exact .pure _

mutual

theorem Expr.bindOn_agrees {scopes : ScopeStack} {aliases : List AliasTable} (o : Bool) (e : Expr) :
    Agrees scopes aliases (e.bindOn catalog config o)
      (e.bind (.ofStacks catalog config scopes aliases) o) := by
  match e with
  | .literal v => exact .pure _
  | .param p => exact (Agrees.lift _).bind fun _ => .pure _
  | .field f => exact (Agrees.reading _).bind fun _ => .pure _
  | .binding r => exact (Agrees.reading _).bind fun _ => .pure _
  | .parentBinding r => exact (Agrees.reading _).bind fun _ => .pure _
  | .operator op operands =>
    exact (Agrees.lift _).bind fun _ =>
      (bindAllOn_agrees false operands).bind fun _ => .pure _
  | .aggregate kind args distinct filter =>
    exact (Agrees.lift _).bind fun _ =>
      (bindAllOn_agrees false args).bind fun _ =>
        (bindOptionOn_agrees false filter).bind fun _ => .pure _
  | .fragment text parts args =>
    exact (Agrees.lift _).bind fun _ =>
      (bindArgsOn_agrees args).bind fun _ => .pure _
  | .cast value target resolved =>
    exact (Expr.bindOn_agrees false value).bind fun _ =>
      (Agrees.lift _).bind fun _ => (Agrees.reading _).bind fun _ => .pure _
  | .subquery kind query =>
    exact (Query.bindOn_agrees query).bind fun _ => .pure _
  | .values table =>
    exact (Agrees.reading _).bind fun _ => (Agrees.lift _).bind fun _ => .pure _
  | .projection kind p =>
    exact (Projection.bindOn_agrees p).bind fun _ => .pure _
  | .merge left right =>
    exact (Expr.bindOn_agrees o left).bind fun _ =>
      (Expr.bindOn_agrees o right).bind fun _ => .pure _
  | .aliased value name =>
    cases o with
    | false => exact .throw _
    | true => exact (Expr.bindOn_agrees false value).bind fun _ => .pure _
  | .aliasRef name => exact (Agrees.requireAlias name).bind fun _ => .pure _
  | .jsonPath base path =>
    exact (Expr.bindAccessOn_agrees base).bind fun _ =>
      (bindPathOn_agrees path).bind fun _ => .pure _
  | .interval count unit =>
    exact (Expr.bindOn_agrees false count).bind fun _ => .pure _
  | .tuple items => exact (bindAllOn_agrees o items).bind fun _ => .pure _
  | .mapping entries => exact (bindEntriesOn_agrees o entries).bind fun _ => .pure _
termination_by structural e

theorem Expr.bindAccessOn_agrees {scopes : ScopeStack} {aliases : List AliasTable} (e : Expr) :
    Agrees scopes aliases (e.bindAccessOn catalog config)
      (e.bindAccess (.ofStacks catalog config scopes aliases)) := by
  match e with
  | .field f => exact (Agrees.reading _).bind fun _ => .pure _
  | .jsonPath base path =>
    exact (Expr.bindAccessOn_agrees base).bind fun _ =>
      (bindPathOn_agrees path).bind fun _ => .pure _
  | .literal _ | .param _ | .binding _ | .parentBinding _ | .operator _ _ | .aggregate _ _ _ _
  | .fragment _ _ _ | .cast _ _ _ | .subquery _ _ | .values _ | .projection _ _ | .merge _ _
  | .aliased _ _ | .aliasRef _ | .interval _ _ | .tuple _ | .mapping _ => exact .throw _
termination_by structural e

theorem bindAllOn_agrees {scopes : ScopeStack} {aliases : List AliasTable}
    (o : Bool) (es : List Expr) :
    Agrees scopes aliases (bindAllOn catalog config o es)
      (bindAll (.ofStacks catalog config scopes aliases) o es) := by
  match es with
  | [] => exact .pure _
  | e :: rest =>
    exact (Expr.bindOn_agrees o e).bind fun _ =>
      (bindAllOn_agrees o rest).bind fun _ => .pure _
termination_by structural es

theorem bindEntriesOn_agrees {scopes : ScopeStack} {aliases : List AliasTable}
    (o : Bool) (entries : List (String × Expr)) :
    Agrees scopes aliases (bindEntriesOn catalog config o entries)
      (bindEntries (.ofStacks catalog config scopes aliases) o entries) := by
  match entries with
  | [] => exact .pure _
  | (key, e) :: rest =>
    exact (Expr.bindOn_agrees o e).bind fun _ =>
      (bindEntriesOn_agrees o rest).bind fun _ => .pure _
termination_by structural entries

theorem bindOptionOn_agrees {scopes : ScopeStack} {aliases : List AliasTable}
    (o : Bool) (e : Option Expr) :
    Agrees scopes aliases (bindOptionOn catalog config o e)
      (bindOption (.ofStacks catalog config scopes aliases) o e) := by
  match e with
  | none => exact .pure _
  | some e => exact (Expr.bindOn_agrees o e).bind fun _ => .pure _
termination_by structural e

theorem bindArgsOn_agrees {scopes : ScopeStack} {aliases : List AliasTable}
    (args : List FragmentArg) :
    Agrees scopes aliases (bindArgsOn catalog config args)
      (bindArgs (.ofStacks catalog config scopes aliases) args) := by
  match args with
  | [] => exact .pure _
  | .mk .parameter e :: rest =>
    exact (Expr.bindOn_agrees false e).bind fun _ =>
      (bindArgsOn_agrees rest).bind fun _ => .pure _
  | .mk .identifier e :: rest | .mk .constant e :: rest | .mk .splice e :: rest =>
    exact (Agrees.lift _).bind fun _ =>
      (bindArgsOn_agrees rest).bind fun _ => .pure _
termination_by structural args

theorem bindPathOn_agrees {scopes : ScopeStack} {aliases : List AliasTable} (path : List PathStep) :
    Agrees scopes aliases (bindPathOn catalog config path)
      (bindPath (.ofStacks catalog config scopes aliases) path) := by
  match path with
  | [] => exact .pure _
  | .computed e :: rest =>
    exact (Expr.bindOn_agrees false e).bind fun _ =>
      (bindPathOn_agrees rest).bind fun _ => .pure _
  | .key name :: rest => exact (bindPathOn_agrees rest).bind fun _ => .pure _
  | .index i :: rest => exact (bindPathOn_agrees rest).bind fun _ => .pure _
termination_by structural path

theorem bindWheresOn_agrees {scopes : ScopeStack} {aliases : List AliasTable} (wheres : List Expr) :
    Agrees scopes aliases (bindWheresOn catalog config wheres)
      (bindWheres (.ofStacks catalog config scopes aliases) wheres) := by
  match wheres with
  | [] => exact .pure _
  | e :: rest =>
    have hrest : Agrees scopes aliases (do
        let e ← e.bindOn catalog config false
        return e :: (← bindWheresOn catalog config rest)) (do
        let e ← e.bind (.ofStacks catalog config scopes aliases) false
        return e :: (← bindWheres (.ofStacks catalog config scopes aliases) rest)) :=
      (Expr.bindOn_agrees false e).bind fun _ => (bindWheresOn_agrees rest).bind fun _ => .pure _
    rw [bindWheresOn, bindWheres]
    exact agrees_guarded hrest (config.rejectAggregatesInWhere && e.containsAggregate) _
termination_by structural wheres

theorem bindTermsOn_agrees {scopes : ScopeStack} {aliases : List AliasTable}
    (terms : List OrderTerm) :
    Agrees scopes aliases (bindTermsOn catalog config terms)
      (bindTerms (.ofStacks catalog config scopes aliases) terms) := by
  match terms with
  | [] => exact .pure _
  | .mk e direction :: rest =>
    exact (Expr.bindOn_agrees false e).bind fun _ =>
      (bindTermsOn_agrees rest).bind fun _ => .pure _
termination_by structural terms

theorem Source.bindOn_agrees {scopes : ScopeStack} {aliases : List AliasTable}
    (table : Option ValuesTable) (source : Source) :
    Agrees scopes aliases (source.bindOn catalog config table)
      (source.bind (.ofStacks catalog config scopes aliases) table) := by
  match source with
  | .mk (.values declared) name => exact (Agrees.lift _).bind fun _ => .pure _
  | .mk (.subquery query) name =>
    exact (Query.bindOn_agrees query).bind fun _ => .pure _
  | .mk (.fragment e) name =>
    rw [Source.bindOn, Source.bind]
    split
    · exact (Expr.bindOn_agrees false e).bind fun _ => .pure _
    · exact .throw _
  | .mk (.schema _) name => exact .pure _
  | .mk (.table _) name => exact .pure _
termination_by structural source

theorem bindJoinsOn_agrees {scopes : ScopeStack} {aliases : List AliasTable}
    (tables : List (Option ValuesTable)) (joins : List Join) :
    Agrees scopes aliases (bindJoinsOn catalog config tables joins)
      (bindJoins (.ofStacks catalog config scopes aliases) tables joins) := by
  match joins with
  | [] => exact .pure _
  | .mk kind source on :: rest =>
    exact (Source.bindOn_agrees _ source).bind fun _ =>
      (bindOptionOn_agrees false on).bind fun _ =>
        (bindJoinsOn_agrees _ rest).bind fun _ => .pure _
termination_by structural joins

/-- Binding a query on stacks is binding it in the context that the stacks give. -/
theorem Query.bindOn_agrees {scopes : ScopeStack} {aliases : List AliasTable} (query : Query) :
    Agrees scopes aliases (query.bindOn catalog config)
      (query.bind (.ofStacks catalog config scopes aliases)) := by
  match query with
  | .mk source joins wheres select groupBy having orderBy limit offset distinct =>
    rw [Query.bindOn, Query.bind]
    refine .ifDeeper (.throw _) (.framed (exists_opened catalog _ _ select fun tables table => ?_))
    refine (bindOptionOn_agrees true select).bind fun _ => ?_
    refine (Source.bindOn_agrees _ source).bind fun _ => ?_
    refine (bindJoinsOn_agrees _ joins).bind fun _ => ?_
    refine (bindWheresOn_agrees wheres).bind fun _ => ?_
    refine (bindAllOn_agrees false groupBy).bind fun _ => ?_
    refine (bindAllOn_agrees false having).bind fun _ => ?_
    refine (bindTermsOn_agrees orderBy).bind fun _ => ?_
    refine (bindOptionOn_agrees false limit).bind fun _ => ?_
    refine (bindOptionOn_agrees false offset).bind fun _ => ?_
    refine (Agrees.lift _).bind fun _ => ?_
    exact .boundQuery (.pure _)
termination_by structural query

end

end QueryCompiler
