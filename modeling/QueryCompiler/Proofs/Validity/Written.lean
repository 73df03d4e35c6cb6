import Mathlib.Data.List.Forall2
import QueryCompiler.Proofs.Sites

/-!
# Written projections and casts

What a reference means in a query as it is written can be told from the queries around it alone:
names are looked up from the innermost query outward. Where a query is bound without an error, every
projection in it has been checked against the schema of the source that it means, and the target of
every cast in it has been resolved.
-/

namespace QueryCompiler

variable {catalog : Catalog}

/-! ### What a reference means -/

/-- The source of that name in a query. -/
def Query.named? (query : Query) (name : String) : Option Source :=
  query.sources.find? fun source => source.name == some name

/-- The source that a reference means in the first of some nested queries. -/
def SourceRef.source? (queries : List Query) : SourceRef → Option Source
  | .position i => queries.head?.bind fun query => query.sources[i]?
  | .binding name => queries.findSome? fun query => query.named? name
  | .parentBinding name => queries[1]?.bind fun query => query.named? name

/-- A source of a scope that was declared by a source of a query. -/
def BoundSource.Shows (catalog : Catalog) (bound : BoundSource) (source : Source) : Prop :=
  bound.name = source.name ∧
    ∃ scopes table, source.declare catalog scopes = .ok (bound.shape, table)

/-- A scope with the sources of a query as they are written. -/
def Scope.Shows (catalog : Catalog) (scope : Scope) (query : Query) : Prop :=
  List.Forall₂ (BoundSource.Shows catalog) scope.sources query.sources

theorem shows_added_of_declareSources {outer : ScopeStack} {scope scope' : Scope}
    {sources : List Source} {tables : List (Option ValuesTable)}
    (h : declareSources catalog outer scope sources = (.ok tables, scope')) :
    ∃ added, scope'.sources = scope.sources ++ added ∧
      List.Forall₂ (BoundSource.Shows catalog) added sources := by
  induction sources generalizing scope tables with
  | nil =>
    cases h
    exact ⟨[], (List.append_nil _).symm, .nil⟩
  | cons source rest ih =>
    obtain ⟨shape, table, next, tables', hdeclare, hadd, hrest, -⟩ :=
      declareSources_cons_eq_ok.1 h
    obtain ⟨-, rfl⟩ := add_eq_ok.1 hadd
    obtain ⟨added, hsources, hshows⟩ := ih hrest
    refine ⟨⟨scope.sources.length, source.name, shape⟩ :: added, ?_, ?_⟩
    · rw [hsources, List.append_assoc, List.singleton_append]
    · exact .cons ⟨rfl, _, table, hdeclare⟩ hshows

theorem Scope.shows_of_declareSources {outer : ScopeStack} {scope : Scope} {query : Query}
    {tables : List (Option ValuesTable)}
    (h : declareSources catalog outer .empty query.sources = (.ok tables, scope)) :
    scope.Shows catalog query := by
  obtain ⟨added, hsources, hshows⟩ := shows_added_of_declareSources h
  rw [Scope.Shows, hsources]
  exact hshows

/-- Of sources that correspond one by one, the first ones of a name do. -/
theorem Scope.Shows.lookup {scope : Scope} {query : Query} (h : scope.Shows catalog query)
    (name : String) :
    Option.Rel (BoundSource.Shows catalog) (scope.lookup name) (query.named? name) := by
  rw [Scope.Shows] at h
  rw [Scope.lookup, Query.named?]
  generalize scope.sources = bounds, query.sources = sources at h ⊢
  induction h with
  | nil => exact .none
  | cons hfirst _ ih =>
    rw [List.find?_cons, List.find?_cons, hfirst.1]
    split
    · exact .some hfirst
    · exact ih

theorem Scope.Shows.getElem? {scope : Scope} {query : Query} (h : scope.Shows catalog query)
    (i : Nat) : Option.Rel (BoundSource.Shows catalog) scope.sources[i]? query.sources[i]? := by
  rw [Scope.Shows] at h
  generalize scope.sources = bounds, query.sources = sources at h ⊢
  induction h generalizing i with
  | nil => exact .none
  | cons hfirst _ ih =>
    cases i with
    | zero => exact .some hfirst
    | succ i => simpa using ih i

theorem exists_rel_of_some {α β : Type} {R : α → β → Prop} {a : Option α} {b : Option β}
    (h : Option.Rel R a b) {x : α} (ha : a = some x) : ∃ y, b = some y ∧ R x y := by
  subst ha
  cases h with
  | some hxy => exact ⟨_, rfl, hxy⟩

/-- The first scope with a source of a name belongs to the first query with one. -/
theorem findBinding_shows {scopes : ScopeStack} {queries : List Query}
    (h : List.Forall₂ (Scope.Shows catalog) scopes queries) (name : String) (level : Nat) :
    Option.Rel (fun found source => found.2.Shows catalog source)
      (ScopeStack.findBinding name level scopes)
      (queries.findSome? fun query => query.named? name) := by
  induction h generalizing level with
  | nil => exact .none
  | @cons scope query _ _ hfirst _ ih =>
    have hlookup := hfirst.lookup name
    rw [ScopeStack.findBinding, List.findSome?_cons]
    generalize scope.lookup name = found, query.named? name = named at hlookup ⊢
    cases hlookup with
    | none => exact ih (level + 1)
    | some hshows => exact .some hshows

/-- A reference resolves in the scopes of some queries to the source that it means there. -/
theorem resolve_shows {scopes : ScopeStack} {queries : List Query}
    (h : List.Forall₂ (Scope.Shows catalog) scopes queries) (ref : SourceRef) :
    Option.Rel (fun found source => found.2.Shows catalog source)
      (scopes.resolve ref).toOption (ref.source? queries) := by
  cases ref with
  | position i =>
    cases h with
    | nil => exact .none
    | @cons scope query _ _ hfirst _ =>
      have hsource := hfirst.getElem? i
      rw [ScopeStack.resolve, ScopeStack.lookupPosition, Scope.source?, SourceRef.source?,
        List.head?_cons, Option.bind_some]
      generalize scope.sources[i]? = found, query.sources[i]? = source at hsource ⊢
      cases hsource with
      | none => exact .none
      | some hshows => exact .some hshows
  | binding name =>
    have hfound := findBinding_shows h name 0
    rw [ScopeStack.resolve, ScopeStack.lookupBinding, SourceRef.source?]
    generalize ScopeStack.findBinding name 0 scopes = found,
      (queries.findSome? fun query => query.named? name) = source at hfound ⊢
    cases hfound with
    | none => exact .none
    | some hshows => exact .some hshows
  | parentBinding name =>
    cases h with
    | nil => exact .none
    | cons _ hrest =>
      cases hrest with
      | nil => exact .none
      | @cons parent query _ _ hparent _ =>
        have hlookup := hparent.lookup name
        rw [ScopeStack.resolve, ScopeStack.lookupParent, SourceRef.source?,
          List.getElem?_cons_succ, List.getElem?_cons_zero, Option.bind_some]
        generalize parent.lookup name = found, query.named? name = source at hlookup ⊢
        cases hlookup with
        | none => exact .none
        | some hshows => exact .some hshows

theorem source?_of_resolve {scopes : ScopeStack} {queries : List Query}
    (h : List.Forall₂ (Scope.Shows catalog) scopes queries) {ref : SourceRef} {slot : Slot}
    {bound : BoundSource} (hresolve : scopes.resolve ref = .ok (slot, bound)) :
    ∃ source, ref.source? queries = some source ∧ bound.Shows catalog source :=
  exists_rel_of_some (resolve_shows h ref) (congrArg Except.toOption hresolve)

theorem resolve_of_source? {scopes : ScopeStack} {queries : List Query}
    (h : List.Forall₂ (Scope.Shows catalog) scopes queries) {ref : SourceRef} {source : Source}
    (hsource : ref.source? queries = some source) :
    ∃ slot bound, scopes.resolve ref = .ok (slot, bound) ∧ bound.Shows catalog source := by
  have hrel := resolve_shows h ref
  rw [hsource] at hrel
  cases hresolve : scopes.resolve ref with
  | error e =>
    rw [hresolve] at hrel
    cases hrel
  | ok found =>
    rw [hresolve] at hrel
    cases hrel with
    | some hshows => exact ⟨found.1, found.2, rfl, hshows⟩

/-! ### Checked projections and casts -/

/-- If a source is of a schema, the schema is registered and has all that the field set names. -/
def Source.Admits (catalog : Catalog) (source : Source) (set : FieldSet) : Prop :=
  ∀ name, source.origin = .schema name →
    ∃ schema, catalog.get? name = some schema ∧ set.Valid catalog schema

theorem admits_of_declare {scopes : ScopeStack} {source : Source} {shape : SourceShape}
    {table : Option ValuesTable} (h : source.declare catalog scopes = .ok (shape, table))
    {set : FieldSet} (hset : ∀ schema, shape = .schema schema → set.Valid catalog schema) :
    source.Admits catalog set := by
  obtain ⟨_, name⟩ := source
  rintro reference rfl
  rw [Source.declare] at h
  split at h
  · rename_i schema hschema
    cases h
    exact ⟨schema, hschema, hset schema rfl⟩
  · cases h

/--
A projection asks its source, whichever it means here, only for what there is, and the target of a
cast resolves in the scopes of the queries.
-/
def Part.Checked (catalog : Catalog) (queries : List Query) : Part → Prop
  | .expr (.projection _ p) => ∀ source, p.source.source? queries = some source →
      source.Admits catalog p.set
  | .expr (.cast _ target _) => ∃ (scopes : ScopeStack) (found : TypeRef × ResolvedType),
      List.Forall₂ (Scope.Shows catalog) scopes queries ∧ scopes.resolveType target = .ok found
  | _ => True

/-- All projections and casts among the parts that were found have been checked. -/
def AllChecked (catalog : Catalog) (found : List (List Query × Part)) : Prop :=
  ∀ site ∈ found, site.2.Checked catalog site.1

namespace AllChecked

variable {found found' : List (List Query × Part)}

theorem nil : AllChecked catalog [] := by
  simp [AllChecked]

theorem cons {queries : List Query} {part : Part} (h : part.Checked catalog queries)
    (h' : AllChecked catalog found) : AllChecked catalog ((queries, part) :: found) :=
  List.forall_mem_cons.2 ⟨h, h'⟩

theorem append (h : AllChecked catalog found) (h' : AllChecked catalog found') :
    AllChecked catalog (found ++ found') :=
  List.forall_mem_append.2 ⟨h, h'⟩

end AllChecked

theorem Projection.checked_bind {ctx : Context} {queries : List Query}
    (hshow : List.Forall₂ (Scope.Shows ctx.catalog) ctx.scopes queries) {kind : ProjectionKind}
    {p p' : Projection} {s s' : BindState} (h : p.bind ctx s = .ok p' s') :
    (Part.expr (.projection kind p)).Checked ctx.catalog queries := by
  obtain ⟨-, slot, bound, hresolve, hset, -⟩ := Projection.bind_eq_ok h
  obtain ⟨source, hmeant, -, _, _, hdeclare⟩ := source?_of_resolve hshow hresolve
  intro source' hmeant'
  rw [hmeant] at hmeant'
  cases hmeant'
  exact admits_of_declare hdeclare hset

theorem sites_of_value? {e : Expr} {v : Value} (h : e.value? = some v) {queries : List Query} :
    AllChecked catalog (e.sites queries) := by
  cases e with
  | literal _ | param _ => exact .cons trivial .nil
  | _ => cases h

mutual

theorem Expr.checked_bind {ctx : Context} {queries : List Query}
    (hshow : List.Forall₂ (Scope.Shows ctx.catalog) ctx.scopes queries) {o : Bool} {e e' : Expr}
    {s s' : BindState} (h : e.bind ctx o s = .ok e' s') :
    AllChecked ctx.catalog (e.sites queries) := by
  rw [Expr.sites.eq_def]
  match e with
  | .literal _ | .param _ | .field _ | .binding _ | .parentBinding _ | .aliasRef _ =>
    exact .cons trivial .nil
  | .values table => exact .cons trivial (.cons trivial .nil)
  | .projection kind p =>
    obtain ⟨_, hp, -⟩ := Expr.bind_projection.1 h
    exact .cons (Projection.checked_bind hshow hp) .nil
  | .operator op operands =>
    obtain ⟨-, _, hoperands, -⟩ := Expr.bind_operator.1 h
    exact .cons trivial (checked_bindAll hshow hoperands)
  | .aggregate kind args distinct filter =>
    obtain ⟨-, _, _, _, hargs, hfilter, -⟩ := Expr.bind_aggregate.1 h
    exact .cons trivial ((checked_bindAll hshow hargs).append (checked_bindOption hshow hfilter))
  | .fragment text parts args =>
    obtain ⟨_, _, hprocess, hargs, -⟩ := Expr.bind_fragment.1 h
    obtain ⟨-, hfault, -⟩ := process_eq_ok.1 hprocess
    exact .cons trivial (checked_bindArgs hshow (firstFault_eq_none.1 hfault) hargs)
  | .cast value target resolved =>
    obtain ⟨_, _, _, hvalue, -, htarget, -⟩ := Expr.bind_cast.1 h
    exact .cons ⟨ctx.scopes, _, hshow, htarget⟩ (Expr.checked_bind hshow hvalue)
  | .subquery kind query =>
    obtain ⟨_, hquery, -⟩ := Expr.bind_subquery.1 h
    exact .cons trivial (Query.checked_bind hshow hquery)
  | .merge left right =>
    obtain ⟨_, _, _, hleft, hright, -⟩ := Expr.bind_merge.1 h
    exact .cons trivial ((Expr.checked_bind hshow hleft).append (Expr.checked_bind hshow hright))
  | .aliased value name =>
    obtain ⟨-, _, hvalue, -⟩ := Expr.bind_aliased.1 h
    exact .cons trivial (Expr.checked_bind hshow hvalue)
  | .jsonPath base path =>
    obtain ⟨_, _, _, _, hbase, hpath, -⟩ := Expr.bind_jsonPath.1 h
    exact .cons trivial
      ((Expr.checked_bindAccess hshow hbase).append (checked_bindPath hshow hpath))
  | .interval count unit =>
    obtain ⟨_, hcount, -⟩ := Expr.bind_interval.1 h
    exact .cons trivial (Expr.checked_bind hshow hcount)
  | .tuple items =>
    obtain ⟨_, hitems, -⟩ := Expr.bind_tuple.1 h
    exact .cons trivial (checked_bindAll hshow hitems)
  | .mapping entries =>
    obtain ⟨_, hentries, -⟩ := Expr.bind_mapping.1 h
    exact .cons trivial (checked_bindEntries hshow hentries)
termination_by structural e

theorem Expr.checked_bindAccess {ctx : Context} {queries : List Query}
    (hshow : List.Forall₂ (Scope.Shows ctx.catalog) ctx.scopes queries) {e e' : Expr}
    {steps : List PathStep} {s s' : BindState} (h : e.bindAccess ctx s = .ok (e', steps) s') :
    AllChecked ctx.catalog (e.sites queries) := by
  rw [Expr.sites.eq_def]
  match e with
  | .field f => exact .cons trivial .nil
  | .jsonPath base path =>
    obtain ⟨_, _, _, _, hbase, hpath, -⟩ := Expr.bindAccess_jsonPath.1 h
    exact .cons trivial
      ((Expr.checked_bindAccess hshow hbase).append (checked_bindPath hshow hpath))
  | .literal _ | .param _ | .binding _ | .parentBinding _ | .operator _ _ | .aggregate _ _ _ _
  | .fragment _ _ _ | .cast _ _ _ | .subquery _ _ | .values _ | .projection _ _ | .merge _ _
  | .aliased _ _ | .aliasRef _ | .interval _ _ | .tuple _ | .mapping _ =>
    simp [Expr.bindAccess] at h
termination_by structural e

theorem checked_bindAll {ctx : Context} {queries : List Query}
    (hshow : List.Forall₂ (Scope.Shows ctx.catalog) ctx.scopes queries) {o : Bool}
    {es es' : List Expr} {s s' : BindState} (h : bindAll ctx o es s = .ok es' s') :
    AllChecked ctx.catalog (sitesAll queries es) := by
  match es with
  | [] => exact .nil
  | e :: rest =>
    obtain ⟨_, _, _, he, hrest, -⟩ := bindAll_cons.1 h
    exact (Expr.checked_bind hshow he).append (checked_bindAll hshow hrest)
termination_by structural es

theorem checked_bindEntries {ctx : Context} {queries : List Query}
    (hshow : List.Forall₂ (Scope.Shows ctx.catalog) ctx.scopes queries) {o : Bool}
    {entries entries' : List (String × Expr)} {s s' : BindState}
    (h : bindEntries ctx o entries s = .ok entries' s') :
    AllChecked ctx.catalog (sitesEntries queries entries) := by
  match entries with
  | [] => exact .nil
  | (key, e) :: rest =>
    obtain ⟨_, _, _, he, hrest, -⟩ := bindEntries_cons.1 h
    exact (Expr.checked_bind hshow he).append (checked_bindEntries hshow hrest)
termination_by structural entries

theorem checked_bindOption {ctx : Context} {queries : List Query}
    (hshow : List.Forall₂ (Scope.Shows ctx.catalog) ctx.scopes queries) {o : Bool}
    {e e' : Option Expr} {s s' : BindState} (h : bindOption ctx o e s = .ok e' s') :
    AllChecked ctx.catalog (sitesOption queries e) := by
  match e with
  | none => exact .nil
  | some e =>
    obtain ⟨_, he, -⟩ := bindOption_some.1 h
    exact Expr.checked_bind hshow he
termination_by structural e

theorem checked_bindArgs {ctx : Context} {queries : List Query}
    (hshow : List.Forall₂ (Scope.Shows ctx.catalog) ctx.scopes queries)
    {args args' : List FragmentArg} {s s' : BindState} (hfault : ∀ arg ∈ args, arg.fault? = none)
    (h : bindArgs ctx args s = .ok args' s') :
    AllChecked ctx.catalog (sitesArgs queries args) := by
  match args with
  | [] => exact .nil
  | .mk role e :: rest =>
    rw [List.forall_mem_cons] at hfault
    by_cases hrole : role = .parameter
    · obtain rfl := hrole
      obtain ⟨_, _, _, he, hrest, -⟩ := bindArgs_parameter.1 h
      exact (Expr.checked_bind hshow he).append (checked_bindArgs hshow hfault.2 hrest)
    · -- an argument of another role is a value, and no projection
      obtain ⟨_, _, _, harg, hrest, -⟩ := (bindArgs_other hrole).1 h
      obtain ⟨⟨_, he⟩, -⟩ := values_of_assign hrole hfault.1 harg
      exact (sites_of_value? he).append (checked_bindArgs hshow hfault.2 hrest)
termination_by structural args

theorem checked_bindPath {ctx : Context} {queries : List Query}
    (hshow : List.Forall₂ (Scope.Shows ctx.catalog) ctx.scopes queries)
    {path path' : List PathStep} {s s' : BindState} (h : bindPath ctx path s = .ok path' s') :
    AllChecked ctx.catalog (sitesPath queries path) := by
  match path with
  | [] => exact .nil
  | .computed e :: rest =>
    obtain ⟨_, _, _, he, hrest, -⟩ := bindPath_computed.1 h
    exact (Expr.checked_bind hshow he).append (checked_bindPath hshow hrest)
  | .key name :: rest =>
    obtain ⟨_, hrest, -⟩ := bindPath_key.1 h
    exact (checked_bindPath hshow hrest :)
  | .index i :: rest =>
    obtain ⟨_, hrest, -⟩ := bindPath_index.1 h
    exact (checked_bindPath hshow hrest :)
termination_by structural path

theorem checked_bindWheres {ctx : Context} {queries : List Query}
    (hshow : List.Forall₂ (Scope.Shows ctx.catalog) ctx.scopes queries)
    {wheres wheres' : List Expr} {s s' : BindState}
    (h : bindWheres ctx wheres s = .ok wheres' s') :
    AllChecked ctx.catalog (sitesAll queries wheres) := by
  match wheres with
  | [] => exact .nil
  | e :: rest =>
    obtain ⟨-, _, _, _, he, hrest, -⟩ := bindWheres_cons.1 h
    exact (Expr.checked_bind hshow he).append (checked_bindWheres hshow hrest)
termination_by structural wheres

theorem checked_bindTerms {ctx : Context} {queries : List Query}
    (hshow : List.Forall₂ (Scope.Shows ctx.catalog) ctx.scopes queries)
    {terms terms' : List OrderTerm} {s s' : BindState}
    (h : bindTerms ctx terms s = .ok terms' s') :
    AllChecked ctx.catalog (sitesTerms queries terms) := by
  match terms with
  | [] => exact .nil
  | .mk e direction :: rest =>
    obtain ⟨_, _, _, he, hrest, -⟩ := bindTerms_cons.1 h
    exact (Expr.checked_bind hshow he).append (checked_bindTerms hshow hrest)
termination_by structural terms

theorem Source.checked_bind {ctx : Context} {queries : List Query}
    (hshow : List.Forall₂ (Scope.Shows ctx.catalog) ctx.scopes queries)
    {table : Option ValuesTable} {source source' : Source} {s s' : BindState}
    (h : source.bind ctx table s = .ok source' s') :
    AllChecked ctx.catalog (source.sites queries) := by
  match source with
  | .mk (.schema _) _ | .mk (.table _) _ => exact .nil
  | .mk (.values _) _ => exact .cons trivial .nil
  | .mk (.subquery query) name =>
    obtain ⟨_, hquery, -⟩ := Source.bind_subquery.1 h
    exact Query.checked_bind hshow hquery
  | .mk (.fragment e) name =>
    obtain ⟨-, _, he, -⟩ := Source.bind_fragment.1 h
    exact Expr.checked_bind hshow he
termination_by structural source

theorem checked_bindJoins {ctx : Context} {queries : List Query}
    (hshow : List.Forall₂ (Scope.Shows ctx.catalog) ctx.scopes queries)
    {tables : List (Option ValuesTable)} {joins joins' : List Join} {s s' : BindState}
    (h : bindJoins ctx tables joins s = .ok joins' s') :
    AllChecked ctx.catalog (sitesJoins queries joins) := by
  match joins with
  | [] => exact .nil
  | .mk kind source on :: rest =>
    obtain ⟨_, _, _, _, _, hsource, hon, hrest, -⟩ := bindJoins_cons.1 h
    exact ((Source.checked_bind hshow hsource).append (checked_bindOption hshow hon)).append
      (checked_bindJoins hshow hrest)
termination_by structural joins

/-- The projections and casts in a query that is bound have been checked, at whatever depth. -/
theorem Query.checked_bind {ctx : Context} {queries : List Query}
    (hshow : List.Forall₂ (Scope.Shows ctx.catalog) ctx.scopes queries) {query query' : Query}
    {s s' : BindState} (h : query.bind ctx s = .ok query' s') :
    AllChecked ctx.catalog (query.sites queries) := by
  obtain ⟨-, tables, scope, aliases, t, t', hdeclared, -, hclauses, -, -⟩ := Query.bind_eq_ok h
  have hinside : List.Forall₂ (Scope.Shows ctx.catalog) (ctx.inside scope aliases).scopes
      (query :: queries) := .cons (Scope.shows_of_declareSources hdeclared) hshow
  rw [Query.sites.eq_def]
  refine .cons trivial ?_
  match query with
  | .mk source joins wheres select groupBy having orderBy limit offset distinct =>
    cases hclauses with
    | mk hselect hsource hjoins hwheres hgroupBy hhaving horderBy hlimit hoffset =>
      exact Source.checked_bind hinside hsource
        |>.append (checked_bindJoins hinside hjoins)
        |>.append (checked_bindWheres hinside hwheres)
        |>.append (checked_bindOption hinside hselect)
        |>.append (checked_bindAll hinside hgroupBy)
        |>.append (checked_bindAll hinside hhaving)
        |>.append (checked_bindTerms hinside horderBy)
        |>.append (checked_bindOption hinside hlimit)
        |>.append (checked_bindOption hinside hoffset)
termination_by structural query

end

/-- The projections and casts in a query that compiles have been checked, at whatever depth. -/
theorem checked_of_compile {config : Config} {query : Query} {c : CompiledQuery}
    (h : query.compile catalog config = .ok c) : AllChecked catalog (query.sites []) := by
  obtain ⟨s, s', -, hbind, -⟩ := Query.compile_eq_ok h
  have hshow : List.Forall₂ (Scope.Shows (Context.top catalog config).catalog)
      (Context.top catalog config).scopes [] := .nil
  exact Query.checked_bind hshow hbind

end QueryCompiler
