import QueryCompiler.Proofs.Binding.Kept
import QueryCompiler.Proofs.Binding.Projections

/-!
# Binding settles

Whatever binding gives is settled at the place where it was bound, and its parameters have the
indices that binding took for it. The proof follows the recursion of binding; the sources of a query
are declared before they are bound, which is why their tables are accounted for apart.
-/

namespace QueryCompiler

/-! ### Sources -/

/-- A bound source declares what the source did before. -/
theorem redeclares_of_bind {catalog : Catalog} {ctx : Context} {table : Option ValuesTable}
    {source source' : Source} {s s' : BindState} (h : source.bind ctx table s = .ok source' s') :
    source.Redeclares catalog table source' := by
  obtain ⟨origin, name⟩ := source
  cases origin with
  | schema schema =>
    obtain ⟨rfl, -⟩ := Source.bind_schema.1 h
    refine ⟨rfl, ?_⟩
    intro scopes shape hdeclare
    rw [Source.declare] at hdeclare ⊢
    split at hdeclare
    · cases hdeclare
      rfl
    · cases hdeclare
  | table name =>
    obtain ⟨rfl, -⟩ := Source.bind_table.1 h
    refine ⟨rfl, ?_⟩
    intro scopes shape hdeclare
    cases hdeclare
    rfl
  | values declared =>
    obtain ⟨rfl, -⟩ := Source.bind_values.1 h
    cases table with
    | some table => exact redeclares_values declared table name _
    | none =>
      refine ⟨rfl, ?_⟩
      intro scopes shape hdeclare
      rw [Source.declare] at hdeclare
      split at hdeclare <;> cases hdeclare
  | subquery query =>
    obtain ⟨_, -, rfl⟩ := Source.bind_subquery.1 h
    refine ⟨rfl, ?_⟩
    intro scopes shape hdeclare
    cases hdeclare
    rfl
  | fragment e =>
    obtain ⟨-, _, -, rfl⟩ := Source.bind_fragment.1 h
    refine ⟨rfl, ?_⟩
    intro scopes shape hdeclare
    cases hdeclare
    rfl

theorem redeclaresAll_of_bindJoins {catalog : Catalog} {ctx : Context}
    {tables : List (Option ValuesTable)} {joins joins' : List Join} {s s' : BindState}
    (hlength : tables.length = joins.length) (h : bindJoins ctx tables joins s = .ok joins' s') :
    RedeclaresAll catalog tables (joins.map Join.source) (joins'.map Join.source) := by
  induction joins generalizing tables joins' s with
  | nil =>
    obtain ⟨rfl, -⟩ := bindJoins_nil.1 h
    obtain rfl := List.length_eq_zero_iff.1 hlength
    trivial
  | cons join rest ih =>
    obtain ⟨kind, source, on⟩ := join
    cases tables with
    | nil => cases hlength
    | cons table tables =>
      obtain ⟨source', _, _, _, rest', hsource, -, hrest, rfl⟩ := bindJoins_cons.1 h
      exact ⟨redeclares_of_bind hsource, ih (Nat.succ.inj hlength) hrest⟩

/-! ### Filters -/

theorem containsAggregate_of_bindWheres {ctx : Context} {wheres wheres' : List Expr}
    {s s' : BindState} (hreject : ctx.config.rejectAggregatesInWhere = true)
    (h : bindWheres ctx wheres s = .ok wheres' s') :
    ∀ e ∈ wheres', e.containsAggregate = false := by
  induction wheres generalizing wheres' s with
  | nil =>
    obtain ⟨rfl, -⟩ := bindWheres_nil.1 h
    simp
  | cons e rest ih =>
    obtain ⟨hno, _, _, _, he, hrest, rfl⟩ := bindWheres_cons.1 h
    rw [List.forall_mem_cons]
    exact ⟨(containsAggregate_bind he).trans (hno hreject), ih hrest⟩

/-! ### The induction -/

/-- The context of the clauses of a query stands inside of the place of the query. -/
theorem Context.At.inside {ctx : Context} {place : Place} (hat : ctx.At place) {scope : Scope}
    {aliases : AliasTable} {select : Option Expr}
    (haliases : ∀ name, (aliases.resolve name).isSome ↔ name ∈ selectAliases select) :
    (ctx.inside scope aliases).At (place.inside scope select) :=
  ⟨hat.catalog, hat.config, congrArg (scope :: ·) hat.scopes, haliases⟩

theorem settledPath_append {place : Place} {k k₁ k' : Nat} {path path' : List PathStep}
    (h : SettledPath place k path k₁) (h' : SettledPath place k₁ path' k') :
    SettledPath place k (path ++ path') k' := by
  match path with
  | [] =>
    cases h
    exact h'
  | .computed e :: rest =>
    cases h with
    | computed he hrest => exact .computed he (settledPath_append hrest h')
  | .key name :: rest =>
    cases h with
    | key hrest => exact .key (settledPath_append hrest h')
  | .index i :: rest =>
    cases h with
    | index hrest => exact .index (settledPath_append hrest h')

mutual

theorem Expr.settled_of_bind {ctx : Context} {place : Place} (hat : ctx.At place)
    (hplaced : ∀ scope ∈ place.scopes, scope.Placed) {o : Bool} {e e' : Expr} {s s' : BindState}
    (h : e.bind ctx o s = .ok e' s') : e'.Settled place o s.nextParam s'.nextParam := by
  match e with
  | .literal v =>
    obtain ⟨rfl, rfl⟩ := Expr.bind_literal.1 h
    exact .literal v
  | .param p =>
    obtain ⟨rfl, rfl⟩ := Expr.bind_param.1 h
    exact .param rfl
  | .field f =>
    obtain ⟨rfl, g, hg, rfl⟩ := Expr.bind_field.1 h
    rw [hat.scopes] at hg
    exact .field (bindField_bindField hg)
  | .binding r =>
    obtain ⟨rfl, slot, source, hslot, rfl⟩ := Expr.bind_binding.1 h
    rw [hat.scopes] at hslot
    exact .binding hslot
  | .parentBinding r =>
    obtain ⟨rfl, slot, source, hslot, rfl⟩ := Expr.bind_parentBinding.1 h
    rw [hat.scopes] at hslot
    exact .parentBinding hslot
  | .operator op operands =>
    obtain ⟨hcheck, operands', hoperands, rfl⟩ := Expr.bind_operator.1 h
    refine .operator (checkOperands_congr ?_ hcheck) (propagateTypes_propagateTypes op operands')
      ((settledAll_of_bindAll hat hplaced hoperands).propagateTypes op)
    rw [map_isInterval_propagateTypes, map_isInterval_bindAll hoperands]
  | .aggregate kind args distinct filter =>
    obtain ⟨hcheck, args', t, filter', hargs, hfilter, rfl⟩ := Expr.bind_aggregate.1 h
    refine .aggregate ?_ (settledAll_of_bindAll hat hplaced hargs)
      (settledOption_of_bindOption hat hplaced hfilter)
    have hlength := congrArg List.length (map_isInterval_bindAll hargs)
    rw [List.length_map, List.length_map] at hlength
    rw [checkArguments, hlength]
    rwa [checkArguments] at hcheck
  | .fragment text parts args =>
    obtain ⟨processed, args', hprocess, hargs, rfl⟩ := Expr.bind_fragment.1 h
    obtain ⟨hcount, hfault, rfl⟩ := process_eq_ok.1 hprocess
    obtain ⟨hsettled, hlength, hfault'⟩ :=
      settledArgs_of_bindArgs hat hplaced (firstFault_eq_none.1 hfault) hargs
    exact .fragment (hcount.trans hlength.symm) (firstFault_eq_none.2 hfault') hsettled
  | .cast value target resolved =>
    obtain ⟨value', target', type, hvalue, hcastable, htarget, rfl⟩ := Expr.bind_cast.1 h
    rw [hat.scopes] at htarget
    exact .cast ((Expr.settled_of_bind hat hplaced hvalue).withCastType type)
      ((isCastable_withCastType type value').trans hcastable)
      (withCastType_withCastType type value') (resolveType_stable place.scopes _ _ _ htarget)
  | .subquery kind query =>
    obtain ⟨query', hquery, rfl⟩ := Expr.bind_subquery.1 h
    exact .subquery (Query.settled_of_bind hat hplaced hquery)
  | .values table =>
    obtain ⟨table', hcheck, rfl, rfl⟩ := Expr.bind_values.1 h
    rw [hat.catalog, hat.scopes] at hcheck
    exact .values (validate_stable (resolveType_stable place.scopes) hcheck _) rfl
  | .projection kind p =>
    obtain ⟨p', hp, rfl⟩ := Expr.bind_projection.1 h
    obtain ⟨hnext, slot, source, hslot, hset, rfl⟩ := Projection.bind_eq_ok hp
    rw [hat.catalog] at hset
    rw [hat.scopes] at hslot
    rw [hnext]
    exact .projection hslot hset
  | .merge left right =>
    obtain ⟨left', t, right', hleft, hright, rfl⟩ := Expr.bind_merge.1 h
    exact .merge (Expr.settled_of_bind hat hplaced hleft) (Expr.settled_of_bind hat hplaced hright)
  | .aliased value name =>
    obtain ⟨rfl, value', hvalue, rfl⟩ := Expr.bind_aliased.1 h
    exact .aliased (Expr.settled_of_bind hat hplaced hvalue)
  | .aliasRef name =>
    obtain ⟨hname, rfl, rfl⟩ := Expr.bind_aliasRef.1 h
    exact .aliasRef ((hat.aliases name).1 hname)
  | .jsonPath base path =>
    obtain ⟨base', steps, t, path', hbase, hpath, rfl⟩ := Expr.bind_jsonPath.1 h
    obtain ⟨f, rfl, hfield, hsteps⟩ := Expr.settledPath_of_bindAccess hat hplaced hbase
    exact .jsonPath hfield (settledPath_append hsteps (settledPath_of_bindPath hat hplaced hpath))
  | .interval count unit =>
    obtain ⟨count', hcount, rfl⟩ := Expr.bind_interval.1 h
    exact .interval ((Expr.settled_of_bind hat hplaced hcount).withType _) (withType_withType _ _ _)
  | .tuple items =>
    obtain ⟨items', hitems, rfl⟩ := Expr.bind_tuple.1 h
    exact .tuple (settledAll_of_bindAll hat hplaced hitems)
  | .mapping entries =>
    obtain ⟨entries', hentries, rfl⟩ := Expr.bind_mapping.1 h
    exact .mapping (settledEntries_of_bindEntries hat hplaced hentries)
termination_by structural e

theorem Expr.settledPath_of_bindAccess {ctx : Context} {place : Place} (hat : ctx.At place)
    (hplaced : ∀ scope ∈ place.scopes, scope.Placed) {e e' : Expr} {steps : List PathStep}
    {s s' : BindState} (h : e.bindAccess ctx s = .ok (e', steps) s') :
    ∃ f, e' = .field f ∧ place.scopes.bindField f = .ok f ∧
      SettledPath place s.nextParam steps s'.nextParam := by
  match e with
  | .field f =>
    obtain ⟨rfl, g, hg, heq⟩ := Expr.bindAccess_field.1 h
    cases heq
    rw [hat.scopes] at hg
    exact ⟨g, rfl, bindField_bindField hg, .nil⟩
  | .jsonPath base path =>
    obtain ⟨base', steps, t, path', hbase, hpath, heq⟩ := Expr.bindAccess_jsonPath.1 h
    cases heq
    obtain ⟨f, rfl, hfield, hsteps⟩ := Expr.settledPath_of_bindAccess hat hplaced hbase
    exact ⟨f, rfl, hfield,
      settledPath_append hsteps (settledPath_of_bindPath hat hplaced hpath)⟩
  | .literal _ | .param _ | .binding _ | .parentBinding _ | .operator _ _ | .aggregate _ _ _ _
  | .fragment _ _ _ | .cast _ _ _ | .subquery _ _ | .values _ | .projection _ _ | .merge _ _
  | .aliased _ _ | .aliasRef _ | .interval _ _ | .tuple _ | .mapping _ =>
    simp [Expr.bindAccess] at h
termination_by structural e

theorem settledAll_of_bindAll {ctx : Context} {place : Place} (hat : ctx.At place)
    (hplaced : ∀ scope ∈ place.scopes, scope.Placed) {o : Bool} {es es' : List Expr}
    {s s' : BindState} (h : bindAll ctx o es s = .ok es' s') :
    SettledAll place o s.nextParam es' s'.nextParam := by
  match es with
  | [] =>
    obtain ⟨rfl, rfl⟩ := bindAll_nil.1 h
    exact .nil
  | e :: rest =>
    obtain ⟨e', t, rest', he, hrest, rfl⟩ := bindAll_cons.1 h
    exact .cons (Expr.settled_of_bind hat hplaced he) (settledAll_of_bindAll hat hplaced hrest)
termination_by structural es

theorem settledEntries_of_bindEntries {ctx : Context} {place : Place} (hat : ctx.At place)
    (hplaced : ∀ scope ∈ place.scopes, scope.Placed) {o : Bool}
    {entries entries' : List (String × Expr)} {s s' : BindState}
    (h : bindEntries ctx o entries s = .ok entries' s') :
    SettledEntries place o s.nextParam entries' s'.nextParam := by
  match entries with
  | [] =>
    obtain ⟨rfl, rfl⟩ := bindEntries_nil.1 h
    exact .nil
  | (key, e) :: rest =>
    obtain ⟨e', t, rest', he, hrest, rfl⟩ := bindEntries_cons.1 h
    exact .cons (Expr.settled_of_bind hat hplaced he)
      (settledEntries_of_bindEntries hat hplaced hrest)
termination_by structural entries

theorem settledOption_of_bindOption {ctx : Context} {place : Place} (hat : ctx.At place)
    (hplaced : ∀ scope ∈ place.scopes, scope.Placed) {o : Bool} {e e' : Option Expr}
    {s s' : BindState} (h : bindOption ctx o e s = .ok e' s') :
    SettledOption place o s.nextParam e' s'.nextParam := by
  match e with
  | none =>
    obtain ⟨rfl, rfl⟩ := bindOption_none.1 h
    exact .none
  | some e =>
    obtain ⟨e', he, rfl⟩ := bindOption_some.1 h
    exact .some (Expr.settled_of_bind hat hplaced he)
termination_by structural e

theorem settledArgs_of_bindArgs {ctx : Context} {place : Place} (hat : ctx.At place)
    (hplaced : ∀ scope ∈ place.scopes, scope.Placed) {args args' : List FragmentArg}
    {s s' : BindState} (hfault : ∀ arg ∈ args, arg.fault? = none)
    (h : bindArgs ctx args s = .ok args' s') :
    SettledArgs place s.nextParam args' s'.nextParam ∧ args'.length = args.length ∧
      ∀ arg ∈ args', arg.fault? = none := by
  match args with
  | [] =>
    obtain ⟨rfl, rfl⟩ := bindArgs_nil.1 h
    exact ⟨.nil, rfl, by simp⟩
  | .mk role e :: rest =>
    rw [List.forall_mem_cons] at hfault
    by_cases hrole : role = .parameter
    · obtain rfl := hrole
      obtain ⟨e', t, rest', he, hrest, rfl⟩ := bindArgs_parameter.1 h
      obtain ⟨hsettled, hlength, hfaults⟩ := settledArgs_of_bindArgs hat hplaced hfault.2 hrest
      refine ⟨.parameter (Expr.settled_of_bind hat hplaced he) hsettled, ?_, ?_⟩
      · rw [List.length_cons, List.length_cons, hlength]
      · rw [List.forall_mem_cons]
        exact ⟨rfl, hfaults⟩
    · obtain ⟨arg', t, rest', harg, hrest, rfl⟩ := (bindArgs_other hrole).1 h
      obtain ⟨hsettled, hlength, hfaults⟩ := settledArgs_of_bindArgs hat hplaced hfault.2 hrest
      rw [List.length_cons, List.length_cons, hlength, List.forall_mem_cons]
      rcases inlined_cases hfault.1 with
        ⟨_, heq, -⟩ | ⟨role', v, hinline, heq, hkept⟩ | ⟨p, hsplice, heq, hkept⟩
      · cases heq
        exact absurd rfl hrole
      · rw [heq] at harg
        obtain ⟨rfl, rfl⟩ := FragmentArg.assign_literal.1 harg
        rw [heq] at hkept
        exact ⟨.inline hinline hsettled, rfl, hkept, hfaults⟩
      · rw [heq] at harg
        obtain ⟨rfl, rfl⟩ := FragmentArg.assign_splice.1 harg
        exact ⟨.splice rfl hsplice hsettled, rfl, hkept _, hfaults⟩
termination_by structural args

theorem settledPath_of_bindPath {ctx : Context} {place : Place} (hat : ctx.At place)
    (hplaced : ∀ scope ∈ place.scopes, scope.Placed) {path path' : List PathStep}
    {s s' : BindState} (h : bindPath ctx path s = .ok path' s') :
    SettledPath place s.nextParam path' s'.nextParam := by
  match path with
  | [] =>
    obtain ⟨rfl, rfl⟩ := bindPath_nil.1 h
    exact .nil
  | .computed e :: rest =>
    obtain ⟨e', t, rest', he, hrest, rfl⟩ := bindPath_computed.1 h
    exact .computed (Expr.settled_of_bind hat hplaced he)
      (settledPath_of_bindPath hat hplaced hrest)
  | .key name :: rest =>
    obtain ⟨rest', hrest, rfl⟩ := bindPath_key.1 h
    exact .key (settledPath_of_bindPath hat hplaced hrest)
  | .index i :: rest =>
    obtain ⟨rest', hrest, rfl⟩ := bindPath_index.1 h
    exact .index (settledPath_of_bindPath hat hplaced hrest)
termination_by structural path

theorem settledAll_of_bindWheres {ctx : Context} {place : Place} (hat : ctx.At place)
    (hplaced : ∀ scope ∈ place.scopes, scope.Placed) {wheres wheres' : List Expr}
    {s s' : BindState} (h : bindWheres ctx wheres s = .ok wheres' s') :
    SettledAll place false s.nextParam wheres' s'.nextParam := by
  match wheres with
  | [] =>
    obtain ⟨rfl, rfl⟩ := bindWheres_nil.1 h
    exact .nil
  | e :: rest =>
    obtain ⟨-, e', t, rest', he, hrest, rfl⟩ := bindWheres_cons.1 h
    exact .cons (Expr.settled_of_bind hat hplaced he) (settledAll_of_bindWheres hat hplaced hrest)
termination_by structural wheres

theorem settledTerms_of_bindTerms {ctx : Context} {place : Place} (hat : ctx.At place)
    (hplaced : ∀ scope ∈ place.scopes, scope.Placed) {terms terms' : List OrderTerm}
    {s s' : BindState} (h : bindTerms ctx terms s = .ok terms' s') :
    SettledTerms place s.nextParam terms' s'.nextParam := by
  match terms with
  | [] =>
    obtain ⟨rfl, rfl⟩ := bindTerms_nil.1 h
    exact .nil
  | .mk e direction :: rest =>
    obtain ⟨e', t, rest', he, hrest, rfl⟩ := bindTerms_cons.1 h
    exact .cons (Expr.settled_of_bind hat hplaced he) (settledTerms_of_bindTerms hat hplaced hrest)
termination_by structural terms

theorem Source.settled_of_bind {ctx : Context} {place : Place} (hat : ctx.At place)
    (hplaced : ∀ scope ∈ place.scopes, scope.Placed) {table : Option ValuesTable}
    {source source' : Source} {s s' : BindState} (h : source.bind ctx table s = .ok source' s') :
    source'.Settled place s.nextParam s'.nextParam := by
  match source with
  | .mk (.schema schema) name =>
    obtain ⟨rfl, rfl⟩ := Source.bind_schema.1 h
    exact .schema
  | .mk (.table table) name =>
    obtain ⟨rfl, rfl⟩ := Source.bind_table.1 h
    exact .table
  | .mk (.values declared) name =>
    obtain ⟨rfl, rfl⟩ := Source.bind_values.1 h
    exact .values rfl
  | .mk (.subquery query) name =>
    obtain ⟨query', hquery, rfl⟩ := Source.bind_subquery.1 h
    exact .subquery (Query.settled_of_bind hat hplaced hquery)
  | .mk (.fragment e) name =>
    obtain ⟨hfragment, e', he, rfl⟩ := Source.bind_fragment.1 h
    exact .fragment (isFragment_bind he hfragment) (Expr.settled_of_bind hat hplaced he)
termination_by structural source

theorem settledJoins_of_bindJoins {ctx : Context} {place : Place} (hat : ctx.At place)
    (hplaced : ∀ scope ∈ place.scopes, scope.Placed) {tables : List (Option ValuesTable)}
    {joins joins' : List Join} {s s' : BindState}
    (h : bindJoins ctx tables joins s = .ok joins' s') :
    SettledJoins place s.nextParam joins' s'.nextParam := by
  match joins with
  | [] =>
    obtain ⟨rfl, rfl⟩ := bindJoins_nil.1 h
    exact .nil
  | .mk kind source on :: rest =>
    obtain ⟨source', t, on', t', rest', hsource, hon, hrest, rfl⟩ := bindJoins_cons.1 h
    exact .cons (Source.settled_of_bind hat hplaced hsource)
      (settledOption_of_bindOption hat hplaced hon) (settledJoins_of_bindJoins hat hplaced hrest)
termination_by structural joins

/-- A bound query is settled where it was bound. -/
theorem Query.settled_of_bind {ctx : Context} {place : Place} (hat : ctx.At place)
    (hplaced : ∀ scope ∈ place.scopes, scope.Placed) {query query' : Query} {s s' : BindState}
    (h : query.bind ctx s = .ok query' s') : query'.Settled place s.nextParam s'.nextParam := by
  obtain ⟨hdepth, tables, scope, aliases, t, t', hdeclared, hcollect, hbound, ht, hs'⟩ :=
    Query.bind_eq_ok h
  rw [hat.scopes, hat.config] at hdepth
  rw [hat.catalog, hat.scopes] at hdeclared
  rw [hat.config] at hcollect
  obtain ⟨hnames, hnodup⟩ := AliasTable.collect_eq_ok hcollect
  match query with
  | .mk source joins wheres select groupBy having orderBy limit offset distinct =>
    have hlength := length_of_declareSources hdeclared
    match tables with
    | [] => cases hlength
    | table :: tables =>
      cases hbound with
      | @mk _ _ _ _ _ _ _ _ _ _ source' _ joins' _ _ _ select' _ _ _ _ _ _ _ _ _ _ _ hselect hsource
          hjoins hwheres hgroupBy hhaving horderBy hlimit hoffset =>
        have hselected := selectAliases_bindOption hselect
        have hinside : (ctx.inside scope aliases).At
            (place.inside scope (select'.map Expr.normalize)) :=
          hat.inside fun name => by rw [hselected]; exact hnames name
        have hscopes : ∀ inner ∈ (place.inside scope (select'.map Expr.normalize)).scopes,
            inner.Placed := by
          intro inner hinner
          rcases List.mem_cons.1 hinner with rfl | hinner
          · exact declareSources_placed Scope.empty_placed hdeclared
          · exact hplaced inner hinner
        have hsources : tables.length = joins.length := by
          simpa [Query.sources] using hlength
        have hnormal : (select'.map Expr.normalize).map Expr.normalize =
            select'.map Expr.normalize := by
          cases select' with
          | none => rfl
          | some e => exact congrArg some (Expr.normalize_normalize e)
        have hredeclares : RedeclaresAll place.catalog (table :: tables)
            (source :: joins.map Join.source) (source' :: joins'.map Join.source) :=
          And.intro (redeclares_of_bind hsource) (redeclaresAll_of_bindJoins hsources hjoins)
        rw [← ht, hs']
        refine .mk hdepth (declareSources_redeclared hredeclares hdeclared)
          (fun hstrict => by rw [hselected]; exact hnodup hstrict)
          ((settledOption_of_bindOption hinside hscopes hselect).normalize hscopes) hnormal
          (Source.settled_of_bind hinside hscopes hsource)
          (settledJoins_of_bindJoins hinside hscopes hjoins)
          (settledAll_of_bindWheres hinside hscopes hwheres)
          (fun hreject => containsAggregate_of_bindWheres
            ((congrArg Config.rejectAggregatesInWhere hinside.config).trans hreject) hwheres)
          (settledAll_of_bindAll hinside hscopes hgroupBy)
          (settledAll_of_bindAll hinside hscopes hhaving)
          (settledTerms_of_bindTerms hinside hscopes horderBy)
          ((settledOption_of_bindOption hinside hscopes hlimit).withType _)
          (option_withType_withType _ _)
          ((settledOption_of_bindOption hinside hscopes hoffset).withType _)
          (option_withType_withType _ _)
termination_by structural query

end

end QueryCompiler
