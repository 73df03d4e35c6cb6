import Mathlib.Data.List.Forall2
import QueryCompiler.Proofs.Parts
import QueryCompiler.Proofs.Recompilation

/-!
# Queries inside a query that is bound

Binding a query binds every query inside it once and leaves no other queries in the result, so that
the queries of both correspond one by one. What is to be shown of every query inside a compiled
query can therefore be shown of a single query where it is bound.
-/

namespace QueryCompiler

/-! ### Queries among parts -/

def Part.query? : Part → Option Query
  | .query inner => some inner
  | .expr _ | .table _ => none

/-- The queries among some parts, with their levels. -/
def queriesIn (parts : List (Nat × Part)) : List (Nat × Query) :=
  parts.filterMap fun part => part.2.query?.map fun query => (part.1, query)

/-- The queries in a query, itself included, with their levels. -/
def Query.queries (query : Query) : List (Nat × Query) := queriesIn (query.parts 0)

@[simp] theorem queriesIn_nil : queriesIn [] = [] := rfl

@[simp] theorem queriesIn_append (parts more : List (Nat × Part)) :
    queriesIn (parts ++ more) = queriesIn parts ++ queriesIn more :=
  List.filterMap_append

@[simp] theorem queriesIn_expr (level : Nat) (e : Expr) (rest : List (Nat × Part)) :
    queriesIn ((level, .expr e) :: rest) = queriesIn rest := rfl

theorem mem_queriesIn {level : Nat} {query : Query} {parts : List (Nat × Part)} :
    (level, query) ∈ queriesIn parts ↔ (level, .query query) ∈ parts := by
  rw [queriesIn, List.mem_filterMap]
  constructor
  · rintro ⟨⟨level', part⟩, hpart, hquery⟩
    cases part with
    | query inner =>
      cases hquery
      exact hpart
    | expr e => cases hquery
    | table table => cases hquery
  · intro h
    exact ⟨_, h, rfl⟩

/-- The queries in an expression. -/
abbrev Expr.queriesAt (level : Nat) (e : Expr) : List (Nat × Query) := queriesIn (e.parts level)

variable {level : Nat}

theorem queriesIn_partsAll (es : List Expr) :
    queriesIn (partsAll level es) = es.flatMap (Expr.queriesAt level) := by
  induction es with
  | nil => rfl
  | cons e rest ih => rw [partsAll, queriesIn_append, ih, List.flatMap_cons]

theorem queriesIn_partsEntries (entries : List (String × Expr)) :
    queriesIn (partsEntries level entries) =
      entries.flatMap fun entry => entry.2.queriesAt level := by
  induction entries with
  | nil => rfl
  | cons entry rest ih => rw [partsEntries, queriesIn_append, ih, List.flatMap_cons]

theorem queriesIn_partsPath_append (path path' : List PathStep) :
    queriesIn (partsPath level (path ++ path')) =
      queriesIn (partsPath level path) ++ queriesIn (partsPath level path') := by
  induction path with
  | nil => rfl
  | cons step rest ih => cases step <;> simp [partsPath, ih]

theorem queriesAt_gathers (level : Nat) : Gathers (Expr.queriesAt level) where
  merge left right := by simp [Expr.queriesAt, Expr.parts]
  tuple items := by simp [Expr.queriesAt, Expr.parts, queriesIn_partsAll]
  mapping entries := by simp [Expr.queriesAt, Expr.parts, queriesIn_partsEntries]
  aliased h name := by simpa [Expr.queriesAt, Expr.parts] using h
  projection kind p := by simp [Expr.queriesAt, Expr.parts]

theorem queriesAt_typeBlind (level : Nat) : TypeBlind (Expr.queriesAt level) := fun _ _ => rfl

theorem queriesIn_propagateTypes (op : Operator) (operands : List Expr) :
    queriesIn (partsAll level (propagateTypes op operands)) =
      queriesIn (partsAll level operands) := by
  rw [queriesIn_partsAll, queriesIn_partsAll, (queriesAt_typeBlind level).flatMap_propagateTypes]

theorem queriesIn_partsOption_map {f : Expr → Expr}
    (hf : ∀ e, (f e).queriesAt level = e.queriesAt level) (e : Option Expr) :
    queriesIn (partsOption level (e.map f)) = queriesIn (partsOption level e) := by
  cases e with
  | none => rfl
  | some e => exact hf e

/-! ### Parts that are bound -/

/-- A query as it is written and what it is bound to where so many queries enclose it. -/
structure BoundAt (config : Config) (written bound : Nat × Query) : Prop where
  level : bound.1 = written.1
  bind : ∃ ctx s s', ctx.config = config ∧ ctx.scopes.length = written.1 ∧
    written.2.bind ctx s = .ok bound.2 s'

/-- Parts as they are written, none of them too deep, and as they are bound. -/
structure Nested (config : Config) (written bound : List (Nat × Part)) : Prop where
  depth : ∀ part ∈ written, part.1 ≤ config.maxSubqueryDepth
  queries : List.Forall₂ (BoundAt config) (queriesIn written) (queriesIn bound)

namespace Nested

variable {config : Config} {written written' bound bound' : List (Nat × Part)}

theorem nil : Nested config [] [] := ⟨by simp, .nil⟩

theorem append (h : Nested config written bound) (h' : Nested config written' bound') :
    Nested config (written ++ written') (bound ++ bound') :=
  ⟨List.forall_mem_append.2 ⟨h.depth, h'.depth⟩, by
    rw [queriesIn_append, queriesIn_append]
    exact List.rel_append h.queries h'.queries⟩

theorem expr (hlevel : level ≤ config.maxSubqueryDepth) (h : Nested config written bound)
    (e e' : Expr) : Nested config ((level, .expr e) :: written) ((level, .expr e') :: bound) :=
  ⟨List.forall_mem_cons.2 ⟨hlevel, h.depth⟩, h.queries⟩

theorem table (hlevel : level ≤ config.maxSubqueryDepth) (table table' : ValuesTable) :
    Nested config [(level, .table table)] [(level, .table table')] :=
  ⟨by simpa using hlevel, .nil⟩

theorem query (hlevel : level ≤ config.maxSubqueryDepth) (h : Nested config written bound)
    {q q' : Query} (hq : BoundAt config (level, q) (level, q')) :
    Nested config ((level, .query q) :: written) ((level, .query q') :: bound) :=
  ⟨List.forall_mem_cons.2 ⟨hlevel, h.depth⟩, .cons hq h.queries⟩

theorem congr (h : Nested config written bound) (heq : queriesIn bound' = queriesIn bound) :
    Nested config written bound' :=
  ⟨h.depth, heq ▸ h.queries⟩

end Nested

/-- A context of the clauses of a query that so many queries enclose. -/
structure Context.Inside (ctx : Context) (level : Nat) : Prop where
  scopes : ctx.scopes.length = level + 1
  depth : level ≤ ctx.config.maxSubqueryDepth

/-! ### Binding -/

theorem parts_of_value? {e : Expr} {v : Value} (h : e.value? = some v) :
    e.parts level = [(level, .expr e)] := by
  cases e with
  | literal _ | param _ => simp only [Expr.parts]
  | _ => cases h

mutual

theorem Expr.nested_bind {ctx : Context} {level : Nat} (hin : ctx.Inside level) {o : Bool}
    {e e' : Expr} {s s' : BindState} (h : e.bind ctx o s = .ok e' s') :
    Nested ctx.config (e.parts level) (e'.parts level) := by
  match e with
  | .literal v =>
    obtain ⟨rfl, -⟩ := Expr.bind_literal.1 h
    exact .expr hin.depth .nil _ _
  | .param p =>
    obtain ⟨rfl, -⟩ := Expr.bind_param.1 h
    exact .expr hin.depth .nil _ _
  | .field f =>
    obtain ⟨-, _, -, rfl⟩ := Expr.bind_field.1 h
    exact .expr hin.depth .nil _ _
  | .binding r =>
    obtain ⟨-, _, _, -, rfl⟩ := Expr.bind_binding.1 h
    exact .expr hin.depth .nil _ _
  | .parentBinding r =>
    obtain ⟨-, _, _, -, rfl⟩ := Expr.bind_parentBinding.1 h
    exact .expr hin.depth .nil _ _
  | .operator op operands =>
    obtain ⟨-, _, hoperands, rfl⟩ := Expr.bind_operator.1 h
    exact .expr hin.depth ((nested_bindAll hin hoperands).congr (queriesIn_propagateTypes op _)) _ _
  | .aggregate kind args distinct filter =>
    obtain ⟨-, _, _, _, hargs, hfilter, rfl⟩ := Expr.bind_aggregate.1 h
    exact .expr hin.depth ((nested_bindAll hin hargs).append (nested_bindOption hin hfilter)) _ _
  | .fragment text parts args =>
    obtain ⟨_, _, hprocess, hargs, rfl⟩ := Expr.bind_fragment.1 h
    obtain ⟨-, hfault, -⟩ := process_eq_ok.1 hprocess
    exact .expr hin.depth (nested_bindArgs hin (firstFault_eq_none.1 hfault) hargs) _ _
  | .cast value target resolved =>
    obtain ⟨_, _, _, hvalue, -, -, rfl⟩ := Expr.bind_cast.1 h
    have hblind := (queriesAt_typeBlind level).withCastType
    exact .expr hin.depth ((Expr.nested_bind hin hvalue).congr (hblind _ _)) _ _
  | .subquery kind query =>
    obtain ⟨_, hquery, rfl⟩ := Expr.bind_subquery.1 h
    exact .expr hin.depth (Query.nested_bind hin.scopes hquery) _ _
  | .values table =>
    obtain ⟨_, -, rfl, -⟩ := Expr.bind_values.1 h
    exact .expr hin.depth (.table hin.depth _ _) _ _
  | .projection kind p =>
    obtain ⟨_, -, rfl⟩ := Expr.bind_projection.1 h
    exact .expr hin.depth .nil _ _
  | .merge left right =>
    obtain ⟨_, _, _, hleft, hright, rfl⟩ := Expr.bind_merge.1 h
    exact .expr hin.depth ((Expr.nested_bind hin hleft).append (Expr.nested_bind hin hright)) _ _
  | .aliased value name =>
    obtain ⟨-, _, hvalue, rfl⟩ := Expr.bind_aliased.1 h
    exact .expr hin.depth (Expr.nested_bind hin hvalue) _ _
  | .aliasRef name =>
    obtain ⟨-, rfl, -⟩ := Expr.bind_aliasRef.1 h
    exact .expr hin.depth .nil _ _
  | .jsonPath base path =>
    obtain ⟨_, _, _, _, hbase, hpath, rfl⟩ := Expr.bind_jsonPath.1 h
    have hparts := (Expr.nested_bindAccess hin hbase).append (nested_bindPath hin hpath)
    refine .expr hin.depth (hparts.congr ?_) _ _
    simp [queriesIn_partsPath_append]
  | .interval count unit =>
    obtain ⟨_, hcount, rfl⟩ := Expr.bind_interval.1 h
    have hblind := (queriesAt_typeBlind level).withType
    exact .expr hin.depth ((Expr.nested_bind hin hcount).congr (hblind _ _)) _ _
  | .tuple items =>
    obtain ⟨_, hitems, rfl⟩ := Expr.bind_tuple.1 h
    exact .expr hin.depth (nested_bindAll hin hitems) _ _
  | .mapping entries =>
    obtain ⟨_, hentries, rfl⟩ := Expr.bind_mapping.1 h
    exact .expr hin.depth (nested_bindEntries hin hentries) _ _
termination_by structural e

/-- The accesses of a path are joined to one. -/
theorem Expr.nested_bindAccess {ctx : Context} {level : Nat} (hin : ctx.Inside level) {e e' : Expr}
    {steps : List PathStep} {s s' : BindState} (h : e.bindAccess ctx s = .ok (e', steps) s') :
    Nested ctx.config (e.parts level) (e'.parts level ++ partsPath level steps) := by
  match e with
  | .field f =>
    obtain ⟨-, _, -, heq⟩ := Expr.bindAccess_field.1 h
    cases heq
    exact .expr hin.depth .nil _ _
  | .jsonPath base path =>
    obtain ⟨_, _, _, _, hbase, hpath, heq⟩ := Expr.bindAccess_jsonPath.1 h
    cases heq
    have hparts := (Expr.nested_bindAccess hin hbase).append (nested_bindPath hin hpath)
    -- the inner path is no part of the result any more, but no query either
    refine (Nested.expr hin.depth hparts (.jsonPath base path) e').congr ?_
    simp [queriesIn_partsPath_append]
  | .literal _ | .param _ | .binding _ | .parentBinding _ | .operator _ _ | .aggregate _ _ _ _
  | .fragment _ _ _ | .cast _ _ _ | .subquery _ _ | .values _ | .projection _ _ | .merge _ _
  | .aliased _ _ | .aliasRef _ | .interval _ _ | .tuple _ | .mapping _ =>
    simp [Expr.bindAccess] at h
termination_by structural e

theorem nested_bindAll {ctx : Context} {level : Nat} (hin : ctx.Inside level) {o : Bool}
    {es es' : List Expr} {s s' : BindState} (h : bindAll ctx o es s = .ok es' s') :
    Nested ctx.config (partsAll level es) (partsAll level es') := by
  match es with
  | [] =>
    obtain ⟨rfl, -⟩ := bindAll_nil.1 h
    exact .nil
  | e :: rest =>
    obtain ⟨_, _, _, he, hrest, rfl⟩ := bindAll_cons.1 h
    exact (Expr.nested_bind hin he).append (nested_bindAll hin hrest)
termination_by structural es

theorem nested_bindEntries {ctx : Context} {level : Nat} (hin : ctx.Inside level) {o : Bool}
    {entries entries' : List (String × Expr)} {s s' : BindState}
    (h : bindEntries ctx o entries s = .ok entries' s') :
    Nested ctx.config (partsEntries level entries) (partsEntries level entries') := by
  match entries with
  | [] =>
    obtain ⟨rfl, -⟩ := bindEntries_nil.1 h
    exact .nil
  | (key, e) :: rest =>
    obtain ⟨_, _, _, he, hrest, rfl⟩ := bindEntries_cons.1 h
    exact (Expr.nested_bind hin he).append (nested_bindEntries hin hrest)
termination_by structural entries

theorem nested_bindOption {ctx : Context} {level : Nat} (hin : ctx.Inside level) {o : Bool}
    {e e' : Option Expr} {s s' : BindState} (h : bindOption ctx o e s = .ok e' s') :
    Nested ctx.config (partsOption level e) (partsOption level e') := by
  match e with
  | none =>
    obtain ⟨rfl, -⟩ := bindOption_none.1 h
    exact .nil
  | some e =>
    obtain ⟨_, he, rfl⟩ := bindOption_some.1 h
    exact Expr.nested_bind hin he
termination_by structural e

theorem nested_bindArgs {ctx : Context} {level : Nat} (hin : ctx.Inside level)
    {args args' : List FragmentArg} {s s' : BindState} (hfault : ∀ arg ∈ args, arg.fault? = none)
    (h : bindArgs ctx args s = .ok args' s') :
    Nested ctx.config (partsArgs level args) (partsArgs level args') := by
  match args with
  | [] =>
    obtain ⟨rfl, -⟩ := bindArgs_nil.1 h
    exact .nil
  | .mk role e :: rest =>
    rw [List.forall_mem_cons] at hfault
    by_cases hrole : role = .parameter
    · obtain rfl := hrole
      obtain ⟨_, _, _, he, hrest, rfl⟩ := bindArgs_parameter.1 h
      exact (Expr.nested_bind hin he).append (nested_bindArgs hin hfault.2 hrest)
    · obtain ⟨_, _, _, harg, hrest, rfl⟩ := (bindArgs_other hrole).1 h
      obtain ⟨⟨_, he⟩, _, _, rfl, _, he'⟩ := values_of_assign hrole hfault.1 harg
      rw [partsArgs, partsArgs, parts_of_value? he, parts_of_value? he']
      exact (Nested.expr hin.depth .nil _ _).append (nested_bindArgs hin hfault.2 hrest)
termination_by structural args

theorem nested_bindPath {ctx : Context} {level : Nat} (hin : ctx.Inside level)
    {path path' : List PathStep} {s s' : BindState} (h : bindPath ctx path s = .ok path' s') :
    Nested ctx.config (partsPath level path) (partsPath level path') := by
  match path with
  | [] =>
    obtain ⟨rfl, -⟩ := bindPath_nil.1 h
    exact .nil
  | .computed e :: rest =>
    obtain ⟨_, _, _, he, hrest, rfl⟩ := bindPath_computed.1 h
    exact (Expr.nested_bind hin he).append (nested_bindPath hin hrest)
  | .key name :: rest =>
    obtain ⟨_, hrest, rfl⟩ := bindPath_key.1 h
    exact (nested_bindPath hin hrest :)
  | .index i :: rest =>
    obtain ⟨_, hrest, rfl⟩ := bindPath_index.1 h
    exact (nested_bindPath hin hrest :)
termination_by structural path

theorem nested_bindWheres {ctx : Context} {level : Nat} (hin : ctx.Inside level)
    {wheres wheres' : List Expr} {s s' : BindState} (h : bindWheres ctx wheres s = .ok wheres' s') :
    Nested ctx.config (partsAll level wheres) (partsAll level wheres') := by
  match wheres with
  | [] =>
    obtain ⟨rfl, -⟩ := bindWheres_nil.1 h
    exact .nil
  | e :: rest =>
    obtain ⟨-, _, _, _, he, hrest, rfl⟩ := bindWheres_cons.1 h
    exact (Expr.nested_bind hin he).append (nested_bindWheres hin hrest)
termination_by structural wheres

theorem nested_bindTerms {ctx : Context} {level : Nat} (hin : ctx.Inside level)
    {terms terms' : List OrderTerm} {s s' : BindState} (h : bindTerms ctx terms s = .ok terms' s') :
    Nested ctx.config (partsTerms level terms) (partsTerms level terms') := by
  match terms with
  | [] =>
    obtain ⟨rfl, -⟩ := bindTerms_nil.1 h
    exact .nil
  | .mk e direction :: rest =>
    obtain ⟨_, _, _, he, hrest, rfl⟩ := bindTerms_cons.1 h
    exact (Expr.nested_bind hin he).append (nested_bindTerms hin hrest)
termination_by structural terms

theorem Source.nested_bind {ctx : Context} {level : Nat} (hin : ctx.Inside level)
    {table : Option ValuesTable} {source source' : Source} {s s' : BindState}
    (h : source.bind ctx table s = .ok source' s') :
    Nested ctx.config (source.parts level) (source'.parts level) := by
  match source with
  | .mk (.schema schema) name =>
    obtain ⟨rfl, -⟩ := Source.bind_schema.1 h
    exact .nil
  | .mk (.table table) name =>
    obtain ⟨rfl, -⟩ := Source.bind_table.1 h
    exact .nil
  | .mk (.values declared) name =>
    obtain ⟨rfl, -⟩ := Source.bind_values.1 h
    exact .table hin.depth _ _
  | .mk (.subquery query) name =>
    obtain ⟨_, hquery, rfl⟩ := Source.bind_subquery.1 h
    exact Query.nested_bind hin.scopes hquery
  | .mk (.fragment e) name =>
    obtain ⟨-, _, he, rfl⟩ := Source.bind_fragment.1 h
    exact Expr.nested_bind hin he
termination_by structural source

theorem nested_bindJoins {ctx : Context} {level : Nat} (hin : ctx.Inside level)
    {tables : List (Option ValuesTable)} {joins joins' : List Join} {s s' : BindState}
    (h : bindJoins ctx tables joins s = .ok joins' s') :
    Nested ctx.config (partsJoins level joins) (partsJoins level joins') := by
  match joins with
  | [] =>
    obtain ⟨rfl, -⟩ := bindJoins_nil.1 h
    exact .nil
  | .mk kind source on :: rest =>
    obtain ⟨_, _, _, _, _, hsource, hon, hrest, rfl⟩ := bindJoins_cons.1 h
    exact ((Source.nested_bind hin hsource).append (nested_bindOption hin hon)).append
      (nested_bindJoins hin hrest)
termination_by structural joins

/-- The queries in a query that is bound are bound one by one. -/
theorem Query.nested_bind {ctx : Context} {level : Nat} (hlevel : ctx.scopes.length = level)
    {query query' : Query} {s s' : BindState} (h : query.bind ctx s = .ok query' s') :
    Nested ctx.config (query.parts level) (query'.parts level) := by
  obtain ⟨hdepth, tables, scope, aliases, t, t', -, -, hclauses, -, -⟩ := Query.bind_eq_ok h
  rw [hlevel] at hdepth
  have hat : BoundAt ctx.config (level, query) (level, query') :=
    ⟨rfl, ctx, s, s', rfl, hlevel, h⟩
  have hin : (ctx.inside scope aliases).Inside level :=
    ⟨congrArg Nat.succ hlevel, hdepth⟩
  match query with
  | .mk source joins wheres select groupBy having orderBy limit offset distinct =>
    cases hclauses with
    | mk hselect hsource hjoins hwheres hgroupBy hhaving horderBy hlimit hoffset =>
      have hinteger :=
        queriesIn_partsOption_map ((queriesAt_typeBlind level).withType (.builtin .integer))
      have hparts := Source.nested_bind hin hsource
        |>.append (nested_bindJoins hin hjoins)
        |>.append (nested_bindWheres hin hwheres)
        |>.append ((nested_bindOption hin hselect).congr
          (queriesIn_partsOption_map (queriesAt_gathers level).normalize _))
        |>.append (nested_bindAll hin hgroupBy)
        |>.append (nested_bindAll hin hhaving)
        |>.append (nested_bindTerms hin horderBy)
        |>.append ((nested_bindOption hin hlimit).congr (hinteger _))
        |>.append ((nested_bindOption hin hoffset).congr (hinteger _))
      exact .query hdepth hparts hat
termination_by structural query

end

/-- The queries in a query that compiles and in what it compiles to. -/
theorem Query.nested_of_compile {catalog : Catalog} {config : Config} {query : Query}
    {c : CompiledQuery} (h : query.compile catalog config = .ok c) :
    Nested config (query.parts 0) (c.query.parts 0) := by
  obtain ⟨s, s', -, hbind, -⟩ := Query.compile_eq_ok h
  exact Query.nested_bind rfl hbind

end QueryCompiler
