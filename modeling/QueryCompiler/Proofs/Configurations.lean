import QueryCompiler.Proofs.Comparison.Simulation
import QueryCompiler.Proofs.Nesting
import QueryCompiler.Proofs.OwnParts

/-!
# What configurations permit

A configuration only rejects queries: what a query compiles to is the same under every configuration
that accepts it. Which queries it rejects, beyond those that no configuration accepts, is read off
the query as it is written, from the queries inside it one by one.
-/

namespace QueryCompiler

/-- A query that a configuration has no objection to. -/
structure Config.Permits (config : Config) (query : Query) : Prop where
  /-- No query in it is nested too deep. -/
  depth : query.nesting ≤ config.maxSubqueryDepth
  /-- Where names may not be defined again, the projection of no query in it defines one twice. -/
  aliases (h : config.allowIdenticalAliases = false) :
    ∀ inner ∈ query.queries, (selectAliases inner.2.select).Nodup
  /-- Where they are rejected, the filters of no query in it have aggregates of their own. -/
  wheres (h : config.rejectAggregatesInWhere = true) :
    ∀ inner ∈ query.queries, ∀ e ∈ inner.2.wheres, ∀ f ∈ e.own, f.isAggregate = false

/-- The configuration that permits every query that is not nested deeper than a limit. -/
def Config.permissive (limit : Nat) : Config := ⟨limit, true, false⟩

variable {catalog : Catalog} {config config' : Config}

/-! ### Queries that compile are permitted -/

theorem noAggregate_of_bindWheres {ctx : Context} {wheres wheres' : List Expr} {s s' : BindState}
    (hreject : ctx.config.rejectAggregatesInWhere = true)
    (h : bindWheres ctx wheres s = .ok wheres' s') :
    ∀ e ∈ wheres, ∀ f ∈ e.own, f.isAggregate = false := by
  induction wheres generalizing wheres' s with
  | nil => simp
  | cons e rest ih =>
    obtain ⟨hno, _, _, _, -, hrest, -⟩ := bindWheres_cons.1 h
    exact List.forall_mem_cons.2 ⟨containsAggregate_eq_false.1 (hno hreject), ih hrest⟩

theorem BoundAt.aliases {written bound : Nat × Query} (h : BoundAt config written bound)
    (hstrict : config.allowIdenticalAliases = false) :
    (selectAliases written.2.select).Nodup := by
  obtain ⟨-, ctx, s, s', rfl, -, hbind⟩ := h
  obtain ⟨-, _, _, aliases, _, _, -, hcollect, -⟩ := Query.bind_eq_ok hbind
  exact (AliasTable.collect_eq_ok hcollect).2 hstrict

theorem BoundAt.wheres {written bound : Nat × Query} (h : BoundAt config written bound)
    (hreject : config.rejectAggregatesInWhere = true) :
    ∀ e ∈ written.2.wheres, ∀ f ∈ e.own, f.isAggregate = false := by
  obtain ⟨level, query⟩ := written
  obtain ⟨level', query'⟩ := bound
  obtain ⟨-, ctx, s, s', rfl, -, hbind⟩ := h
  obtain ⟨-, _, scope, aliases, _, _, -, -, hclauses, -⟩ := Query.bind_eq_ok hbind
  cases hclauses with
  | mk _ _ _ hwheres =>
    exact noAggregate_of_bindWheres (by exact hreject) hwheres

/-- What holds of every query that is bound holds of all queries in a query that compiles. -/
theorem Nested.forall_written {written bound : List (Nat × Part)} (h : Nested config written bound)
    {P : Nat × Query → Prop} (hP : ∀ q q', BoundAt config q q' → P q) :
    ∀ inner ∈ queriesIn written, P inner := by
  have hqueries := h.queries
  generalize queriesIn written = queries, queriesIn bound = queries' at hqueries ⊢
  induction hqueries with
  | nil => simp
  | cons hfirst _ ih => exact List.forall_mem_cons.2 ⟨hP _ _ hfirst, ih⟩

theorem Config.permits_of_compile {query : Query} {c : CompiledQuery}
    (h : query.compile catalog config = .ok c) : config.Permits query where
  depth := nesting_le.2 (Query.nested_of_compile h).depth
  aliases hstrict := (Query.nested_of_compile h).forall_written fun _ _ hq => hq.aliases hstrict
  wheres hreject := (Query.nested_of_compile h).forall_written fun _ _ hq => hq.wheres hreject

/-! ### Permitted queries compile to the same -/

/-- A query bound under two configurations. -/
def Comparison.configured (config config' : Config) : Comparison where
  config := config
  config' := config'
  outer := []
  change := .none
  excused := fun _ => True
  congruent := ⟨id, id, id⟩
  accepts := fun h => h
  splices := fun _ => rfl
  mismatch := fun _ _ _ => trivial
  redefinition := fun _ _ => trivial
  tolerant := Or.inr fun _ => trivial

/-- A query compiles to the same under a second configuration that permits it. -/
theorem Config.Permits.compile {query : Query} {c : CompiledQuery}
    (hpermits : config'.Permits query) (h : query.compile catalog config = .ok c) :
    query.compile catalog config' = .ok c := by
  obtain ⟨s, s', hs, hbind, hfinish⟩ := Query.compile_eq_ok h
  have hadmits : (Comparison.configured config config').Admits (query.parts 0) := by
    rintro ⟨level, part⟩ hpart inner rfl
    have hinner : (level, inner) ∈ query.queries := mem_queriesIn.2 hpart
    refine ⟨fun _ => nesting_le.1 hpermits.depth _ hpart, fun _ => ?_, fun hreject => Or.inr ?_⟩
    · cases hallow : config'.allowIdenticalAliases with
      | true => exact Or.inl hallow
      | false => exact Or.inr (hpermits.aliases hallow _ hinner)
    · intro e he
      exact containsAggregate_eq_false.2 (hpermits.wheres hreject _ hinner e he)
  have haround : (Comparison.configured config config').Around 0 (.top catalog config)
      (.top catalog config') := ⟨rfl, rfl, rfl, rfl, rfl⟩
  have hsimulates := Comparison.simulates_query haround query hadmits
  let start := BindState.start.note (.compileStarted query.sources.length query.wheres.length)
  obtain ⟨_, t', hbind', rfl, hnext⟩ := hsimulates.ok s start c.query s' hs.symm hbind
  have hquery : query.change (Comparison.configured config config').start = query :=
    query.change_none
  have hbound : c.query.change (Comparison.configured config config').change = c.query :=
    c.query.change_none
  rw [hquery, hbound] at hbind'
  refine Query.compile_of_bind hbind' ?_
  rw [hnext]
  exact hfinish

/-! ### Exact filters -/

/--
A query compiles under a configuration exactly if it compiles to the same under the most permissive
configuration and is not too deep, defines no name again and has no aggregates in filters where the
configuration says so.
-/
theorem compile_configurations (catalog : Catalog) (config : Config) (query : Query)
    (c : CompiledQuery) (limit : Nat) (hlimit : query.nesting ≤ limit) :
    query.compile catalog config = .ok c ↔
      query.compile catalog (.permissive limit) = .ok c ∧ config.Permits query := by
  have hpermissive : (Config.permissive limit).Permits query :=
    ⟨hlimit, (nomatch ·), (nomatch ·)⟩
  constructor
  · intro h
    exact ⟨hpermissive.compile h, Config.permits_of_compile h⟩
  · rintro ⟨h, hpermits⟩
    exact hpermits.compile h

/-- With one level for subqueries, and nothing else allowed, the posts with comments compile. -/
theorem compile_configurations_commentedPosts :
    commentedPosts.nesting ≤ 1 ∧ ∃ c, commentedPosts.compile postCatalog ⟨1, false, true⟩ = .ok c ∧
      commentedPosts.compile postCatalog (.permissive 1) = .ok c ∧
      Config.Permits ⟨1, false, true⟩ commentedPosts :=
  ⟨by decide, _, rfl,
    (compile_configurations postCatalog ⟨1, false, true⟩ commentedPosts _ 1 (by decide)).1 rfl⟩

end QueryCompiler
