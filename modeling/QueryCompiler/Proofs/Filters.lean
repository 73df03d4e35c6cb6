import QueryCompiler.Proofs.Configurations
import QueryCompiler.Proofs.Redefinition

/-!
# Aggregates that filters lead to

An expression may refer to an alias, whose value may again refer to aliases, and so lead to an
aggregate without containing one. Where aggregates are rejected in filters, no filter of a compiled
query contains one, at any level; but a reference is accepted whatever it leads to. The filters of a
compiled query therefore lead to an aggregate exactly if an alias that they refer to does, as the
query is written.
-/

namespace QueryCompiler

/--
An expression contains an aggregate outside of subqueries, or refers there to an alias with a value
that leads to an aggregate in its turn.
-/
inductive Expr.LeadsToAggregate (definitions : List (String × Expr)) : Expr → Prop where
  | contains {e f : Expr} (hmem : f ∈ e.own) (haggregate : f.isAggregate = true) :
      Expr.LeadsToAggregate definitions e
  | refers {e value : Expr} {name : String} (hreference : .aliasRef name ∈ e.own)
      (hdefinition : (name, value) ∈ definitions)
      (hvalue : Expr.LeadsToAggregate definitions value) : Expr.LeadsToAggregate definitions e

/-- A filter of the query itself leads to an aggregate by the aliases of its projection. -/
def Query.FiltersLeadToAggregate (query : Query) : Prop :=
  ∃ e ∈ query.wheres, e.LeadsToAggregate (selectDefinitions query.select)

/-- A filter of the query itself refers to an alias that leads to an aggregate. -/
def Query.FilterAliasesLeadToAggregate (query : Query) : Prop :=
  ∃ e ∈ query.wheres, ∃ name, .aliasRef name ∈ e.own ∧
    (Expr.aliasRef name).LeadsToAggregate (selectDefinitions query.select)

theorem Expr.LeadsToAggregate.of_reference {definitions : List (String × Expr)} {e : Expr}
    {name : String} (hreference : .aliasRef name ∈ e.own)
    (h : (Expr.aliasRef name).LeadsToAggregate definitions) : e.LeadsToAggregate definitions := by
  cases h with
  | contains hmem haggregate =>
    cases List.mem_singleton.1 hmem
    cases haggregate
  | refers hmem hdefinition hvalue =>
    cases List.mem_singleton.1 hmem
    exact .refers hreference hdefinition hvalue

/-- Filters that contain no aggregates lead to one by their aliases only. -/
theorem Query.filtersLeadToAggregate_iff {query : Query}
    (h : ∀ e ∈ query.wheres, ∀ f ∈ e.own, f.isAggregate = false) :
    query.FiltersLeadToAggregate ↔ query.FilterAliasesLeadToAggregate := by
  constructor
  · rintro ⟨e, he, hleads⟩
    cases hleads with
    | contains hmem haggregate =>
      rw [h e he _ hmem] at haggregate
      cases haggregate
    | refers hreference hdefinition hvalue =>
      exact ⟨e, he, _, hreference, .refers (List.mem_singleton_self _) hdefinition hvalue⟩
  · rintro ⟨e, he, name, hreference, hleads⟩
    exact ⟨e, he, hleads.of_reference hreference⟩

/-! ### What binding keeps -/

/-- Expressions with the same uses of aliases, of which both or neither contain an aggregate. -/
structure Expr.LeadsAlike (e e' : Expr) : Prop where
  aggregates : e'.containsAggregate = e.containsAggregate
  uses : e'.ownUses = e.ownUses

namespace Expr.LeadsAlike

variable {e e' e'' : Expr}

theorem symm (h : e.LeadsAlike e') : e'.LeadsAlike e := ⟨h.aggregates.symm, h.uses.symm⟩

theorem trans (h : e.LeadsAlike e') (h' : e'.LeadsAlike e'') : e.LeadsAlike e'' :=
  ⟨h'.aggregates.trans h.aggregates, h'.uses.trans h.uses⟩

theorem exists_aggregate (h : e.LeadsAlike e') {f : Expr} (hmem : f ∈ e.own)
    (haggregate : f.isAggregate = true) : ∃ f' ∈ e'.own, f'.isAggregate = true := by
  have hcontains := h.aggregates
  have hany := List.any_eq_true.2 ⟨f, hmem, haggregate⟩
  rw [containsAggregate_eq, containsAggregate_eq, hany] at hcontains
  exact List.any_eq_true.1 hcontains

theorem reference (h : e.LeadsAlike e') {name : String} (hmem : .aliasRef name ∈ e.own) :
    .aliasRef name ∈ e'.own := by
  have huse : .reference name ∈ e.ownUses := reference_mem_aliasUses hmem
  rw [← h.uses] at huse
  obtain ⟨f, hf, hreference⟩ := List.mem_filterMap.1 huse
  cases f with
  | aliasRef other =>
    cases hreference
    exact hf
  | _ => cases hreference

end Expr.LeadsAlike

/-- What an expression leads to is seen from definitions and expressions that lead alike. -/
theorem Expr.LeadsToAggregate.transfer {definitions definitions' : List (String × Expr)}
    (hdefinitions : ∀ definition ∈ definitions, ∃ definition' ∈ definitions',
      definition'.1 = definition.1 ∧ definition.2.LeadsAlike definition'.2)
    {e e' : Expr} (h : e.LeadsToAggregate definitions) (halike : e.LeadsAlike e') :
    e'.LeadsToAggregate definitions' := by
  induction h generalizing e' with
  | contains hmem haggregate =>
    obtain ⟨f', hmem', haggregate'⟩ := halike.exists_aggregate hmem haggregate
    exact .contains hmem' haggregate'
  | refers hreference hdefinition _ ih =>
    obtain ⟨⟨_, value'⟩, hdefinition', rfl, hvalue⟩ := hdefinitions _ hdefinition
    exact .refers (halike.reference hreference) hdefinition' (ih hvalue)

theorem leadsAlike_bind {ctx : Context} {o : Bool} {e e' : Expr} {s s' : BindState}
    (h : e.bind ctx o s = .ok e' s') : e.LeadsAlike e' :=
  ⟨containsAggregate_bind h, (Expr.uses_bind h).kept⟩

theorem ownAggregates_gathers : Gathers fun e => e.own.filter Expr.isAggregate where
  merge left right := List.filter_append left.own right.own
  tuple items := by
    change (ownAll items).filter _ = _
    induction items with
    | nil => rfl
    | cons e rest ih => rw [ownAll, List.filter_append, ih, List.flatMap_cons]
  mapping entries := by
    change (ownEntries entries).filter _ = _
    induction entries with
    | nil => rfl
    | cons entry rest ih => rw [ownEntries, List.filter_append, ih, List.flatMap_cons]
  aliased h _ := h
  projection _ _ := rfl

theorem leadsAlike_normalize (e : Expr) : e.LeadsAlike e.normalize where
  aggregates := by
    have hown (e : Expr) : e.containsAggregate = !(e.own.filter Expr.isAggregate).isEmpty := by
      rw [containsAggregate_eq, Bool.eq_iff_iff]
      simp
    rw [hown, hown, ownAggregates_gathers.normalize e]
  uses := ownUses_gathers.normalize e

theorem leadsAlike_of_compiledDefinition {ctx : Context} {definition definition' : String × Expr}
    (h : CompiledDefinition ctx definition definition') :
    definition'.1 = definition.1 ∧ definition.2.LeadsAlike definition'.2 := by
  obtain ⟨bound, ⟨hname, _, _, hbind⟩, rfl⟩ := h
  exact ⟨hname, (leadsAlike_bind hbind).trans (leadsAlike_normalize bound.2)⟩

theorem leadsAlike_of_bindWheres {ctx : Context} {wheres wheres' : List Expr} {s s' : BindState}
    (h : bindWheres ctx wheres s = .ok wheres' s') :
    List.Forall₂ Expr.LeadsAlike wheres wheres' := by
  induction wheres generalizing wheres' s with
  | nil =>
    obtain ⟨rfl, -⟩ := bindWheres_nil.1 h
    exact .nil
  | cons e rest ih =>
    obtain ⟨-, _, _, _, he, hrest, rfl⟩ := bindWheres_cons.1 h
    exact .cons (leadsAlike_bind he) (ih hrest)

/-- The filters of a bound query lead where they lead as they are written. -/
theorem Query.filtersLeadToAggregate_bind {ctx : Context} {query query' : Query} {s s' : BindState}
    (h : query.bind ctx s = .ok query' s') :
    query'.FiltersLeadToAggregate ↔ query.FiltersLeadToAggregate := by
  obtain ⟨-, _, _, _, _, _, -, -, hclauses, -⟩ := Query.bind_eq_ok h
  cases hclauses with
  | mk hselect _ _ hwheres =>
    have hfilters := leadsAlike_of_bindWheres hwheres
    have hdefinitions := (selectDefinitions_of_bind hselect).imp
      fun _ _ => leadsAlike_of_compiledDefinition
    constructor
    · rintro ⟨e', he', hleads⟩
      obtain ⟨e, he, halike⟩ := exists_of_forall₂ hfilters he'
      refine ⟨e, he, hleads.transfer (fun definition' hdefinition' => ?_) halike.symm⟩
      obtain ⟨definition, hdefinition, hname, hvalue⟩ :=
        exists_of_forall₂ hdefinitions hdefinition'
      exact ⟨definition, hdefinition, hname.symm, hvalue.symm⟩
    · rintro ⟨e, he, hleads⟩
      obtain ⟨e', he', halike⟩ := exists_of_forall₂ hfilters.flip he
      exact ⟨e', he', hleads.transfer (fun _ => exists_of_forall₂ hdefinitions.flip) halike⟩

/-! ### Compiled queries -/

variable {catalog : Catalog} {config : Config}

theorem noAggregate_of_bind {ctx : Context} (hreject : ctx.config.rejectAggregatesInWhere = true)
    {query query' : Query} {s s' : BindState} (h : query.bind ctx s = .ok query' s') :
    (∀ e ∈ query.wheres, ∀ f ∈ e.own, f.isAggregate = false) ∧
      ∀ e ∈ query'.wheres, ∀ f ∈ e.own, f.isAggregate = false := by
  obtain ⟨-, _, _, _, _, _, -, -, hclauses, -⟩ := Query.bind_eq_ok h
  cases hclauses with
  | mk _ _ _ hwheres =>
    have hwritten := noAggregate_of_bindWheres (by exact hreject) hwheres
    refine ⟨hwritten, fun e' he' => ?_⟩
    obtain ⟨e, he, halike⟩ := exists_of_forall₂ (leadsAlike_of_bindWheres hwheres) he'
    rw [← containsAggregate_eq_false, halike.aggregates]
    exact containsAggregate_eq_false.2 (hwritten e he)

/--
Where aggregates are rejected in filters, no filter of a compiled query contains one, at whatever
level, and its filters lead to one exactly if an alias that a filter refers to as it is written
does.
-/
theorem compile_filters (catalog : Catalog) (config : Config) (query : Query) (c : CompiledQuery)
    (hreject : config.rejectAggregatesInWhere = true) (h : query.compile catalog config = .ok c) :
    List.Forall₂ (fun written compiled => compiled.1 = written.1 ∧
      (∀ e ∈ compiled.2.wheres, ∀ f ∈ e.own, f.isAggregate = false) ∧
      (compiled.2.FiltersLeadToAggregate ↔ written.2.FilterAliasesLeadToAggregate))
      query.queries c.query.queries := by
  refine (Query.nested_of_compile h).queries.imp ?_
  rintro written compiled ⟨hlevel, ctx, s, s', rfl, -, hbind⟩
  obtain ⟨hwritten, hcompiled⟩ := noAggregate_of_bind hreject hbind
  refine ⟨hlevel, hcompiled, ?_⟩
  rw [Query.filtersLeadToAggregate_bind hbind, Query.filtersLeadToAggregate_iff hwritten]

/-- The number of posts under two names, and their titles; the posts are filtered by one name. -/
def countedPosts (name : String) : Query :=
  .mk (.mk (.schema "posts") none) [] [.operator .greater [.aliasRef name, .literal (.integer 3)]]
    (some (.tuple [.aliased (.aggregate .countRows [] false none) "count",
      .aliased (.aliasRef "count") "total",
      .aliased (.field ⟨.position 0, .schema "title", none⟩) "heading"]))
    [] [] [] none none false

theorem countedPosts_leads (name : String) (h : name = "count" ∨ name = "total") :
    (countedPosts name).FilterAliasesLeadToAggregate := by
  have hcount : (Expr.aliasRef "count").LeadsToAggregate
      (selectDefinitions (countedPosts name).select) :=
    .refers (List.mem_singleton_self _) (List.mem_cons_self ..)
      (.contains (List.mem_cons_self ..) rfl)
  refine ⟨_, List.mem_singleton_self _, name, by simp [Expr.own, ownAll], ?_⟩
  rcases h with rfl | rfl
  · exact hcount
  · exact .refers (List.mem_singleton_self _) (.tail _ (List.mem_cons_self ..)) hcount

/-- The posts filtered by their number compile, by one name for it or by the other. -/
theorem compile_filters_countedPosts :
    Config.default.rejectAggregatesInWhere = true ∧
      ∃ c, (countedPosts "total").compile postCatalog .default = .ok c ∧
        List.Forall₂ (fun written compiled => compiled.1 = written.1 ∧
          (∀ e ∈ compiled.2.wheres, ∀ f ∈ e.own, f.isAggregate = false) ∧
          (compiled.2.FiltersLeadToAggregate ↔ written.2.FilterAliasesLeadToAggregate))
          (countedPosts "total").queries c.query.queries :=
  ⟨rfl, _, rfl, compile_filters postCatalog .default (countedPosts "total") _ rfl rfl⟩

/-- Filters that lead to aggregates are not rejected, though filters that contain them are. -/
theorem exists_filter_leading_to_aggregate :
    ¬ ∀ (catalog : Catalog) (config : Config) (query : Query) (c : CompiledQuery),
      config.rejectAggregatesInWhere = true → query.compile catalog config = .ok c →
        ∀ inner ∈ c.query.queries, ¬ inner.2.FiltersLeadToAggregate := by
  intro h
  obtain ⟨c, hcompile⟩ : ∃ c, (countedPosts "total").compile postCatalog .default = .ok c :=
    ⟨_, rfl⟩
  obtain ⟨s, s', -, hbind, -⟩ := Query.compile_eq_ok hcompile
  have hwritten : (countedPosts "total").FiltersLeadToAggregate := by
    obtain ⟨e, he, name, hreference, hleads⟩ := countedPosts_leads "total" (.inr rfl)
    exact ⟨e, he, hleads.of_reference hreference⟩
  have hmem : (0, c.query) ∈ c.query.queries := by
    rw [Query.queries, mem_queriesIn, Query.parts.eq_def]
    exact List.mem_cons_self ..
  exact h postCatalog .default _ c rfl hcompile _ hmem
    ((Query.filtersLeadToAggregate_bind hbind).2 hwritten)

end QueryCompiler
