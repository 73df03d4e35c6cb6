import QueryCompiler.Proofs.Aliasing.Equality
import QueryCompiler.Proofs.Aliasing.Uses
import QueryCompiler.Proofs.Nesting
import QueryCompiler.Proofs.Numbering

/-!
# Aliases of compiled queries

In a query that compiles, and in what it compiles to, every query inside keeps to its own aliases:
its projection defines them at its outermost positions only, its other clauses define none, and
every reference is to one of them. A name is defined twice only where that is allowed, and then with
values that are the same as they are written.
-/

namespace QueryCompiler

/-! ### Definitions at outermost positions -/

def Expr.definition? : Expr → Option (String × Expr)
  | .aliased value name => some (name, value)
  | _ => none

/-- The aliases that are defined anywhere among some expressions. -/
def definitions (es : List Expr) : List (String × Expr) := es.filterMap Expr.definition?

/-- The aliases that a projection that may be missing defines at its outermost positions. -/
def selectDefinitions : Option Expr → List (String × Expr)
  | none => []
  | some e => e.outermostAliases

theorem definitions_append (es more : List Expr) :
    definitions (es ++ more) = definitions es ++ definitions more :=
  List.filterMap_append

theorem map_fst_definitions (es : List Expr) :
    (definitions es).map Prod.fst = (aliasUses es).filterMap AliasUse.defined? := by
  rw [definitions, aliasUses, List.map_filterMap, List.filterMap_filterMap]
  congr 1
  funext e
  cases e <;> rfl

theorem reference_mem_aliasUses {name : String} {es : List Expr} (h : .aliasRef name ∈ es) :
    .reference name ∈ aliasUses es :=
  List.mem_filterMap.2 ⟨_, h, rfl⟩

mutual

theorem outermostAliases_sublist (e : Expr) : e.outermostAliases.Sublist (definitions e.own) := by
  match e with
  | .aliased value name => exact .cons_cons _ (List.nil_sublist _)
  | .tuple items => exact outermostAliasesAll_sublist items
  | .mapping entries => exact outermostAliasesEntries_sublist entries
  | .merge left right =>
    have hown : definitions (Expr.merge left right).own =
        definitions left.own ++ definitions right.own := definitions_append left.own right.own
    rw [hown]
    exact (outermostAliases_sublist left).append (outermostAliases_sublist right)
  | .literal _ | .param _ | .field _ | .binding _ | .parentBinding _ | .operator _ _
  | .aggregate _ _ _ _ | .fragment _ _ _ | .cast _ _ _ | .subquery _ _ | .values _
  | .projection _ _ | .aliasRef _ | .jsonPath _ _ | .interval _ _ => exact List.nil_sublist _

theorem outermostAliasesAll_sublist (es : List Expr) :
    (outermostAliasesAll es).Sublist (definitions (ownAll es)) := by
  match es with
  | [] => exact List.nil_sublist _
  | e :: rest =>
    rw [outermostAliasesAll, ownAll, definitions_append]
    exact (outermostAliases_sublist e).append (outermostAliasesAll_sublist rest)

theorem outermostAliasesEntries_sublist (entries : List (String × Expr)) :
    (outermostAliasesEntries entries).Sublist (definitions (ownEntries entries)) := by
  match entries with
  | [] => exact List.nil_sublist _
  | (key, e) :: rest =>
    rw [outermostAliasesEntries, ownEntries, definitions_append]
    exact (outermostAliases_sublist e).append (outermostAliasesEntries_sublist rest)

end

theorem selectDefinitions_sublist (select : Option Expr) :
    (selectDefinitions select).Sublist (definitions (ownOption select)) := by
  cases select with
  | none => exact List.nil_sublist _
  | some e => exact outermostAliases_sublist e

theorem map_fst_selectDefinitions (select : Option Expr) :
    (selectDefinitions select).map Prod.fst = selectAliases select := by
  cases select <;> rfl

/-! ### Queries and their own aliases -/

/-- A query that keeps to its own aliases; what is inside its subqueries belongs to these. -/
structure Query.KeepsAliases (query : Query) : Prop where
  /-- The projection defines aliases at its outermost positions only. -/
  select : definitions (ownOption query.select) = selectDefinitions query.select
  /-- The other clauses, the sources among them, define none. -/
  clauses : definitions query.ownClauses = []
  /-- Every reference is to an alias of the projection. -/
  references (name : String) (h : .aliasRef name ∈ ownOption query.select ++ query.ownClauses) :
    name ∈ selectAliases query.select

theorem Query.keepsAliases {query : Query}
    (hselect : (aliasUses (ownOption query.select)).filterMap AliasUse.defined? =
      selectAliases query.select)
    (hclauses : (aliasUses query.ownClauses).filterMap AliasUse.defined? = [])
    (hreferences : ∀ name,
      .reference name ∈ aliasUses (ownOption query.select) ∨
        .reference name ∈ aliasUses query.ownClauses → name ∈ selectAliases query.select) :
    query.KeepsAliases where
  select := by
    -- definitions at other positions would make the list of all of them longer
    have hnames : (selectDefinitions query.select).map Prod.fst =
        (definitions (ownOption query.select)).map Prod.fst := by
      rw [map_fst_definitions, map_fst_selectDefinitions, hselect]
    have hlength := congrArg List.length hnames
    rw [List.length_map, List.length_map] at hlength
    exact ((selectDefinitions_sublist query.select).eq_of_length hlength).symm
  clauses := by
    rw [← map_fst_definitions, List.map_eq_nil_iff] at hclauses
    exact hclauses
  references name hname :=
    hreferences name ((List.mem_append.1 hname).imp reference_mem_aliasUses
      reference_mem_aliasUses)

/-! ### Names that are defined again -/

/--
Defining names succeeds only if the values of one name are all the same, those that the table has
already among them.
-/
theorem AliasTable.same_of_defineAll {table table' : AliasTable}
    {entries : List (String × Expr)} (h : table.defineAll entries = .ok table') :
    (∀ entry ∈ entries, ∀ value, table.resolve entry.1 = some value →
      value.same entry.2 = true) ∧
    entries.Pairwise fun entry entry' => entry.1 = entry'.1 → entry.2.same entry'.2 = true := by
  induction entries generalizing table with
  | nil => simp
  | cons entry rest ih =>
    obtain ⟨name, value⟩ := entry
    rw [defineAll] at h
    split at h
    · rename_i next hdefine
      obtain ⟨hrest, hpairs⟩ := ih h
      rw [define] at hdefine
      split at hdefine
      · rename_i existing hresolve
        split at hdefine
        · rename_i hsame
          cases hdefine
          rw [Bool.and_eq_true] at hsame
          refine ⟨List.forall_mem_cons.2 ⟨?_, hrest⟩, List.pairwise_cons.2 ⟨?_, hpairs⟩⟩
          · intro value' hvalue'
            rw [hresolve] at hvalue'
            cases hvalue'
            exact hsame.2
          · rintro entry' hentry' rfl
            exact Expr.same_euclidean existing hsame.2 (hrest entry' hentry' existing hresolve)
        · cases hdefine
      · rename_i hresolve
        cases hdefine
        refine ⟨List.forall_mem_cons.2 ⟨?_, ?_⟩, List.pairwise_cons.2 ⟨?_, hpairs⟩⟩
        · intro value' hvalue'
          rw [hresolve] at hvalue'
          cases hvalue'
        · intro entry' hentry' value' hvalue'
          refine hrest entry' hentry' value' ?_
          rw [resolve] at hvalue'
          rw [resolve, findEntry_append, hvalue']
          rfl
        · rintro entry' hentry' rfl
          refine hrest entry' hentry' value ?_
          rw [resolve] at hresolve
          rw [resolve, findEntry_append, hresolve]
          exact if_pos rfl
    · cases h

theorem AliasTable.same_of_collect {select : Option Expr} {allow : Bool} {table : AliasTable}
    (h : collect select allow = .ok table) :
    (selectDefinitions select).Pairwise fun entry entry' =>
      entry.1 = entry'.1 → entry.2.same entry'.2 = true := by
  cases select with
  | none => exact .nil
  | some e => exact (same_of_defineAll h).2

/-! ### Compiled queries -/

/-- What is true of the aliases of a query as it is written and as it is compiled. -/
structure AliasesKept (config : Config) (query query' : Query) : Prop where
  written : query.KeepsAliases
  compiled : query'.KeepsAliases
  names : selectAliases query'.select = selectAliases query.select
  /-- Where names may not be defined again, none is. -/
  distinct (h : config.allowIdenticalAliases = false) : (selectAliases query.select).Nodup
  /-- Names that are defined again have the same value as it is written. -/
  identical : (selectDefinitions query.select).Pairwise fun definition definition' =>
    definition.1 = definition'.1 → definition.2.same definition'.2 = true

theorem Query.aliasesKept_of_bind {ctx : Context} {query query' : Query} {s s' : BindState}
    (h : query.bind ctx s = .ok query' s') : AliasesKept ctx.config query query' := by
  obtain ⟨-, tables, scope, aliases, t, t', -, hcollect, hclauses, -, -⟩ := Query.bind_eq_ok h
  obtain ⟨hresolve, hdistinct⟩ := AliasTable.collect_eq_ok hcollect
  have hnames : selectAliases query'.select = selectAliases query.select := by
    cases hclauses with
    | mk hselect => exact selectAliases_bindOption hselect
  have hselect := hclauses.uses_select
  have hothers := hclauses.uses_clauses
  have hreferences : ∀ name, .reference name ∈ aliasUses (ownOption query.select) ∨
      .reference name ∈ aliasUses query.ownClauses → name ∈ selectAliases query.select :=
    fun name hname => (hresolve name).1
      (hname.elim (hselect.references name) (hothers.references name))
  refine ⟨Query.keepsAliases hselect.definitions hothers.definitions hreferences,
    Query.keepsAliases ?_ ?_ ?_, hnames, hdistinct, AliasTable.same_of_collect hcollect⟩
  · rw [hselect.kept, hnames]
    exact hselect.definitions
  · rw [hothers.kept]
    exact hothers.definitions
  · rw [hselect.kept, hothers.kept, hnames]
    exact hreferences

/--
In a query that compiles and in what it compiles to, the queries correspond one by one, and each
keeps to its own aliases.
-/
theorem compile_aliases (catalog : Catalog) (config : Config) (query : Query) (c : CompiledQuery)
    (h : query.compile catalog config = .ok c) :
    List.Forall₂ (fun written compiled => compiled.1 = written.1 ∧
      AliasesKept config written.2 compiled.2) query.queries c.query.queries := by
  refine (Query.nested_of_compile h).queries.imp ?_
  rintro written compiled ⟨hlevel, ctx, s, s', rfl, -, hbind⟩
  exact ⟨hlevel, Query.aliasesKept_of_bind hbind⟩

/-- The title of a post, twice under one name. -/
def headings : Expr :=
  .tuple [.aliased (.field ⟨.position 0, .schema "title", none⟩) "heading",
    .mapping [("again", .aliased (.field ⟨.position 0, .schema "title", none⟩) "heading")]]

/-- The headings of the posts with comments, sorted by their name. -/
def sortedPosts : Query :=
  .mk (.mk (.schema "posts") (some "p")) [] [.subquery .existence commentsOfPost] (some headings)
    [] [] [.mk (.aliasRef "heading") .asc] none none false

/-- Where a name may be defined again, the posts are sorted by one that is. -/
theorem compile_aliases_sortedPosts :
    ∃ c, sortedPosts.compile postCatalog ⟨1, true, true⟩ = .ok c ∧
      selectAliases sortedPosts.select = ["heading", "heading"] ∧
      List.Forall₂ (fun written compiled => compiled.1 = written.1 ∧
        AliasesKept ⟨1, true, true⟩ written.2 compiled.2) sortedPosts.queries c.query.queries := by
  have hcollect : AliasTable.collect (some headings)
      (Context.top postCatalog ⟨1, true, true⟩).config.allowIdenticalAliases =
        .ok ⟨[("heading", .field ⟨.position 0, .schema "title", none⟩)], true⟩ := by
    have hsame (f : FieldRef) : (Expr.field f).same (.field f) = true := by simp [Expr.same]
    change (AliasTable.empty true).defineAll [("heading", _), ("heading", _)] = _
    simp [AliasTable.defineAll, AliasTable.define, AliasTable.resolve, AliasTable.empty, findEntry,
      hsame]
  obtain ⟨bound, s', hbind⟩ : ∃ bound s', sortedPosts.bind (.top postCatalog ⟨1, true, true⟩)
      (BindState.start.note (.compileStarted 1 1)) = .ok bound s' := by
    rw [sortedPosts, Query.bind, hcollect]
    exact ⟨_, _, rfl⟩
  have hcompile := Query.compile_of_bind hbind (finish_of_bind rfl hbind)
  exact ⟨_, hcompile, rfl, compile_aliases postCatalog ⟨1, true, true⟩ sortedPosts _ hcompile⟩

end QueryCompiler
