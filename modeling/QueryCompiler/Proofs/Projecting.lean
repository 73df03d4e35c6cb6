import QueryCompiler.Proofs.Projecting.Positions
import QueryCompiler.Proofs.Recompilation

/-!
# Compiled projections

At every position of the projection of a compiled query stands the merged chain of what was written
there: nothing that was asked for is lost, nothing is added, and what stands together with merged
projections keeps its place.
-/

namespace QueryCompiler

variable {ctx : Context}

/-! ### Chains at one position -/

/-- The slot that a reference resolves to. -/
def ScopeStack.slot? (scopes : ScopeStack) (ref : SourceRef) : Option Slot :=
  (scopes.resolve ref).toOption.map Prod.fst

theorem Expr.BindsTo.prepared {e e' : Expr} (h : e.BindsTo ctx e') (hmerge : e.isMerge = false) :
    Prepared ctx.scopes.slot? (Expr.CompilesTo ctx) e e'.normalize := by
  obtain ⟨o, s, s', h⟩ := h
  by_cases hprojection : e.isProjection = true
  · cases e with
    | projection kind p =>
      obtain ⟨_, hp, rfl⟩ := Expr.bind_projection.1 h
      obtain ⟨-, slot, source, hresolve, -, rfl⟩ := Projection.bind_eq_ok hp
      have hslot : ctx.scopes.slot? p.source = some slot := by
        rw [ScopeStack.slot?, hresolve]
        rfl
      exact .projection hslot
    | _ => cases hprojection
  · rw [Bool.not_eq_true] at hprojection
    refine .other hprojection ?_ ⟨o, s, e', s', h, rfl⟩
    rw [isProjection_normalize ((isMerge_bind h).trans hmerge), isProjection_bind h, hprojection]

/-- What an expression compiles to is merged from its operands, each of them bound and prepared. -/
theorem Expr.CompilesTo.prepared {e c : Expr} (h : e.CompilesTo ctx c) :
    ∃ operands, List.Forall₂ (Prepared ctx.scopes.slot? (Expr.CompilesTo ctx)) e.operands operands ∧
      c.operands = mergeOperands operands := by
  obtain ⟨o, s, b, s', hbind, rfl⟩ := h
  refine ⟨_, List.forall₂_map_right_iff.2 ?_, operands_normalize b⟩
  have hoperands := (List.forall₂_and_left _ _).2
    ⟨fun f hf => isMerge_of_mem_operands (e := e) hf, operands_bind hbind⟩
  exact hoperands.imp fun f f' ⟨hmerge, hf⟩ => hf.prepared hmerge

/-- What an expression compiles to is its merged chain. -/
theorem Expr.CompilesTo.merged {e c : Expr} (h : e.CompilesTo ctx c) :
    Merged ctx.scopes.slot? (Expr.CompilesTo ctx) e.operands c.operands := by
  obtain ⟨operands, hoperands, hmerged⟩ := h.prepared
  rw [hmerged]
  exact merged_of_prepared hoperands

/-! ### The sources of a query -/

/-- The slot of a source that a reference in a query means, if no other query encloses it. -/
def Query.slot? (query : Query) : SourceRef → Option Slot
  | .position i => if i < query.sources.length then some ⟨0, i⟩ else none
  | .binding name => ((query.sources.map Source.name).idxOf? (some name)).map (Slot.mk 0)
  | .parentBinding _ => none

theorem names_of_declareSources {catalog : Catalog} {outer : ScopeStack} {scope scope' : Scope}
    {sources : List Source} {tables : List (Option ValuesTable)}
    (h : declareSources catalog outer scope sources = (.ok tables, scope')) :
    scope'.sources.map BoundSource.name =
      scope.sources.map BoundSource.name ++ sources.map Source.name := by
  induction sources generalizing scope tables with
  | nil =>
    cases h
    simp
  | cons source rest ih =>
    obtain ⟨shape, table, next, tables', -, hadd, hrest, -⟩ := declareSources_cons_eq_ok.1 h
    obtain ⟨-, rfl⟩ := add_eq_ok.1 hadd
    simp [ih hrest]

theorem Scope.Placed.position_lookup {scope : Scope} (h : scope.Placed) (name : String) :
    (scope.lookup name).map BoundSource.position =
      (scope.sources.map BoundSource.name).idxOf? (some name) := by
  rw [Scope.lookup, List.find?_eq_bind_findIdx?_getElem?, List.idxOf?, List.findIdx?_map]
  change _ = scope.sources.findIdx? fun source => source.name == some name
  cases hindex : scope.sources.findIdx? fun source => source.name == some name with
  | none => rfl
  | some i =>
    obtain ⟨hlt, -⟩ := List.findIdx?_eq_some_iff_getElem.1 hindex
    have hi : scope.sources[i]? = some scope.sources[i] := List.getElem?_eq_getElem hlt
    rw [Option.bind_some, hi, Option.map_some, h i _ hi]

/-- References resolve to the sources of the query in the order in which they are written. -/
theorem Query.slot?_eq {catalog : Catalog} {query : Query} {scope : Scope}
    {tables : List (Option ValuesTable)}
    (h : declareSources catalog [] .empty query.sources = (.ok tables, scope)) :
    ScopeStack.slot? [scope] = query.slot? := by
  have hnames : scope.sources.map BoundSource.name = query.sources.map Source.name :=
    names_of_declareSources h
  have hplaced := declareSources_placed Scope.empty_placed h
  funext ref
  cases ref with
  | position i =>
    have hlength : scope.sources.length = query.sources.length := by
      simpa using congrArg List.length hnames
    rw [Query.slot?, ← hlength, ScopeStack.slot?, ScopeStack.resolve, ScopeStack.lookupPosition,
      Scope.source?]
    split
    · rename_i source hsource
      rw [if_pos (List.getElem?_eq_some_iff.1 hsource).1]
      rfl
    · rename_i hnone
      rw [if_neg (Nat.not_lt_of_le (List.getElem?_eq_none_iff.1 hnone))]
      rfl
  | binding name =>
    rw [Query.slot?, ← hnames, ← hplaced.position_lookup, ScopeStack.slot?, ScopeStack.resolve,
      ScopeStack.lookupBinding, ScopeStack.findBinding, ScopeStack.findBinding]
    cases scope.lookup name <;> rfl
  | parentBinding name => rfl

/-! ### Compiled projections -/

/-- The context in which the clauses of a query are bound, as far as there is one. -/
def Context.clauses (ctx : Context) (query : Query) : Context :=
  ctx.inside (declareSources ctx.catalog ctx.scopes .empty query.sources).2
    ((AliasTable.collect query.select ctx.config.allowIdenticalAliases).toOption.getD default)

theorem Query.bind_clauses {query query' : Query} {s s' : BindState}
    (h : query.bind ctx s = .ok query' s') :
    (∃ tables, declareSources ctx.catalog ctx.scopes .empty query.sources =
      (.ok tables, (declareSources ctx.catalog ctx.scopes .empty query.sources).2)) ∧
    ∃ tables t t', ClausesBound (ctx.clauses query) tables t query query' t' := by
  obtain ⟨-, tables, scope, aliases, t, t', hdeclared, haliases, hclauses, -, -⟩ :=
    Query.bind_eq_ok h
  have hctx : ctx.clauses query = ctx.inside scope aliases := by
    rw [Context.clauses, hdeclared, haliases]
    rfl
  rw [hctx]
  exact ⟨⟨tables, by rw [hdeclared]⟩, tables, t, t', hclauses⟩

theorem compilesTo_of_bindOption {o : Bool} {select select' : Option Expr} {s s' : BindState}
    (h : bindOption ctx o select s = .ok select' s') :
    Option.Rel (Expr.CompilesTo ctx) select (select'.map Expr.normalize) := by
  cases select with
  | none =>
    obtain ⟨rfl, -⟩ := bindOption_none.1 h
    exact .none
  | some e =>
    obtain ⟨e', he, rfl⟩ := bindOption_some.1 h
    exact .some ⟨o, s, e', s', he, rfl⟩

/-- The projection of a query is bound in the context of the clauses, and then normalised. -/
theorem Query.ClausesBound.select_compilesTo {tables : List (Option ValuesTable)}
    {query query' : Query} {s s' : BindState} (h : ClausesBound ctx tables s query query' s') :
    Option.Rel (Expr.CompilesTo ctx) query.select query'.select := by
  cases h with
  | mk hselect => exact compilesTo_of_bindOption hselect

theorem Query.compilesTo_at? {catalog : Catalog} {config : Config} {query : Query}
    {c : CompiledQuery} (h : query.compile catalog config = .ok c) (path : List Nat) :
    Option.Rel (Expr.CompilesTo ((Context.top catalog config).clauses query))
      (query.select.bind (·.at? path)) (c.query.select.bind (·.at? path)) := by
  obtain ⟨s, s', -, hbind, -⟩ := Query.compile_eq_ok h
  obtain ⟨-, _, _, _, hclauses⟩ := Query.bind_clauses hbind
  exact rel_at? hclauses.select_compilesTo path

theorem Query.clauses_slot? {catalog : Catalog} {config : Config} {query : Query}
    {c : CompiledQuery} (h : query.compile catalog config = .ok c) :
    ((Context.top catalog config).clauses query).scopes.slot? = query.slot? := by
  obtain ⟨s, s', -, hbind, -⟩ := Query.compile_eq_ok h
  obtain ⟨⟨tables, hdeclared⟩, -⟩ := Query.bind_clauses hbind
  exact Query.slot?_eq hdeclared

/--
At every path in the projection of a compiled query, one merged chain stands for the chain that is
written there: there is one projection for every kind and source, which stands where the first of
them stood and has their fields in order of first occurrence; the same is asked of every source; and
every other operand survives in its place, bound and normalised. Nothing stands at other paths.
-/
theorem compile_projections (catalog : Catalog) (config : Config) (query : Query)
    (c : CompiledQuery) (h : query.compile catalog config = .ok c) (path : List Nat) :
    Option.Rel
      (fun e e' => Merged query.slot?
        (Expr.CompilesTo ((Context.top catalog config).clauses query)) e.operands e'.operands)
      (query.select.bind (·.at? path)) (c.query.select.bind (·.at? path)) := by
  rw [← Query.clauses_slot? h]
  have hat := Query.compilesTo_at? h path
  generalize query.select.bind _ = found, c.query.select.bind _ = found' at hat ⊢
  cases hat with
  | none => exact .none
  | some hfound => exact .some hfound.merged

/-- Posts with their titles and identifiers, asked for under both of their names. -/
def mergedPosts : Query :=
  .mk (.mk (.schema "posts") (some "p")) [] []
    (some (.merge
      (.merge (.projection .struct ⟨.position 0, .mk ["title"] [], none⟩)
        (.tuple [.param (.ofValue (.integer 7)),
          .merge (.projection .map ⟨.binding "p", .mk ["id"] [], none⟩)
            (.projection .map ⟨.position 0, .mk ["title", "id"] [], none⟩)]))
      (.projection .struct ⟨.binding "p", .mk ["id", "title"] [], none⟩)))
    [] [] [] none none false

/-- At the root two of three operands remain, and inside of the tuple one of two. -/
theorem compile_projections_mergedPosts :
    ∃ c, mergedPosts.compile postCatalog .default = .ok c ∧
      ((c.query.select.bind (·.at? [])).map fun e => e.operands.length) = some 2 ∧
      ((c.query.select.bind (·.at? [1])).map fun e => e.operands.length) = some 1 ∧
      ∀ path, Option.Rel
        (fun e e' => Merged mergedPosts.slot?
          (Expr.CompilesTo ((Context.top postCatalog .default).clauses mergedPosts))
          e.operands e'.operands)
        (mergedPosts.select.bind (·.at? path)) (c.query.select.bind (·.at? path)) :=
  ⟨_, rfl, rfl, rfl, compile_projections postCatalog .default mergedPosts _ rfl⟩

end QueryCompiler
