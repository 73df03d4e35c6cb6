import QueryCompiler.Proofs.Comparison.Following
import QueryCompiler.Proofs.Spelling.Commuting
import QueryCompiler.Proofs.Spelling.Resolving

/-!
# Binding with names instead of positions

Binding a query in which references by position are written by name follows binding the query: step
by step it fails with the same error or gives the respelled result, at the same counter. In the
clauses of a query all its sources are in scope, so that there names mean what positions mean; each
subquery has sources of its own and is respelled by their names.
-/

namespace QueryCompiler

open BindM

namespace Spelling

/-! ### Contexts -/

/-- The contexts of the two runs around a query. -/
structure Around (ctx ctx' : Context) : Prop where
  catalog : ctx'.catalog = ctx.catalog
  config : ctx'.config = ctx.config
  scopes : ctx'.scopes = ctx.scopes
  /-- Whether two written definitions are the same may depend on how references are written. -/
  strict : ctx.config.allowIdenticalAliases = false
  placed : ∀ scope ∈ ctx.scopes, scope.Placed

/-- The contexts of the two runs in the clauses of a query with sources of some names. -/
structure Within (names : List (Option String)) (ctx ctx' : Context) : Prop extends
    Around ctx ctx' where
  require (name : String) : ctx'.aliases.require name = ctx.aliases.require name
  respects : ctx.scopes.Respects (named names)

/-- The clauses of a query, once its sources are declared and its aliases are collected. -/
theorem Around.inside {ctx ctx' : Context} (h : Around ctx ctx') {source : Source}
    {joins : List Join} {validated : List (Option ValuesTable)} {scope : Scope}
    (hdeclared : declareSources ctx.catalog ctx.scopes .empty
      (source :: joins.map Join.source) = (.ok validated, scope)) (aliases : AliasTable) :
    Within (sourceNames source joins) (ctx.inside scope aliases)
      (ctx'.inside scope (aliases.respell .named (sourceNames source joins))) := by
  have hplaced : scope.Placed := declareSources_placed Scope.empty_placed hdeclared
  have hempty : Scope.empty.Distinct := by simp [Scope.Distinct, Scope.empty]
  obtain ⟨hdistinct, hnames⟩ := declareSources_distinct hempty hdeclared
  refine ⟨⟨h.catalog, h.config, ?_, h.strict, ?_⟩, ?_, ?_⟩
  · exact congrArg (scope :: ·) h.scopes
  · exact List.forall_mem_cons.2 ⟨hplaced, h.placed⟩
  · exact aliases.require_respell .named _
  · have hrespects := Scope.respects_named hplaced hdistinct ctx.scopes
    rwa [hnames] at hrespects

/-! ### Steps -/

section

variable {α β : Type} {names : List (Option String)} {ctx ctx' : Context}

/-- A step of the second run with the results of the first, up to `R`, and with its errors. -/
abbrev Tracks (R : α → β → Prop) (m : BindM α) (m' : BindM β) : Prop :=
  Follows 0 (fun _ => False) R m m'

theorem tracks_checked {ε : Type} {wrap : ε → CompileError} {x : Except ε α} {x' : Except ε β}
    {f : α → β} (h : x' = x.map f) :
    Tracks (fun a b => b = f a) (ofExcept wrap x) (ofExcept wrap x') := by
  rw [h]
  exact .ofExcept (.map x f)

theorem tracks_assign (p : Param) : Tracks (fun a b => b = a) p.assign p.assign := by
  refine (Follows.takeIndices 1).bind ?_
  rintro first _ rfl
  exact .pure rfl

theorem tracks_assignTable (write : SourceRef → SourceRef) (table : ValuesTable) :
    Tracks (fun a b => b = a.respell write) table.assign (table.respell write).assign := by
  refine (Follows.takeIndices table.paramCount).bind ?_
  rintro first _ rfl
  exact .pure rfl

/-- Arguments that are no expressions hold no references, or are refused. -/
theorem tracks_assignArg (arg : FragmentArg) :
    Tracks (fun a b => b = a.respell named names) arg.inlined.assign
      (arg.respell named names).inlined.assign := by
  rw [inlined_respell]
  obtain ⟨role, e⟩ := arg.inlined
  cases role with
  | splice =>
    cases e with
    | param p =>
      refine (tracks_assign p).bind ?_
      rintro p' _ rfl
      exact .pure rfl
    | _ => exact .pure rfl
  | parameter | identifier | constant => exact .pure rfl

theorem tracks_bindProjection (h : Within names ctx ctx') (p : Projection) :
    Tracks (fun a b => b = a.respell (named names)) (p.bind ctx)
      ((p.respell (named names)).bind ctx') := by
  rw [Projection.bind, Projection.bind, h.catalog, h.scopes]
  have hresolve := h.respects p.source
  rw [Projection.respell, hresolve]
  refine (Follows.ofExcept (.refl _)).bind ?_
  rintro ⟨slot, source⟩ _ rfl
  dsimp only
  split
  · exact (follows_checkFieldSet _ _ ctx.catalog _ p.set).bind fun _ _ _ => .pure rfl
  · exact .pure rfl

/-- The projections that a query binds have slots, by which they are merged. -/
theorem normalize_bound (hplaced : ∀ scope ∈ ctx.scopes, scope.Placed) {select bound : Option Expr}
    {s t : BindState} (h : bindOption ctx true select s = .ok bound t)
    (names : List (Option String)) :
    (respellOption named names bound).map Expr.normalize =
      respellOption named names (bound.map Expr.normalize) := by
  have hsettled := settledOption_of_bindOption ctx.at_own hplaced h
  cases bound with
  | none => rfl
  | some e =>
    cases hsettled with
    | some he => exact congrArg some (he.normalize_respell hplaced)

theorem name_of_bind {validated : Option ValuesTable} {source source' : Source} {s t : BindState}
    (h : source.bind ctx validated s = .ok source' t) : source'.name = source.name :=
  have hredeclares : source.Redeclares ctx.catalog validated source' := redeclares_of_bind h
  hredeclares.1

theorem names_of_bindJoins {validated : List (Option ValuesTable)} {joins joins' : List Join}
    {s t : BindState} (h : bindJoins ctx validated joins s = .ok joins' t) :
    (joins'.map Join.source).map Source.name = (joins.map Join.source).map Source.name := by
  induction joins generalizing validated joins' s with
  | nil =>
    obtain ⟨rfl, -⟩ := bindJoins_nil.1 h
    rfl
  | cons join rest ih =>
    obtain ⟨kind, source, on⟩ := join
    obtain ⟨source', _, _, _, rest', hsource, -, hrest, rfl⟩ := bindJoins_cons.1 h
    exact congrArg₂ List.cons (name_of_bind hsource) (ih hrest)

theorem map_withType_respell (t : ResolvedType) (e : Option Expr) :
    (respellOption named names e).map (Expr.withType t) =
      respellOption named names (e.map (Expr.withType t)) := by
  cases e with
  | none => rfl
  | some e => exact congrArg some (withType_respell named names t e)

end

/-! ### The induction -/

mutual

theorem tracks_bind {names : List (Option String)} {ctx ctx' : Context} (h : Within names ctx ctx')
    (o : Bool) (e : Expr) :
    Tracks (fun a b => b = a.respell named names) (e.bind ctx o)
      ((e.respell named names).bind ctx' o) := by
  match e with
  | .literal v => exact .pure rfl
  | .param p =>
    refine (tracks_assign p).bind ?_
    rintro p' _ rfl
    exact .pure rfl
  | .field f =>
    rw [Expr.respell, Expr.bind, Expr.bind, h.scopes]
    refine (tracks_checked (bindField_respell h.respects f)).bind ?_
    rintro g _ rfl
    exact .pure rfl
  | .binding r =>
    rw [Expr.respell, Expr.bind, Expr.bind, h.scopes]
    refine (Follows.ofExcept (.refl _)).bind ?_
    rintro found _ rfl
    exact .pure rfl
  | .parentBinding r =>
    rw [Expr.respell, Expr.bind, Expr.bind, h.scopes]
    refine (Follows.ofExcept (.refl _)).bind ?_
    rintro found _ rfl
    exact .pure rfl
  | .operator op operands =>
    rw [Expr.respell, Expr.bind, Expr.bind, checkOperands_respell]
    refine (Follows.ofExcept (.refl _)).bind fun _ _ _ => ?_
    refine (tracks_bindAll h false operands).bind ?_
    rintro operands' _ rfl
    refine .pure ?_
    rw [propagateTypes_respell, Expr.respell]
  | .aggregate kind args distinct filter =>
    rw [Expr.respell, Expr.bind, Expr.bind, checkArguments_respell]
    refine (Follows.ofExcept (.refl _)).bind fun _ _ _ => ?_
    refine (tracks_bindAll h false args).bind ?_
    rintro args' _ rfl
    refine (tracks_bindOption h false filter).bind ?_
    rintro filter' _ rfl
    exact .pure rfl
  | .fragment text parts args =>
    rw [Expr.respell, Expr.bind, Expr.bind]
    refine (tracks_checked (process_respell named names text parts args)).bind ?_
    rintro processed _ rfl
    refine (tracks_bindArgs h args).bind ?_
    rintro args' _ rfl
    exact .pure rfl
  | .cast value target resolved =>
    rw [Expr.respell, Expr.bind, Expr.bind, h.scopes]
    refine (tracks_bind h false value).bind ?_
    rintro value' _ rfl
    rw [checkCastOperand_respell]
    refine (Follows.ofExcept (.refl _)).bind fun _ _ _ => ?_
    refine (tracks_checked (resolveType_respell h.respects target)).bind ?_
    rintro found _ rfl
    refine .pure ?_
    rw [withCastType_respell, Expr.respell]
  | .subquery kind query =>
    refine (tracks_query h.toAround query).bind ?_
    rintro query' _ rfl
    exact .pure rfl
  | .values table =>
    rw [Expr.respell, Expr.bind, Expr.bind, h.catalog, h.scopes]
    refine (tracks_checked (check_respell h.respects ctx.catalog table)).bind ?_
    rintro table' _ rfl
    refine (tracks_assignTable _ table').bind ?_
    rintro table'' _ rfl
    exact .pure rfl
  | .projection kind p =>
    refine (tracks_bindProjection h p).bind ?_
    rintro p' _ rfl
    exact .pure rfl
  | .merge left right =>
    refine (tracks_bind h o left).bind ?_
    rintro left' _ rfl
    refine (tracks_bind h o right).bind ?_
    rintro right' _ rfl
    exact .pure rfl
  | .aliased value name =>
    cases o with
    | false => exact .throw _
    | true =>
      refine (tracks_bind h false value).bind ?_
      rintro value' _ rfl
      exact .pure rfl
  | .aliasRef name =>
    rw [Expr.respell, Expr.bind, Expr.bind, h.require]
    exact (Follows.ofExcept (.refl _)).bind fun _ _ _ => .pure rfl
  | .jsonPath base path =>
    refine (tracks_bindAccess h base).bind ?_
    rintro ⟨base', steps⟩ _ rfl
    refine (tracks_bindPath h path).bind ?_
    rintro path' _ rfl
    refine .pure ?_
    rw [Expr.respell, respellPath_append]
  | .interval count unit =>
    refine (tracks_bind h false count).bind ?_
    rintro count' _ rfl
    refine .pure ?_
    rw [withType_respell, Expr.respell]
  | .tuple items =>
    refine (tracks_bindAll h o items).bind ?_
    rintro items' _ rfl
    exact .pure rfl
  | .mapping entries =>
    refine (tracks_bindEntries h o entries).bind ?_
    rintro entries' _ rfl
    exact .pure rfl
termination_by structural e

theorem tracks_bindAccess {names : List (Option String)} {ctx ctx' : Context}
    (h : Within names ctx ctx') (e : Expr) :
    Tracks (fun a b => b = (a.1.respell named names, respellPath named names a.2))
      (e.bindAccess ctx) ((e.respell named names).bindAccess ctx') := by
  match e with
  | .jsonPath base path =>
    refine (tracks_bindAccess h base).bind ?_
    rintro ⟨base', steps⟩ _ rfl
    refine (tracks_bindPath h path).bind ?_
    rintro path' _ rfl
    refine .pure ?_
    rw [respellPath_append]
  | .field f =>
    rw [Expr.respell, Expr.bindAccess, Expr.bindAccess, h.scopes]
    refine (tracks_checked (bindField_respell h.respects f)).bind ?_
    rintro g _ rfl
    exact .pure rfl
  | .projection kind p => cases kind <;> exact .throw _
  | .literal _ | .param _ | .binding _ | .parentBinding _ | .operator _ _ | .aggregate _ _ _ _
  | .fragment _ _ _ | .cast _ _ _ | .subquery _ _ | .values _ | .merge _ _
  | .aliased _ _ | .aliasRef _ | .interval _ _ | .tuple _ | .mapping _ => exact .throw _
termination_by structural e

theorem tracks_bindAll {names : List (Option String)} {ctx ctx' : Context}
    (h : Within names ctx ctx') (o : Bool) (es : List Expr) :
    Tracks (fun a b => b = respellAll named names a) (bindAll ctx o es)
      (bindAll ctx' o (respellAll named names es)) := by
  match es with
  | [] => exact .pure rfl
  | e :: rest =>
    refine (tracks_bind h o e).bind ?_
    rintro e' _ rfl
    refine (tracks_bindAll h o rest).bind ?_
    rintro rest' _ rfl
    exact .pure rfl
termination_by structural es

theorem tracks_bindEntries {names : List (Option String)} {ctx ctx' : Context}
    (h : Within names ctx ctx') (o : Bool) (entries : List (String × Expr)) :
    Tracks (fun a b => b = respellEntries named names a) (bindEntries ctx o entries)
      (bindEntries ctx' o (respellEntries named names entries)) := by
  match entries with
  | [] => exact .pure rfl
  | (key, e) :: rest =>
    refine (tracks_bind h o e).bind ?_
    rintro e' _ rfl
    refine (tracks_bindEntries h o rest).bind ?_
    rintro rest' _ rfl
    exact .pure rfl
termination_by structural entries

theorem tracks_bindOption {names : List (Option String)} {ctx ctx' : Context}
    (h : Within names ctx ctx') (o : Bool) (e : Option Expr) :
    Tracks (fun a b => b = respellOption named names a) (bindOption ctx o e)
      (bindOption ctx' o (respellOption named names e)) := by
  match e with
  | none => exact .pure rfl
  | some e =>
    refine (tracks_bind h o e).bind ?_
    rintro e' _ rfl
    exact .pure rfl
termination_by structural e

theorem tracks_bindArgs {names : List (Option String)} {ctx ctx' : Context}
    (h : Within names ctx ctx') (args : List FragmentArg) :
    Tracks (fun a b => b = respellArgs named names a) (bindArgs ctx args)
      (bindArgs ctx' (respellArgs named names args)) := by
  match args with
  | [] => exact .pure rfl
  | .mk .parameter e :: rest =>
    refine (tracks_bind h false e).bind ?_
    rintro e' _ rfl
    refine (tracks_bindArgs h rest).bind ?_
    rintro rest' _ rfl
    exact .pure rfl
  | .mk .identifier e :: rest | .mk .constant e :: rest | .mk .splice e :: rest =>
    refine (tracks_assignArg _).bind ?_
    rintro arg _ rfl
    refine (tracks_bindArgs h rest).bind ?_
    rintro rest' _ rfl
    exact .pure (by simp only [respellArgs_eq_map, List.map_cons])
termination_by structural args

theorem tracks_bindPath {names : List (Option String)} {ctx ctx' : Context}
    (h : Within names ctx ctx') (path : List PathStep) :
    Tracks (fun a b => b = respellPath named names a) (bindPath ctx path)
      (bindPath ctx' (respellPath named names path)) := by
  match path with
  | [] => exact .pure rfl
  | .computed e :: rest =>
    refine (tracks_bind h false e).bind ?_
    rintro e' _ rfl
    refine (tracks_bindPath h rest).bind ?_
    rintro rest' _ rfl
    exact .pure rfl
  | .key _ :: rest | .index _ :: rest =>
    refine (tracks_bindPath h rest).bind ?_
    rintro rest' _ rfl
    exact .pure rfl
termination_by structural path

theorem tracks_bindWheres {names : List (Option String)} {ctx ctx' : Context}
    (h : Within names ctx ctx') (wheres : List Expr) :
    Tracks (fun a b => b = respellAll named names a) (bindWheres ctx wheres)
      (bindWheres ctx' (respellAll named names wheres)) := by
  match wheres with
  | [] => exact .pure rfl
  | e :: rest =>
    rw [respellAll, bindWheres, bindWheres, containsAggregate_respell, h.config]
    split
    · exact .throw _
    · refine (tracks_bind h false e).bind ?_
      rintro e' _ rfl
      refine (tracks_bindWheres h rest).bind ?_
      rintro rest' _ rfl
      exact .pure rfl
termination_by structural wheres

theorem tracks_bindTerms {names : List (Option String)} {ctx ctx' : Context}
    (h : Within names ctx ctx') (terms : List OrderTerm) :
    Tracks (fun a b => b = respellTerms named names a) (bindTerms ctx terms)
      (bindTerms ctx' (respellTerms named names terms)) := by
  match terms with
  | [] => exact .pure rfl
  | .mk e direction :: rest =>
    refine (tracks_bind h false e).bind ?_
    rintro e' _ rfl
    refine (tracks_bindTerms h rest).bind ?_
    rintro rest' _ rfl
    exact .pure rfl
termination_by structural terms

theorem tracks_source {names : List (Option String)} {ctx ctx' : Context}
    (h : Within names ctx ctx') (validated : Option ValuesTable) (source : Source) :
    Tracks (fun a b => b = a.respell named names) (source.bind ctx validated)
      ((source.respell named names).bind ctx' validated) := by
  match source with
  | .mk (.schema _) _ | .mk (.table _) _ => exact .pure rfl
  | .mk (.values table) name =>
    have hassign : Tracks (fun a b => b = a) (validated.getD table).assign
        (validated.getD table).assign := by
      refine (Follows.takeIndices _).bind ?_
      rintro first _ rfl
      exact .pure rfl
    refine hassign.bind ?_
    rintro table' _ rfl
    exact .pure rfl
  | .mk (.subquery query) name =>
    refine (tracks_query h.toAround query).bind ?_
    rintro query' _ rfl
    exact .pure rfl
  | .mk (.fragment e) name =>
    rw [Source.respell, Source.bind, Source.bind, isFragment_respell, kindName_respell]
    split
    · refine (tracks_bind h false e).bind ?_
      rintro e' _ rfl
      exact .pure rfl
    · exact .throw _
termination_by structural source

theorem tracks_bindJoins {names : List (Option String)} {ctx ctx' : Context}
    (h : Within names ctx ctx') (validated : List (Option ValuesTable)) (joins : List Join) :
    Tracks (fun a b => b = respellJoins named names a) (bindJoins ctx validated joins)
      (bindJoins ctx' validated (respellJoins named names joins)) := by
  match joins with
  | [] => exact .pure rfl
  | .mk kind source on :: rest =>
    refine (tracks_source h _ source).bind ?_
    rintro source' _ rfl
    refine (tracks_bindOption h false on).bind ?_
    rintro on' _ rfl
    refine (tracks_bindJoins h _ rest).bind ?_
    rintro rest' _ rfl
    exact .pure rfl
termination_by structural joins

/-- Where no alias may be defined again, naming references tracks binding a query. -/
theorem tracks_query {ctx ctx' : Context} (h : Around ctx ctx') (query : Query) :
    Tracks (fun a b => b = a.named) (query.bind ctx) (query.named.bind ctx') := by
  match query with
  | .mk source joins wheres select groupBy having orderBy limit offset distinct =>
    obtain ⟨_, _, _, aliases'⟩ := ctx'
    cases h.catalog
    cases h.config
    cases h.scopes
    -- sources are declared by what is not respelled, so that both runs have one scope
    have hsources := declareSources_respell named (sourceNames source joins) ctx.catalog ctx.scopes
      .empty (source :: joins.map Join.source)
    rw [List.map_cons, ← map_source_respellJoins] at hsources
    rw [Query.named, Query.respell, Query.bind, Query.bind]
    simp only [hsources]
    split
    · exact .throw _
    refine (Follows.note _ _).bind fun _ _ _ => .finallyNote ?_
    generalize hdeclared : declareSources ctx.catalog ctx.scopes .empty
      (source :: joins.map Join.source) = found
    obtain ⟨declared, scope⟩ := found
    cases declared with
    | error e => exact .throw _
    | ok validated =>
      refine (Follows.pure rfl).bind ?_
      rintro _ _ rfl
      rw [h.strict]
      refine (tracks_checked
        (AliasTable.collect_respell named (sourceNames source joins) select)).bind ?_
      rintro aliases _ rfl
      refine (Follows.note _ _).bind fun _ _ _ => ?_
      have hinside := h.inside hdeclared aliases
      -- the projection is normalised after it is bound, when merging goes by slots
      refine ((tracks_bindOption hinside true select).and_of_ok fun _ _ _ hselect =>
        normalize_bound hinside.placed hselect (sourceNames source joins)).bind ?_
      rintro select' _ ⟨rfl, hnormal⟩
      refine ((tracks_source hinside _ source).and_of_ok fun _ _ _ => name_of_bind).bind ?_
      rintro source' _ ⟨rfl, hname⟩
      refine ((tracks_bindJoins hinside _ joins).and_of_ok fun _ _ _ => names_of_bindJoins).bind ?_
      rintro joins' _ ⟨rfl, hnames⟩
      refine (tracks_bindWheres hinside wheres).bind ?_
      rintro wheres' _ rfl
      refine (tracks_bindAll hinside false groupBy).bind ?_
      rintro groupBy' _ rfl
      refine (tracks_bindAll hinside false having).bind ?_
      rintro having' _ rfl
      refine (tracks_bindTerms hinside orderBy).bind ?_
      rintro orderBy' _ rfl
      refine (tracks_bindOption hinside false limit).bind ?_
      rintro limit' _ rfl
      refine (tracks_bindOption hinside false offset).bind ?_
      rintro offset' _ rfl
      refine (Follows.noteAll _ _).bind fun _ _ _ => ?_
      refine Follows.get.bind fun _ _ _ => (Follows.note _ _).bind fun _ _ _ => .pure ?_
      -- the bound query is respelled by the names of its own sources, which are the same
      have hbound : sourceNames source' joins' = sourceNames source joins :=
        congrArg₂ List.cons hname hnames
      rw [Query.named, Query.respell, hbound, hnormal, map_withType_respell, map_withType_respell]
termination_by structural query

end

end Spelling

end QueryCompiler
