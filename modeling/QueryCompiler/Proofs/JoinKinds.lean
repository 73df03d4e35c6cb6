import QueryCompiler.Proofs.Numbering

/-!
# Kinds of joins

A compilation takes the kinds of the joins over as they are written and asks for them nowhere:
wherever a query stands, with other kinds on its joins it is bound in the same way. The compiled
query differs in these kinds, and hence in its cache key, and in nothing else.
-/

namespace QueryCompiler

/-! ### Queries with other joins -/

def Join.withKind (kind : JoinKind) : Join → Join
  | .mk _ source on => .mk kind source on

/-- The joins with other kinds, each with the one for its place. -/
def joinsWithKinds (kinds : Nat → JoinKind) (joins : List Join) : List Join :=
  joins.mapIdx fun index join => join.withKind (kinds index)

/-- The query with other kinds on its own joins. -/
def Query.withKinds (kinds : Nat → JoinKind) : Query → Query
  | .mk source joins wheres select groupBy having orderBy limit offset distinct =>
    .mk source (joinsWithKinds kinds joins) wheres select groupBy having orderBy limit offset
      distinct

/-- The compiled query with other kinds on its own joins, which its cache key shows. -/
def CompiledQuery.withKinds (kinds : Nat → JoinKind) (c : CompiledQuery) : CompiledQuery :=
  ⟨c.query.withKinds kinds, c.params, (c.query.withKinds kinds).cacheKey⟩

section

variable (kinds : Nat → JoinKind)

@[simp] theorem joinsWithKinds_cons (kind : JoinKind) (source : Source) (on : Option Expr)
    (rest : List Join) : joinsWithKinds kinds (.mk kind source on :: rest) =
      .mk (kinds 0) source on :: joinsWithKinds (fun index => kinds (index + 1)) rest := by
  rw [joinsWithKinds, List.mapIdx_cons]
  rfl

@[simp] theorem length_joinsWithKinds (joins : List Join) :
    (joinsWithKinds kinds joins).length = joins.length :=
  List.length_mapIdx

theorem map_source_joinsWithKinds (joins : List Join) :
    (joinsWithKinds kinds joins).map Join.source = joins.map Join.source := by
  induction joins generalizing kinds with
  | nil => rfl
  | cons join rest ih =>
    obtain ⟨kind, source, on⟩ := join
    rw [joinsWithKinds_cons, List.map_cons, List.map_cons, ih]
    rfl

@[simp] theorem Query.sources_withKinds (query : Query) :
    (query.withKinds kinds).sources = query.sources := by
  obtain ⟨source, joins, wheres, select, groupBy, having, orderBy, limit, offset, distinct⟩ := query
  rw [Query.withKinds, Query.sources, Query.sources, map_source_joinsWithKinds]

@[simp] theorem Query.wheres_withKinds (query : Query) :
    (query.withKinds kinds).wheres = query.wheres := by
  cases query
  rfl

/-! ### Parameters -/

theorem claims_joinsWithKinds (joins : List Join) :
    claimsJoins (joinsWithKinds kinds joins) = claimsJoins joins := by
  induction joins generalizing kinds with
  | nil => rfl
  | cons join rest ih =>
    obtain ⟨kind, source, on⟩ := join
    rw [joinsWithKinds_cons, claimsJoins, claimsJoins, ih]

theorem Query.boundParams_withKinds (query : Query) (count : Nat) :
    (query.withKinds kinds).boundParams count = query.boundParams count := by
  obtain ⟨source, joins, wheres, select, groupBy, having, orderBy, limit, offset, distinct⟩ := query
  rw [Query.boundParams, Query.boundParams, Query.withKinds, Query.claims, Query.claims,
    claims_joinsWithKinds]

/-! ### Binding -/

theorem BindM.map_apply {α β : Type} (f : α → β) (m : BindM α) (s : BindState) :
    (f <$> m) s = match m s with
      | .ok a t => .ok (f a) t
      | .error e t => .error e t := by
  change EStateM.map f m s = _
  rw [EStateM.map]
  cases m s <;> rfl

theorem BindM.finallyNote_map {α β : Type} (f : α → β) (event : Event) (m : BindM α) :
    finallyNote event (f <$> m) = f <$> finallyNote event m := by
  funext s
  simp only [finallyNote, map_apply]
  cases m s <;> rfl

theorem bindJoins_withKinds (ctx : Context) (validated : List (Option ValuesTable))
    (joins : List Join) : bindJoins ctx validated (joinsWithKinds kinds joins) =
      joinsWithKinds kinds <$> bindJoins ctx validated joins := by
  induction joins generalizing kinds validated with
  | nil => rfl
  | cons join rest ih =>
    obtain ⟨kind, source, on⟩ := join
    simp only [joinsWithKinds_cons, bindJoins, ih, map_bind, bind_map_left, map_pure]

/-- In whatever context a query is bound, the kinds of its joins may as well be changed after. -/
theorem Query.bind_withKinds (ctx : Context) (query : Query) :
    (query.withKinds kinds).bind ctx = Query.withKinds kinds <$> query.bind ctx := by
  obtain ⟨source, joins, wheres, select, groupBy, having, orderBy, limit, offset, distinct⟩ := query
  rw [Query.withKinds, Query.bind, Query.bind, map_source_joinsWithKinds]
  dsimp only
  split
  · rfl
  · simp only [bindJoins_withKinds, map_bind, bind_map_left, map_pure, length_joinsWithKinds,
      ← BindM.finallyNote_map]
    rfl

/-! ### Compiling -/

/-- With other kinds on its joins, a query fails as it does, or compiles to the same with these. -/
theorem Query.compile_withKinds (catalog : Catalog) (config : Config) (query : Query) :
    (query.withKinds kinds).compile catalog config =
      (query.compile catalog config).map (CompiledQuery.withKinds kinds) := by
  let start := BindState.start.note (.compileStarted query.sources.length query.wheres.length)
  have hbind' : (query.withKinds kinds).bind (.top catalog config) (BindState.start.note
      (.compileStarted (query.withKinds kinds).sources.length
        (query.withKinds kinds).wheres.length)) =
      (Query.withKinds kinds <$> query.bind (.top catalog config)) start := by
    rw [Query.sources_withKinds, Query.wheres_withKinds, Query.bind_withKinds]
  rw [BindM.map_apply] at hbind'
  cases hbind : query.bind (.top catalog config) start with
  | error e s =>
    rw [hbind] at hbind'
    rw [Query.compile_of_bind_error hbind, Query.compile_of_bind_error hbind']
    rfl
  | ok bound s =>
    rw [hbind] at hbind'
    have hfinish := finish_of_bind rfl hbind
    have hfinish' := finish_of_boundParams rfl hbind
      (bound.boundParams_withKinds kinds s.nextParam)
    rw [Query.compile_of_bind hbind hfinish, Query.compile_of_bind hbind' hfinish']
    rfl

end

end QueryCompiler
