import QueryCompiler.Proofs.Numbering
import QueryCompiler.Proofs.Spelling.Simulation

/-!
# Names and positions mean the same

Where no alias may be defined again, it makes no difference to a compilation whether a reference
gives the position of a source of its query or the name of that source: both fail with the same
error, or bind the same parameters to the same tree, in which only the references are written
differently. Projections are merged by the sources they mean, in whatever mixture these are written.
-/

namespace QueryCompiler

/-! ### Parameters -/

mutual

theorem Expr.claims_respell (spell : Spelling) (names : List (Option String)) (e : Expr) :
    (e.respell spell names).claims = e.claims := by
  match e with
  | .operator op operands => exact claimsAll_respell spell names operands
  | .aggregate kind args distinct filter =>
    rw [Expr.respell, Expr.claims, Expr.claims, claimsAll_respell, claimsOption_respell]
  | .fragment text parts args => exact claimsArgs_respell spell names args
  | .cast value _ _ | .aliased value _ | .interval value _ =>
    exact value.claims_respell spell names
  | .subquery kind query => exact query.claims_respell spell
  | .merge left right =>
    rw [Expr.respell, Expr.claims, Expr.claims, left.claims_respell, right.claims_respell]
  | .jsonPath base path =>
    rw [Expr.respell, Expr.claims, Expr.claims, base.claims_respell, claimsPath_respell]
  | .tuple items => exact claimsAll_respell spell names items
  | .mapping entries => exact claimsEntries_respell spell names entries
  | .literal _ | .param _ | .field _ | .binding _ | .parentBinding _ | .values _
  | .projection _ _ | .aliasRef _ => rfl
termination_by structural e

theorem claimsAll_respell (spell : Spelling) (names : List (Option String)) (es : List Expr) :
    claimsAll (respellAll spell names es) = claimsAll es := by
  match es with
  | [] => rfl
  | e :: rest =>
    rw [respellAll, claimsAll, claimsAll, e.claims_respell, claimsAll_respell]
termination_by structural es

theorem claimsOption_respell (spell : Spelling) (names : List (Option String))
    (e : Option Expr) : claimsOption (respellOption spell names e) = claimsOption e := by
  match e with
  | none => rfl
  | some e => exact e.claims_respell spell names
termination_by structural e

theorem claimsArgs_respell (spell : Spelling) (names : List (Option String))
    (args : List FragmentArg) : claimsArgs (respellArgs spell names args) = claimsArgs args := by
  match args with
  | [] => rfl
  | .mk role e :: rest =>
    rw [respellArgs, claimsArgs, claimsArgs, e.claims_respell, claimsArgs_respell]
termination_by structural args

theorem claimsPath_respell (spell : Spelling) (names : List (Option String))
    (path : List PathStep) : claimsPath (respellPath spell names path) = claimsPath path := by
  match path with
  | [] => rfl
  | .key _ :: rest | .index _ :: rest => exact claimsPath_respell spell names rest
  | .computed e :: rest =>
    rw [respellPath, claimsPath, claimsPath, e.claims_respell, claimsPath_respell]
termination_by structural path

theorem claimsEntries_respell (spell : Spelling) (names : List (Option String))
    (entries : List (String × Expr)) :
    claimsEntries (respellEntries spell names entries) = claimsEntries entries := by
  match entries with
  | [] => rfl
  | (_, e) :: rest =>
    rw [respellEntries, claimsEntries, claimsEntries, e.claims_respell, claimsEntries_respell]
termination_by structural entries

theorem claimsTerms_respell (spell : Spelling) (names : List (Option String))
    (terms : List OrderTerm) :
    claimsTerms (respellTerms spell names terms) = claimsTerms terms := by
  match terms with
  | [] => rfl
  | .mk e _ :: rest =>
    rw [respellTerms, claimsTerms, claimsTerms, e.claims_respell, claimsTerms_respell]
termination_by structural terms

theorem Source.claims_respell (spell : Spelling) (names : List (Option String)) (source : Source) :
    (source.respell spell names).claims = source.claims := by
  match source with
  | .mk (.schema _) _ | .mk (.table _) _ | .mk (.values _) _ => rfl
  | .mk (.subquery query) _ => exact query.claims_respell spell
  | .mk (.fragment e) _ => exact e.claims_respell spell names
termination_by structural source

theorem claimsJoins_respell (spell : Spelling) (names : List (Option String)) (joins : List Join) :
    claimsJoins (respellJoins spell names joins) = claimsJoins joins := by
  match joins with
  | [] => rfl
  | .mk kind source on :: rest =>
    rw [respellJoins, claimsJoins, claimsJoins, source.claims_respell, claimsOption_respell,
      claimsJoins_respell]
termination_by structural joins

/-- How its references are written does not matter to the parameters of a query. -/
theorem Query.claims_respell (spell : Spelling) (query : Query) :
    (query.respell spell).claims = query.claims := by
  match query with
  | .mk source joins wheres select groupBy having orderBy limit offset distinct =>
    simp only [Query.respell, Query.claims, Source.claims_respell, claimsJoins_respell,
      claimsAll_respell, claimsOption_respell, claimsTerms_respell]
termination_by structural query

end

theorem Query.boundParams_respell (spell : Spelling) (query : Query) (count : Nat) :
    (query.respell spell).boundParams count = query.boundParams count := by
  rw [Query.boundParams, Query.boundParams, Query.claims_respell]

/-! ### Compilations -/

/-- A query and the same query with names compile alike. -/
theorem Query.compile_named_cases (catalog : Catalog) (config : Config)
    (hstrict : config.allowIdenticalAliases = false) (query : Query) :
    (∃ e, query.compile catalog config = .error e ∧
      query.named.compile catalog config = .error e) ∨
    ∃ c, query.compile catalog config = .ok c ∧
      query.named.compile catalog config =
        .ok ⟨c.query.named, c.params, c.query.named.cacheKey⟩ := by
  let start := BindState.start.note (.compileStarted query.sources.length query.wheres.length)
  let start' :=
    BindState.start.note (.compileStarted query.named.sources.length query.named.wheres.length)
  have haround : Spelling.Around (.top catalog config) (.top catalog config) :=
    ⟨rfl, rfl, rfl, hstrict, by simp [Context.top]⟩
  have htracks := Spelling.tracks_query haround query
  cases hbind : query.bind (.top catalog config) start with
  | error e s' =>
    rcases htracks.error start start' e s' rfl hbind with hexcused | ⟨t', hnamed⟩
    · exact hexcused.elim
    · exact Or.inl ⟨e, Query.compile_of_bind_error hbind, Query.compile_of_bind_error hnamed⟩
  | ok bound s' =>
    obtain ⟨_, t', hnamed, rfl, hnext⟩ := htracks.ok start start' bound s' rfl hbind
    have hfinish := finish_of_bind rfl hbind
    have hfinish' : bound.named.finish t'.nextParam =
        .ok (bound.carriers.flatMap Carrier.bound, bound.named.cacheKey) := by
      rw [hnext, Nat.add_zero]
      exact finish_of_boundParams rfl hbind (bound.boundParams_respell .named s'.nextParam)
    exact Or.inr ⟨_, Query.compile_of_bind hbind hfinish, Query.compile_of_bind hnamed hfinish'⟩

/--
Two queries that are the same once their references are written by name, as when any references by
position in one of them are written by name in the other, fail with the same error, or both compile:
to the same parameters and placeholders, and to the same tree but for the way in which references
are written.
-/
theorem compile_spelling (catalog : Catalog) (config : Config) (query query' : Query)
    (hstrict : config.allowIdenticalAliases = false) (h : query.named = query'.named) :
    (∃ e, query.compile catalog config = .error e ∧ query'.compile catalog config = .error e) ∨
    ∃ c c', query.compile catalog config = .ok c ∧ query'.compile catalog config = .ok c' ∧
      c.params = c'.params ∧ c.layout = c'.layout ∧ c.query.erased = c'.query.erased := by
  have hquery := query.compile_named_cases catalog config hstrict
  have hquery' := query'.compile_named_cases catalog config hstrict
  rw [← h] at hquery'
  rcases hquery with ⟨e, he, hnamed⟩ | ⟨c, hc, hnamed⟩
  · rcases hquery' with ⟨e', he', hnamed'⟩ | ⟨c', -, hnamed'⟩
    · rw [hnamed] at hnamed'
      cases hnamed'
      exact Or.inl ⟨e, he, he'⟩
    · rw [hnamed] at hnamed'
      cases hnamed'
  · rcases hquery' with ⟨e', -, hnamed'⟩ | ⟨c', hc', hnamed'⟩
    · rw [hnamed] at hnamed'
      cases hnamed'
    · rw [hnamed, Except.ok.injEq, CompiledQuery.mk.injEq] at hnamed'
      obtain ⟨htree, hparams, -⟩ := hnamed'
      refine Or.inr ⟨c, c', hc, hc', hparams, congrArg (layoutFrom 0) hparams, ?_⟩
      rw [← c.query.erased_named, htree, c'.query.erased_named]

/--
Posts with liked comments; how the posts, their comments and the likes are referred to is left open.
The likes have the name of the posts, which therefore means the likes in the inner query.
-/
def likedPosts (posts comments likes : SourceRef) : Query :=
  .mk (.mk (.schema "posts") (some "p"))
    [.mk .inner (.mk (.table "comments") (some "c"))
      (some (.operator .equal [.field ⟨comments, .schema "post", none⟩,
        .field ⟨posts, .schema "id", none⟩]))]
    [.operator .equal [.field ⟨.binding "c", .schema "rank", none⟩,
        .cast (.param (.ofValue (.integer 3))) (.column ⟨posts, .schema "id", none⟩) none],
      .subquery .existence (.mk (.mk (.table "likes") (some "p")) []
        [.operator .equal [.field ⟨likes, .schema "comment", none⟩,
          .field ⟨.binding "c", .schema "id", none⟩]]
        none [] [] [] none none false)]
    (some (.merge (.projection .struct ⟨.binding "p", .mk ["title"] [], none⟩)
      (.projection .struct ⟨posts, .mk ["id"] [], none⟩)))
    [] [] [] none none false

/-- The two projections of the posts are merged, whether or not they are written alike. -/
theorem compile_spelling_likedPosts :
    ∃ c c', (likedPosts (.position 0) (.binding "c") (.position 0)).compile postCatalog .default =
        .ok c ∧
      (likedPosts (.binding "p") (.position 1) (.binding "p")).compile postCatalog .default =
        .ok c' ∧
      c.params = c'.params ∧ c.layout = c'.layout ∧ c.query.erased = c'.query.erased ∧
      ∃ p, c.query.select = some (.projection .struct p) ∧ p.set.fields = ["title", "id"] := by
  have hcompile : ∃ c, (likedPosts (.position 0) (.binding "c") (.position 0)).compile postCatalog
      .default = .ok c ∧
      ∃ p, c.query.select = some (.projection .struct p) ∧ p.set.fields = ["title", "id"] :=
    ⟨_, rfl, _, rfl, rfl⟩
  obtain ⟨c, hc, hselect⟩ := hcompile
  rcases compile_spelling postCatalog .default
      (likedPosts (.position 0) (.binding "c") (.position 0))
      (likedPosts (.binding "p") (.position 1) (.binding "p")) rfl rfl with
    ⟨e, he, -⟩ | ⟨_, c', hcompiled, hc', hparams, hlayout, htree⟩
  · rw [hc] at he
    cases he
  · rw [hc, Except.ok.injEq] at hcompiled
    subst hcompiled
    exact ⟨c, c', hc, hc', hparams, hlayout, htree, hselect⟩

end QueryCompiler
