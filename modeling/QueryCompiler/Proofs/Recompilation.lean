import QueryCompiler.Compilation
import QueryCompiler.Proofs.Binding.Rebinding

/-!
# Compilations and their repetition

The query of a compilation is settled at the outermost place. Therefore compiling it again changes
nothing, provided that aliases may not be defined again: with that allowed, the repeated definitions
are compared after binding has given them different indices.
-/

namespace QueryCompiler

variable {catalog : Catalog} {config : Config}

/-! ### What a compilation consists of -/

/-- Collecting the parameters is all that can fail after binding. -/
theorem Query.finish_eq_ok {query : Query} {count : Nat} {params : List BoundParam}
    {key : CacheKey} : query.finish count = .ok (params, key) ↔
      query.boundParams count = .ok params ∧ key = query.cacheKey := by
  rw [Query.finish]
  cases query.boundParams count with
  | ok params' => simp [eq_comm]
  | error e => simp

theorem Query.compile_eq_ok {query : Query} {c : CompiledQuery}
    (h : query.compile catalog config = .ok c) :
    ∃ s s', s.nextParam = 0 ∧ query.bind (.top catalog config) s = .ok c.query s' ∧
      c.query.finish s'.nextParam = .ok (c.params, c.key) := by
  rw [compile] at h
  split at h
  · rename_i compiled t hcompile
    cases h
    simp only [compileM, BindM.bind_eq_ok, BindM.note_eq_ok, BindM.get_eq_ok,
      BindM.ofExcept_eq_ok, BindM.pure_eq_ok] at hcompile
    obtain ⟨_, _, rfl, bound, s', hbind, _, _, ⟨rfl, rfl⟩, ⟨params, key⟩, _, ⟨hfinish, rfl⟩, _, _,
      -, rfl, -⟩ := hcompile
    exact ⟨_, s', rfl, hbind, hfinish⟩
  · cases h

/-- A query that is bound and whose parameters can be collected compiles. -/
theorem Query.compile_of_bind {query bound : Query} {params : List BoundParam} {key : CacheKey}
    {s' : BindState}
    (hbind : query.bind (.top catalog config)
      (BindState.start.note (.compileStarted query.sources.length query.wheres.length)) =
        .ok bound s')
    (hfinish : bound.finish s'.nextParam = .ok (params, key)) :
    query.compile catalog config = .ok ⟨bound, params, key⟩ := by
  have hcompile : query.compileM catalog config .start =
      .ok ⟨bound, params, key⟩ (s'.note (.compiled params.length key.checksum)) := by
    simp only [compileM, BindM.bind_eq_ok, BindM.note_eq_ok, BindM.get_eq_ok,
      BindM.ofExcept_eq_ok, BindM.pure_eq_ok]
    exact ⟨(), _, rfl, bound, s', hbind, s', s', ⟨rfl, rfl⟩, (params, key), s', ⟨hfinish, rfl⟩,
      (), _, rfl, rfl, rfl⟩
  rw [compile, hcompile]

/-- The error of binding is that of the compilation. -/
theorem Query.compile_of_bind_error {query : Query} {e : CompileError} {s' : BindState}
    (h : query.bind (.top catalog config)
      (BindState.start.note (.compileStarted query.sources.length query.wheres.length)) =
        .error e s') :
    query.compile catalog config = .error e := by
  have hcompile : query.compileM catalog config .start = .error e s' := by
    change EStateM.bind (query.bind (.top catalog config)) _ _ = _
    rw [EStateM.bind, h]
  rw [Query.compile, hcompile]

/-- A query bound from a state without parameters has all the indices from the first one on. -/
theorem Query.settled_of_bind_top {query bound : Query} {s s' : BindState}
    (hs : s.nextParam = 0) (h : query.bind (.top catalog config) s = .ok bound s') :
    bound.Settled (.top catalog config) 0 s'.nextParam := by
  have hsettled := Query.settled_of_bind (Context.top_at catalog config) (by simp [Place.top]) h
  rwa [hs] at hsettled

/-- The query of a compilation is settled, with all its parameters from the first index on. -/
theorem Query.settled_of_compile {query : Query} {c : CompiledQuery}
    (h : query.compile catalog config = .ok c) :
    ∃ count, c.query.Settled (.top catalog config) 0 count ∧
      c.query.finish count = .ok (c.params, c.key) := by
  obtain ⟨s, s', hs, hbind, hfinish⟩ := Query.compile_eq_ok h
  exact ⟨s'.nextParam, Query.settled_of_bind_top hs hbind, hfinish⟩

/-! ### A query over posts -/

def postSchema : Schema :=
  ⟨"posts", "blog_posts", [⟨"id", "id", .integer⟩, ⟨"title", "post_title", .string⟩], ["id"], []⟩

def postCatalog : Catalog := ⟨.ofList [("posts", postSchema)]⟩

/-- The comments on the post of the enclosing query. -/
def commentsOfPost : Query :=
  .mk (.mk (.table "comments") none) []
    [.operator .equal [.field ⟨.position 0, .schema "post", none⟩,
      .field ⟨.parentBinding "p", .schema "id", none⟩]]
    none [] [] [] none none false

/-- The posts with comments among those of two identifiers, with a title that is given. -/
def commentedPosts : Query :=
  .mk (.mk (.schema "posts") (some "p"))
    [.mk .inner
      (.mk (.values (.ofRows [.ofList [("id", .integer 3)], .ofList [("id", .integer 5)]]
        (.map (.ofList [("id", .builtin "integer")])))) (some "v"))
      (some (.operator .equal [.field ⟨.binding "p", .schema "id", none⟩,
        .field ⟨.binding "v", .schema "id", none⟩]))]
    [.operator .equal [.field ⟨.binding "p", .schema "title", none⟩,
        .param (.ofValue (.string "hello"))],
      .subquery .existence commentsOfPost]
    (some (.tuple [.field ⟨.position 0, .schema "title", none⟩,
      .aliased (.param (.ofValue (.integer 7))) "seven"]))
    [] [] [] (some (.param (.ofValue (.integer 10)))) none false

/-! ### Repetition -/

/-- Compiling the query of a compilation again gives the same compilation. -/
theorem compile_idempotent (query : Query) (c : CompiledQuery)
    (hstrict : config.allowIdenticalAliases = false) (h : query.compile catalog config = .ok c) :
    c.query.compile catalog config = .ok c := by
  obtain ⟨count, hsettled, hfinish⟩ := Query.settled_of_compile h
  let start :=
    BindState.start.note (.compileStarted c.query.sources.length c.query.wheres.length)
  have hsettled : c.query.Settled (.top catalog config) start.nextParam count := hsettled
  obtain ⟨s', hbind, rfl⟩ := hsettled.bind (Context.top_at catalog config) hstrict
  exact Query.compile_of_bind hbind hfinish

theorem compile_idempotent_commentedPosts :
    ∃ c, commentedPosts.compile postCatalog .default = .ok c ∧
      c.query.compile postCatalog .default = .ok c :=
  ⟨_, rfl, compile_idempotent commentedPosts _ rfl rfl⟩

end QueryCompiler
