import QueryCompiler.Proofs.Blanking.Shapes
import QueryCompiler.Proofs.Comparison.Simulation
import QueryCompiler.Proofs.Numbering

/-!
# Bound values stay out of sight

A compilation treats the values that a query binds as opaque, but for the lengths of spliced lists:
compiling the blank of a query gives the blank of its compilation, with the same cache key. What a
value can change is whether a cell fits its type and whether an alias is defined again with an equal
value. Two queries that differ in bound values only therefore have one key and one layout.
-/

namespace QueryCompiler

variable {catalog : Catalog} {config : Config}

/-- An error that can depend on bound values. -/
def CompileError.seesValues (config : Config) : CompileError → Bool
  | .values (.typeMismatch _ _ _) => true
  | .aliasing (.duplicate _) => config.allowIdenticalAliases
  | _ => false

/-- A query and its blank, bound at the same place. -/
def Comparison.blanking (config : Config) : Comparison where
  config := config
  config' := config
  outer := []
  change := .blanking
  excused := fun e => e.seesValues config = true
  congruent := ⟨id, fun _ => rfl, same_blankItems⟩
  accepts := fun {t _} _ => by cases t <;> rfl
  splices := fun v => by
    cases v with
    | list items => cases items <;> rfl
    | _ => rfl
  mismatch := fun _ _ _ => rfl
  redefinition := fun _ h => h
  tolerant := Or.inl ⟨rfl, rfl⟩

/-- Binding the blank of a query follows binding the query. -/
theorem simulates_blank (catalog : Catalog) (config : Config) (query : Query) :
    (Comparison.blanking config).Simulates (fun a b => b = a.blank)
      (query.bind (.top catalog config)) (query.blank.bind (.top catalog config)) :=
  have haround : (Comparison.blanking config).Around 0 (.top catalog config)
      (.top catalog config) := ⟨rfl, rfl, rfl, rfl, rfl⟩
  Comparison.simulates_query haround query (Comparison.admits_of_same rfl rfl _)

/--
The blank of a query compiles to the blank of what the query compiles to, or fails with the same
error, unless the query fails with an error that can depend on bound values.
-/
theorem Query.compile_blank_cases (catalog : Catalog) (config : Config) (query : Query) :
    (∃ e, e.seesValues config = true ∧ query.compile catalog config = .error e) ∨
    (∃ e, query.compile catalog config = .error e ∧ query.blank.compile catalog config = .error e) ∨
    ∃ c, query.compile catalog config = .ok c ∧
      query.blank.compile catalog config = .ok c.blank := by
  let start := BindState.start.note (.compileStarted query.sources.length query.wheres.length)
  let start' :=
    BindState.start.note (.compileStarted query.blank.sources.length query.blank.wheres.length)
  have hsimulates := simulates_blank catalog config query
  cases hbind : query.bind (.top catalog config) start with
  | error e s' =>
    have hcompile := Query.compile_of_bind_error hbind
    rcases hsimulates.error start start' e s' rfl hbind with hsees | ⟨t', hblank⟩
    · exact Or.inl ⟨e, hsees, hcompile⟩
    · exact Or.inr (Or.inl ⟨e, hcompile, Query.compile_of_bind_error hblank⟩)
  | ok bound s' =>
    obtain ⟨_, t', hblank, rfl, -⟩ := hsimulates.ok start start' bound s' rfl hbind
    have hsettled := Query.settled_of_bind_top rfl hbind
    have hkey : bound.blank.cacheKey = bound.cacheKey :=
      congrArg CacheKey.ofShape hsettled.shape_blank
    have hfinish := finish_of_bind rfl hblank
    rw [hsettled.bound_blank, hkey] at hfinish
    exact Or.inr (Or.inr ⟨_, Query.compile_of_bind hbind (finish_of_bind rfl hbind),
      Query.compile_of_bind hblank hfinish⟩)

/--
Of two queries that differ in bound values only, one fails with an error that can depend on these,
or both fail with the same error, or both compile, to one key, one layout, and the same parameters
and trees but for the values.
-/
theorem compile_blank (catalog : Catalog) (config : Config) (query query' : Query)
    (h : query.blank = query'.blank) :
    (∃ e, e.seesValues config = true ∧
      (query.compile catalog config = .error e ∨ query'.compile catalog config = .error e)) ∨
    (∃ e, query.compile catalog config = .error e ∧ query'.compile catalog config = .error e) ∨
    ∃ c c', query.compile catalog config = .ok c ∧ query'.compile catalog config = .ok c' ∧
      c.key = c'.key ∧ c.layout = c'.layout ∧
      c.params.map BoundParam.blank = c'.params.map BoundParam.blank ∧
      c.query.blank = c'.query.blank := by
  rcases query.compile_blank_cases catalog config with
    ⟨e, hsees, he⟩ | ⟨e, he, hblank⟩ | ⟨c, hc, hblank⟩
  · exact Or.inl ⟨e, hsees, Or.inl he⟩
  · rcases query'.compile_blank_cases catalog config with
      ⟨e', hsees, he'⟩ | ⟨e', he', hblank'⟩ | ⟨c', -, hblank'⟩
    · exact Or.inl ⟨e', hsees, Or.inr he'⟩
    · rw [← h, hblank] at hblank'
      cases hblank'
      exact Or.inr (Or.inl ⟨e, he, he'⟩)
    · rw [← h, hblank] at hblank'
      cases hblank'
  · rcases query'.compile_blank_cases catalog config with
      ⟨e', hsees, he'⟩ | ⟨e', -, hblank'⟩ | ⟨c', hc', hblank'⟩
    · exact Or.inl ⟨e', hsees, Or.inr he'⟩
    · rw [← h, hblank] at hblank'
      cases hblank'
    · rw [← h, hblank, Except.ok.injEq] at hblank'
      have hkey : c.blank.key = c'.blank.key := congrArg CompiledQuery.key hblank'
      have hparams : c.blank.params = c'.blank.params := congrArg CompiledQuery.params hblank'
      have hquery : c.blank.query = c'.blank.query := congrArg CompiledQuery.query hblank'
      have hlayout : c.layout = c'.layout := by
        rw [← c.layout_blank, ← c'.layout_blank, hblank']
      exact Or.inr (Or.inr ⟨c, c', hc, hc', hkey, hlayout, hparams, hquery⟩)

/-- The posts with the identifier of a row, and with one of some more. -/
def chosenPosts (id : Int64) (more : List Value) : Query :=
  .mk (.mk (.schema "posts") (some "p"))
    [.mk .inner (.mk (.values (.ofRows [.ofList [("id", .integer id)]]
      (.map (.ofList [("id", .builtin "integer")])))) (some "v")) none]
    [.fragment "? in (?)" [] [.mk .parameter (.field ⟨.binding "p", .schema "id", none⟩),
      .mk .splice (.param (.ofValue (.list more)))]]
    none [] [] [] none none false

theorem compile_blank_chosenPosts :
    ∃ c c', (chosenPosts 3 [.integer 5, .integer 7]).compile postCatalog .default = .ok c ∧
      (chosenPosts 4 [.null, .integer 9]).compile postCatalog .default = .ok c' ∧
      c.key = c'.key ∧ c.layout = c'.layout ∧ c.layout = [(0, 1), (1, 3)] := by
  have hcompile : ∃ c, (chosenPosts 3 [.integer 5, .integer 7]).compile postCatalog .default =
      .ok c ∧ c.layout = [(0, 1), (1, 3)] := ⟨_, rfl, rfl⟩
  have hcompile' : ∃ c', (chosenPosts 4 [.null, .integer 9]).compile postCatalog .default =
      .ok c' := ⟨_, rfl⟩
  obtain ⟨c, hc, hlayout⟩ := hcompile
  obtain ⟨c', hc'⟩ := hcompile'
  have h := compile_blank postCatalog .default (chosenPosts 3 [.integer 5, .integer 7])
    (chosenPosts 4 [.null, .integer 9]) rfl
  rw [hc, hc'] at h
  simp only [reduceCtorEq, Except.ok.injEq, or_self, and_false, exists_false, false_or] at h
  obtain ⟨_, _, rfl, rfl, hkey, hlayouts, -⟩ := h
  exact ⟨c, c', hc, hc', hkey, hlayouts, hlayout⟩

end QueryCompiler
