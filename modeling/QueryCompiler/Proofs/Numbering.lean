import QueryCompiler.Proofs.Numbering.Claims
import QueryCompiler.Proofs.Numbering.Faults
import QueryCompiler.Proofs.Recompilation

/-!
# Numbered parameters

Binding numbers the parameters and tables of a query in one order and the parameters are collected
in another. The two agree on every query that is bound: the collection of parameters never fails,
and every value stands at the index of its carrier.
-/

namespace QueryCompiler

variable {catalog : Catalog} {config : Config}

/-- A tree with the parameters of a bound query is finished with these and a key of its own. -/
theorem finish_of_boundParams {query bound bound' : Query} {s s' : BindState}
    (hs : s.nextParam = 0) (h : query.bind (.top catalog config) s = .ok bound s')
    (hparams : bound'.boundParams s'.nextParam = bound.boundParams s'.nextParam) :
    bound'.finish s'.nextParam = .ok (bound.carriers.flatMap Carrier.bound, bound'.cacheKey) := by
  have hconsecutive := (Query.settled_of_bind_top hs h).consecutive
  rw [Query.finish, hparams, boundParams_of_consecutive hconsecutive]

/-- The parameters of a bound query can be collected. -/
theorem finish_of_bind {query bound : Query} {s s' : BindState} (hs : s.nextParam = 0)
    (h : query.bind (.top catalog config) s = .ok bound s') :
    bound.finish s'.nextParam = .ok (bound.carriers.flatMap Carrier.bound, bound.cacheKey) :=
  finish_of_boundParams hs h rfl

/-- An error of a compilation is one of binding. -/
theorem start_error_of_compile {query : Query} {e : CompileError}
    (h : query.compile catalog config = .error e) :
    ∃ s', query.bind (.top catalog config)
      (BindState.start.note (.compileStarted query.sources.length query.wheres.length)) =
        .error e s' := by
  cases hbind : query.bind (.top catalog config)
    (BindState.start.note (.compileStarted query.sources.length query.wheres.length)) with
  | error e' s' =>
    rw [Query.compile_of_bind_error hbind] at h
    cases h
    exact ⟨s', rfl⟩
  | ok bound s' =>
    have hcompile := Query.compile_of_bind hbind (finish_of_bind rfl hbind)
    rw [hcompile] at h
    cases h

theorem bind_error_of_compile {query : Query} {e : CompileError}
    (h : query.compile catalog config = .error e) :
    ∃ s s', query.bind (.top catalog config) s = .error e s' :=
  ⟨_, start_error_of_compile h⟩

/--
A query that is bound can be finished, and no compilation fails with an error of numbering. In a
compiled query the carriers, in the order of binding, have consecutive blocks of indices that cover
the list of parameters, and what a carrier binds stands in the list at the indices of its block.
-/
theorem compile_params (catalog : Catalog) (config : Config) (query : Query) :
    (∀ s bound s', s.nextParam = 0 → query.bind (.top catalog config) s = .ok bound s' →
      ∃ params, bound.finish s'.nextParam = .ok (params, bound.cacheKey)) ∧
    (∀ e, query.compile catalog config = .error e → e.isNumbering = false) ∧
    ∀ c, query.compile catalog config = .ok c →
      Consecutive 0 c.query.carriers c.params.length ∧
      c.params = c.query.carriers.flatMap Carrier.bound ∧
      ∀ carrier ∈ c.query.carriers, ∃ first, carrier.first? = some first ∧
        carrier.bound.length = carrier.width ∧
        ∀ j < carrier.width, c.params[first + j]? = carrier.bound[j]? := by
  refine ⟨?_, ?_, ?_⟩
  · intro s bound s' hs hbind
    exact ⟨_, finish_of_bind hs hbind⟩
  · intro e h
    obtain ⟨s, s', hbind⟩ := bind_error_of_compile h
    exact Query.throws_bind _ query s e s' hbind
  · intro c h
    obtain ⟨s, s', hs, hbind, hfinish⟩ := Query.compile_eq_ok h
    rw [finish_of_bind hs hbind] at hfinish
    have hparams : c.params = c.query.carriers.flatMap Carrier.bound := by
      injection hfinish with hpair
      injection hpair with hparams
      exact hparams.symm
    have hconsecutive := (Query.settled_of_bind_top hs hbind).consecutive
    have hlength : s'.nextParam = c.params.length := by
      rw [hconsecutive.eq_add_length, hparams, Nat.zero_add]
    rw [hlength] at hconsecutive
    refine ⟨hconsecutive, hparams, ?_⟩
    intro carrier hmem
    obtain ⟨first, hfirst, hwidth, hbound⟩ := hconsecutive.getElem? hmem
    rw [Nat.zero_add] at hfirst
    rw [hparams]
    exact ⟨first, hfirst, hwidth, hbound⟩

/-- The values of the projection come first, then those of the table, the filter and the limit. -/
theorem compile_params_commentedPosts :
    ∃ c, commentedPosts.compile postCatalog .default = .ok c ∧ c.params.length = 5 ∧
      Consecutive 0 c.query.carriers 5 :=
  ⟨_, rfl, rfl, ((compile_params postCatalog .default commentedPosts).2.2 _ rfl).1⟩

end QueryCompiler
