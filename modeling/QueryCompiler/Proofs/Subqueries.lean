import QueryCompiler.Proofs.Comparison.Simulation
import QueryCompiler.Proofs.Recompilation

/-!
# Queries inside other queries

What a query is bound to does not depend on where it stands. A query that can be bound by itself can
be bound inside any other queries, as long as the limit on their depth leaves room for its own
subqueries; the names, aliases and parameters around it leave no trace but a shift of its indices.
-/

namespace QueryCompiler

/-- A query with all its indices increased. -/
def Query.shift (k : Nat) (query : Query) : Query := query.change (.shifting k)

theorem Change.shifting_congruent (k : Nat) : (Change.shifting k).Congruent := ⟨id, id, id⟩

/-- A query bound outside of all queries, and the same query in a context after `k` indices. -/
def Comparison.inside (ctx : Context) (k : Nat) : Comparison where
  config := ctx.config
  config' := ctx.config
  outer := ctx.scopes
  change := .shifting k
  excused := fun _ => True
  congruent := Change.shifting_congruent k
  accepts := id
  splices := fun _ => rfl
  mismatch := fun _ _ _ => trivial
  redefinition := fun _ _ => trivial
  tolerant := Or.inr fun _ => trivial

theorem Comparison.inside_admits {ctx : Context} {k : Nat} {query : Query}
    (hroom : ctx.scopes.length + query.nesting ≤ ctx.config.maxSubqueryDepth) :
    (Comparison.inside ctx k).Admits (query.parts 0) := by
  intro part hpart inner _
  have hlevel := level_le_nesting hpart
  refine ⟨fun _ => ?_, Or.inl, Or.inl⟩
  change part.1 + ctx.scopes.length ≤ ctx.config.maxSubqueryDepth
  omega

/--
A query that can be bound by itself can be bound in every context that has room for it. Apart from
the indices, which follow on those given out before, the result is the same, and as many indices are
taken.
-/
theorem bind_inside (ctx : Context) (query bound : Query) (s' t : BindState)
    (h : query.bind (.top ctx.catalog ctx.config) .start = .ok bound s')
    (hroom : ctx.scopes.length + query.nesting ≤ ctx.config.maxSubqueryDepth) :
    ∃ t', query.bind ctx t = .ok (bound.shift t.nextParam) t' ∧
      t'.nextParam = t.nextParam + s'.nextParam := by
  have haround : (Comparison.inside ctx t.nextParam).Around 0 (.top ctx.catalog ctx.config) ctx :=
    ⟨rfl, rfl, rfl, rfl, rfl⟩
  have hsimulates := Comparison.simulates_query haround query (Comparison.inside_admits hroom)
  have hstart : t.nextParam = BindState.start.nextParam + t.nextParam := (Nat.zero_add _).symm
  obtain ⟨_, t', hbind, rfl, hnext⟩ := hsimulates.ok .start t bound s' hstart h
  have hsame : query.change (Comparison.inside ctx t.nextParam).start = query :=
    query.change_none
  rw [hsame] at hbind
  refine ⟨t', hbind, ?_⟩
  rw [hnext, Nat.add_comm]
  rfl

/-- Inside a query over people with the name that the posts have, after four parameters. -/
def insidePeople : Context :=
  ⟨postCatalog, .default, [⟨[⟨0, some "p", .schemaless "people"⟩]⟩],
    ⟨[("seven", .literal (.integer 7))], false⟩⟩

theorem bind_inside_commentedPosts :
    ∃ bound s', commentedPosts.bind (.top postCatalog .default) .start = .ok bound s' ∧
      s'.nextParam = 5 ∧ ∃ t', commentedPosts.bind insidePeople ⟨4, []⟩ = .ok (bound.shift 4) t' ∧
        t'.nextParam = 4 + 5 :=
  ⟨_, _, rfl, rfl, bind_inside insidePeople commentedPosts _ _ ⟨4, []⟩ rfl (by decide)⟩

end QueryCompiler
