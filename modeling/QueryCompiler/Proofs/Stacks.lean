import QueryCompiler.Proofs.Numbering
import QueryCompiler.Proofs.Stacks.Agreement
import QueryCompiler.Proofs.Stacks.Brackets

/-!
# Queries are left as they were entered

Binding on stacks ends with the stacks with which it started, in whatever state, however it ends and
however deep an error occurs. What a compilation notes of entering and leaving queries is therefore
well bracketed, and no source is ever declared outside of a query.
-/

namespace QueryCompiler

variable {catalog : Catalog} {config : Config}

/-- The error of a step that fails. -/
def failure? {ε σ α : Type} : EStateM.Result ε σ α → Option ε
  | .ok _ _ => none
  | .error e _ => some e

/-- A step that started in this state has left every query that it entered, and no other one. -/
structure Binder.Restored {α : Type} (b : Binder) (r : EStateM.Result CompileError Binder α) :
    Prop where
  scopes : (finalState r).scopes = b.scopes
  aliases : (finalState r).aliases = b.aliases
  events : ∃ events, Bracketed b.scopes.length events ∧
    (finalState r).journal = events.reverse ++ b.journal
  /-- It has not missed a query to declare a source in. -/
  failure : failure? r ≠ some (.invalid .sourceOutsideQuery)

theorem bindOn_eq (query : Query) (b : Binder) :
    query.bindOn catalog config b = BindM.withStacks b.scopes b.aliases
      (query.bind (.ofStacks catalog config b.scopes b.aliases) b.toBindState) :=
  Query.bindOn_agrees query b.toBindState

theorem restored_bindOn (query : Query) (b : Binder) :
    b.Restored (query.bindOn catalog config b) := by
  obtain ⟨events, hevents, hjournal⟩ :=
    Query.brackets_bind (.ofStacks catalog config b.scopes b.aliases) query b.toBindState
  rw [bindOn_eq]
  cases hbind : query.bind (.ofStacks catalog config b.scopes b.aliases) b.toBindState with
  | ok bound s =>
    rw [hbind] at hjournal
    exact ⟨rfl, rfl, ⟨events, hevents, hjournal⟩, nofun⟩
  | error e s =>
    rw [hbind] at hjournal
    have hordinary := Query.throws_ordinary _ query _ _ _ hbind
    refine ⟨rfl, rfl, ⟨events, hevents, hjournal⟩, fun he => ?_⟩
    exact hordinary.ne_sourceOutsideQuery (Option.some.inj he)

theorem brackets_compileM (query : Query) : BindM.Brackets 0 (query.compileM catalog config) := by
  refine (BindM.Brackets.note rfl).bind fun _ => ?_
  refine (query.brackets_bind (.top catalog config)).bind fun bound => ?_
  refine BindM.Brackets.get.bind fun _ => (BindM.Brackets.ofExcept _ _).bind fun _ => ?_
  exact (BindM.Brackets.note rfl).bind fun _ => .pure _

theorem bracketed_compileEvents (query : Query) :
    Bracketed 0 (query.compileEvents catalog config) := by
  have hbrackets : BindM.Brackets 0 (query.compileM catalog config) := brackets_compileM query
  obtain ⟨events, hevents, hjournal⟩ := hbrackets .start
  have hfinal : query.compileEvents catalog config =
      (finalState (query.compileM catalog config .start)).events := by
    rw [Query.compileEvents]
    cases query.compileM catalog config .start <;> rfl
  rw [hfinal, BindState.events, hjournal, List.reverse_append, List.reverse_reverse]
  exact hevents

theorem compile_ne_sourceOutsideQuery (query : Query) :
    query.compile catalog config ≠ .error (.invalid .sourceOutsideQuery) := by
  intro h
  obtain ⟨s, s', hbind⟩ := bind_error_of_compile h
  exact (Query.throws_ordinary _ query _ _ _ hbind).ne_sourceOutsideQuery rfl

/--
Whatever queries are open, binding a query on stacks does what binding it in their context does, and
leaves the open queries, their sources and their aliases untouched, whether it succeeds or fails.
The events of every compilation are well bracketed, and none fails for want of an open query.
-/
theorem bind_restores (catalog : Catalog) (config : Config) (query : Query) :
    (∀ b : Binder, b.Restored (query.bindOn catalog config b) ∧
      query.bindOn catalog config b = BindM.withStacks b.scopes b.aliases
        (query.bind (.ofStacks catalog config b.scopes b.aliases) b.toBindState)) ∧
    Bracketed 0 (query.compileEvents catalog config) ∧
    query.compile catalog config ≠ .error (.invalid .sourceOutsideQuery) :=
  ⟨fun b => ⟨restored_bindOn query b, bindOn_eq query b⟩, bracketed_compileEvents query,
    compile_ne_sourceOutsideQuery query⟩

/-- The comments on a post outside of a query with posts fail, and both queries are left again. -/
example :
    (Query.mk (.mk (.table "users") none) [] [.subquery .existence commentsOfPost] none [] [] []
      none none false).compileEvents postCatalog .default =
      [.compileStarted 1 1, .enteredScope 1, .collectedAliases [], .enteredScope 2,
        .collectedAliases [], .leftScope 1 1, .leftScope 0 1] := rfl

end QueryCompiler
