import QueryCompiler.Proofs.Numbering.Claims
import QueryCompiler.Proofs.ParamTypes.Bound
import QueryCompiler.Proofs.Recompilation

/-!
# Types of parameters in compiled queries

The type of every parameter in a compiled query is a function of the type written on it and of what
stands right around it, and the parameter is bound with this type.
-/

namespace QueryCompiler

variable {catalog : Catalog} {config : Config}

/-- The parameters of a compiled query are what its carriers bind. -/
theorem Query.carriers_of_compile {query : Query} {c : CompiledQuery}
    (h : query.compile catalog config = .ok c) :
    Consecutive 0 c.query.carriers c.params.length ∧
      c.params = c.query.carriers.flatMap Carrier.bound := by
  obtain ⟨count, hsettled, hfinish⟩ := Query.settled_of_compile h
  have hconsecutive := hsettled.consecutive
  rw [Query.finish, boundParams_of_consecutive hconsecutive] at hfinish
  injection hfinish with hpair
  injection hpair with hparams
  have hlength := hconsecutive.eq_add_length
  rw [hparams, Nat.zero_add] at hlength
  rw [← hlength]
  exact ⟨hconsecutive, hparams.symm⟩

/-- A parameter among the carriers of a compiled query stands at its index. -/
theorem bound_of_mem_carriers {query : Query} {c : CompiledQuery}
    (h : query.compile catalog config = .ok c) {p : Param} (hp : .param p ∈ c.query.carriers) :
    ∃ index, p.index = some index ∧ c.params[index]? = some ⟨p.value, p.type, p.splice⟩ := by
  obtain ⟨hconsecutive, hparams⟩ := Query.carriers_of_compile h
  obtain ⟨index, hfirst, -, hbound⟩ := hconsecutive.getElem? hp
  rw [Nat.zero_add] at hfirst
  refine ⟨index, hfirst, ?_⟩
  rw [hparams]
  exact hbound 0 Nat.one_pos

/--
The parameters of a compiled query are those of the query as it is written, in order. Each has the
type that its surroundings in the compiled query give it: that of a cast right around it; otherwise
the one written on it; otherwise, unless it is spliced, the one implied by an operator with another
operand, by an interval, a limit or an offset. With this type it stands among the parameters.
-/
theorem compile_param_types (catalog : Catalog) (config : Config) (query : Query)
    (c : CompiledQuery) (h : query.compile catalog config = .ok c) :
    paramsIn c.query.carriers = c.query.params.map Prod.snd ∧
    List.Forall₂ TypedAs query.params c.query.params ∧
    ∀ found ∈ c.query.params, ∃ index, found.2.index = some index ∧
      c.params[index]? = some ⟨found.2.value, found.2.type, found.2.splice⟩ := by
  obtain ⟨s, s', -, hbind, -⟩ := Query.compile_eq_ok h
  have hparams := Query.params_bind hbind
  refine ⟨hparams.carried, hparams.typed, ?_⟩
  intro found hfound
  have hmem : found.2 ∈ paramsIn c.query.carriers := by
    rw [hparams.carried]
    exact List.mem_map_of_mem hfound
  exact bound_of_mem_carriers h (mem_paramsIn.1 hmem)

/-- The posts among given ones with a title like a given one, from a given identifier on. -/
def searchedPosts : Query :=
  .mk (.mk (.schema "posts") (some "p")) []
    [.operator .like [.field ⟨.binding "p", .schema "title", none⟩,
        .param (.ofValue (.string "a%"))],
      .operator .member [.field ⟨.binding "p", .schema "id", none⟩,
        .param (.ofValue (.list [.integer 3, .integer 5]))],
      .operator .atLeast [.param (.ofValue (.integer 4)),
        .cast (.param (.ofValue (.string "1"))) (.builtin "integer") none]]
    none [] [] [] (some (.param (.ofValue (.integer 10)))) none false

theorem compile_param_types_searchedPosts :
    ∃ c, searchedPosts.compile postCatalog .default = .ok c ∧
      c.params.map BoundParam.type = [some (.builtin .string), some (.array .integer),
        some (.builtin .integer), some (.builtin .integer), some (.builtin .integer)] ∧
      List.Forall₂ TypedAs searchedPosts.params c.query.params :=
  ⟨_, rfl, rfl, (compile_param_types postCatalog .default searchedPosts _ rfl).2.1⟩

end QueryCompiler
