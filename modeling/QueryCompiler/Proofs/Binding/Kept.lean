import QueryCompiler.Proofs.Binding.Aliases
import QueryCompiler.Proofs.Binding.Equations
import QueryCompiler.Proofs.Binding.Stages

/-!
# What binding keeps

Binding gives an expression of the same kind, with the same aliases at its outermost positions, and
with an aggregate exactly if there was one.
-/

namespace QueryCompiler

variable {ctx : Context}

/-! ### Kinds -/

theorem kindName_bind {o : Bool} {e e' : Expr} {s s' : BindState}
    (h : e.bind ctx o s = .ok e' s') :
    e'.kindName = e.kindName := by
  match e with
  | .literal v =>
    obtain ⟨rfl, -⟩ := Expr.bind_literal.1 h
    rfl
  | .param p =>
    obtain ⟨rfl, -⟩ := Expr.bind_param.1 h
    rfl
  | .field f =>
    obtain ⟨-, _, -, rfl⟩ := Expr.bind_field.1 h
    rfl
  | .binding r =>
    obtain ⟨-, _, _, -, rfl⟩ := Expr.bind_binding.1 h
    rfl
  | .parentBinding r =>
    obtain ⟨-, _, _, -, rfl⟩ := Expr.bind_parentBinding.1 h
    rfl
  | .operator op operands =>
    obtain ⟨-, _, -, rfl⟩ := Expr.bind_operator.1 h
    rfl
  | .aggregate kind args distinct filter =>
    obtain ⟨-, _, _, _, -, -, rfl⟩ := Expr.bind_aggregate.1 h
    rfl
  | .fragment text parts args =>
    obtain ⟨_, _, -, -, rfl⟩ := Expr.bind_fragment.1 h
    rfl
  | .cast value target resolved =>
    obtain ⟨_, _, _, -, -, -, rfl⟩ := Expr.bind_cast.1 h
    rfl
  | .subquery kind query =>
    obtain ⟨_, -, rfl⟩ := Expr.bind_subquery.1 h
    rfl
  | .values table =>
    obtain ⟨_, -, rfl, -⟩ := Expr.bind_values.1 h
    rfl
  | .projection kind p =>
    obtain ⟨_, -, rfl⟩ := Expr.bind_projection.1 h
    cases kind <;> rfl
  | .merge left right =>
    obtain ⟨_, _, _, -, -, rfl⟩ := Expr.bind_merge.1 h
    rfl
  | .aliased value name =>
    obtain ⟨-, _, -, rfl⟩ := Expr.bind_aliased.1 h
    rfl
  | .aliasRef name =>
    obtain ⟨-, rfl, -⟩ := Expr.bind_aliasRef.1 h
    rfl
  | .jsonPath base path =>
    obtain ⟨_, _, _, _, -, -, rfl⟩ := Expr.bind_jsonPath.1 h
    rfl
  | .interval count unit =>
    obtain ⟨_, -, rfl⟩ := Expr.bind_interval.1 h
    rfl
  | .tuple items =>
    obtain ⟨_, -, rfl⟩ := Expr.bind_tuple.1 h
    rfl
  | .mapping entries =>
    obtain ⟨_, -, rfl⟩ := Expr.bind_mapping.1 h
    rfl

/-- Whether an expression is an interval is seen from the name of its kind. -/
theorem isInterval_eq (e : Expr) : e.isInterval = (e.kindName == "interval") := by
  cases e with
  | projection kind p => cases kind <;> rfl
  | _ => rfl

theorem isInterval_bind {o : Bool} {e e' : Expr} {s s' : BindState}
    (h : e.bind ctx o s = .ok e' s') : e'.isInterval = e.isInterval := by
  rw [isInterval_eq, isInterval_eq, kindName_bind h]

theorem map_isInterval_bindAll {o : Bool} {es es' : List Expr} {s s' : BindState}
    (h : bindAll ctx o es s = .ok es' s') :
    es'.map Expr.isInterval = es.map Expr.isInterval := by
  induction es generalizing es' s with
  | nil =>
    obtain ⟨rfl, -⟩ := bindAll_nil.1 h
    rfl
  | cons e rest ih =>
    obtain ⟨_, _, _, he, hrest, rfl⟩ := bindAll_cons.1 h
    rw [List.map_cons, List.map_cons, isInterval_bind he, ih hrest]

theorem isFragment_bind {o : Bool} {e e' : Expr} {s s' : BindState}
    (h : e.bind ctx o s = .ok e' s')
    (hfragment : e.isFragment = true) : e'.isFragment = true := by
  cases e with
  | fragment text parts args =>
    obtain ⟨_, _, -, -, rfl⟩ := Expr.bind_fragment.1 h
    rfl
  | _ => cases hfragment

/-! ### Aliases -/

mutual

theorem aliasNames_bind {o : Bool} {e e' : Expr} {s s' : BindState}
    (h : e.bind ctx o s = .ok e' s') :
    e'.aliasNames = e.aliasNames := by
  match e with
  | .literal v =>
    obtain ⟨rfl, -⟩ := Expr.bind_literal.1 h
    rfl
  | .param p =>
    obtain ⟨rfl, -⟩ := Expr.bind_param.1 h
    rfl
  | .field f =>
    obtain ⟨-, _, -, rfl⟩ := Expr.bind_field.1 h
    rfl
  | .binding r =>
    obtain ⟨-, _, _, -, rfl⟩ := Expr.bind_binding.1 h
    rfl
  | .parentBinding r =>
    obtain ⟨-, _, _, -, rfl⟩ := Expr.bind_parentBinding.1 h
    rfl
  | .operator op operands =>
    obtain ⟨-, _, -, rfl⟩ := Expr.bind_operator.1 h
    rfl
  | .aggregate kind args distinct filter =>
    obtain ⟨-, _, _, _, -, -, rfl⟩ := Expr.bind_aggregate.1 h
    rfl
  | .fragment text parts args =>
    obtain ⟨_, _, -, -, rfl⟩ := Expr.bind_fragment.1 h
    rfl
  | .cast value target resolved =>
    obtain ⟨_, _, _, -, -, -, rfl⟩ := Expr.bind_cast.1 h
    rfl
  | .subquery kind query =>
    obtain ⟨_, -, rfl⟩ := Expr.bind_subquery.1 h
    rfl
  | .values table =>
    obtain ⟨_, -, rfl, -⟩ := Expr.bind_values.1 h
    rfl
  | .projection kind p =>
    obtain ⟨_, -, rfl⟩ := Expr.bind_projection.1 h
    rfl
  | .merge left right =>
    obtain ⟨_, _, _, hleft, hright, rfl⟩ := Expr.bind_merge.1 h
    rw [aliasNames_merge, aliasNames_merge, aliasNames_bind hleft, aliasNames_bind hright]
  | .aliased value name =>
    obtain ⟨-, _, -, rfl⟩ := Expr.bind_aliased.1 h
    rw [aliasNames_aliased, aliasNames_aliased]
  | .aliasRef name =>
    obtain ⟨-, rfl, -⟩ := Expr.bind_aliasRef.1 h
    rfl
  | .jsonPath base path =>
    obtain ⟨_, _, _, _, -, -, rfl⟩ := Expr.bind_jsonPath.1 h
    rfl
  | .interval count unit =>
    obtain ⟨_, -, rfl⟩ := Expr.bind_interval.1 h
    rfl
  | .tuple items =>
    obtain ⟨_, hitems, rfl⟩ := Expr.bind_tuple.1 h
    rw [aliasNames_tuple, aliasNames_tuple, aliasNames_bindAll hitems]
  | .mapping entries =>
    obtain ⟨_, hentries, rfl⟩ := Expr.bind_mapping.1 h
    rw [aliasNames_mapping, aliasNames_mapping, aliasNames_bindEntries hentries]

theorem aliasNames_bindAll {o : Bool} {es es' : List Expr} {s s' : BindState}
    (h : bindAll ctx o es s = .ok es' s') :
    es'.flatMap Expr.aliasNames = es.flatMap Expr.aliasNames := by
  match es with
  | [] =>
    obtain ⟨rfl, -⟩ := bindAll_nil.1 h
    rfl
  | e :: rest =>
    obtain ⟨_, _, _, he, hrest, rfl⟩ := bindAll_cons.1 h
    rw [List.flatMap_cons, List.flatMap_cons, aliasNames_bind he, aliasNames_bindAll hrest]

theorem aliasNames_bindEntries {o : Bool} {entries entries' : List (String × Expr)}
    {s s' : BindState}
    (h : bindEntries ctx o entries s = .ok entries' s') :
    (entries'.flatMap fun entry => entry.2.aliasNames) =
      entries.flatMap fun entry => entry.2.aliasNames := by
  match entries with
  | [] =>
    obtain ⟨rfl, -⟩ := bindEntries_nil.1 h
    rfl
  | (key, e) :: rest =>
    obtain ⟨_, _, _, he, hrest, rfl⟩ := bindEntries_cons.1 h
    rw [List.flatMap_cons, List.flatMap_cons, aliasNames_bind he, aliasNames_bindEntries hrest]

end

/-- The aliases of a query are those of its bound projection. -/
theorem selectAliases_bindOption {o : Bool} {select select' : Option Expr} {s s' : BindState}
    (h : bindOption ctx o select s = .ok select' s') :
    selectAliases (select'.map Expr.normalize) = selectAliases select := by
  match select with
  | none =>
    obtain ⟨rfl, -⟩ := bindOption_none.1 h
    rfl
  | some e =>
    obtain ⟨_, he, rfl⟩ := bindOption_some.1 h
    rw [Option.map_some, selectAliases, selectAliases, aliasNames_normalize, aliasNames_bind he]

/-! ### Aggregates -/

theorem containsAggregate_typeBlind : TypeBlind Expr.containsAggregate := by
  intro _ _
  simp only [Expr.containsAggregate]

theorem anyAggregate_eq_any (es : List Expr) :
    anyAggregate es = (es.map Expr.containsAggregate).any id := by
  induction es with
  | nil => rfl
  | cons e rest ih => rw [anyAggregate, ih, List.map_cons, List.any_cons, id]

theorem anyAggregate_propagateTypes (op : Operator) (operands : List Expr) :
    anyAggregate (propagateTypes op operands) = anyAggregate operands := by
  rw [anyAggregate_eq_any, containsAggregate_typeBlind.propagateTypes, ← anyAggregate_eq_any]

theorem anyAggregateStep_append (path path' : List PathStep) :
    anyAggregateStep (path ++ path') = (anyAggregateStep path || anyAggregateStep path') := by
  induction path with
  | nil => rfl
  | cons step rest ih => cases step <;> simp [anyAggregateStep, ih, Bool.or_assoc]

theorem containsAggregate_of_value? {e : Expr} {v : Value} (h : e.value? = some v) :
    e.containsAggregate = false := by
  cases e with
  | literal _ | param _ => rfl
  | _ => cases h

theorem containsAggregate_of_inlined {role : ArgRole} {e : Expr}
    (hfault : (FragmentArg.mk role e).fault? = none) (hrole : role ≠ .parameter) :
    e.containsAggregate = false := by
  obtain ⟨v, hvalue⟩ := value?_of_fault? hrole hfault
  exact containsAggregate_of_value? hvalue

mutual

/-- Binding neither adds nor removes aggregates. -/
theorem containsAggregate_bind {o : Bool} {e e' : Expr} {s s' : BindState}
    (h : e.bind ctx o s = .ok e' s') : e'.containsAggregate = e.containsAggregate := by
  match e with
  | .literal v =>
    obtain ⟨rfl, -⟩ := Expr.bind_literal.1 h
    rfl
  | .param p =>
    obtain ⟨rfl, -⟩ := Expr.bind_param.1 h
    rfl
  | .field f =>
    obtain ⟨-, _, -, rfl⟩ := Expr.bind_field.1 h
    rfl
  | .binding r =>
    obtain ⟨-, _, _, -, rfl⟩ := Expr.bind_binding.1 h
    rfl
  | .parentBinding r =>
    obtain ⟨-, _, _, -, rfl⟩ := Expr.bind_parentBinding.1 h
    rfl
  | .operator op operands =>
    obtain ⟨-, _, hoperands, rfl⟩ := Expr.bind_operator.1 h
    rw [Expr.containsAggregate, Expr.containsAggregate, anyAggregate_propagateTypes,
      anyAggregate_bindAll hoperands]
  | .aggregate kind args distinct filter =>
    obtain ⟨-, _, _, _, -, -, rfl⟩ := Expr.bind_aggregate.1 h
    rfl
  | .fragment text parts args =>
    obtain ⟨_, _, hprocess, hargs, rfl⟩ := Expr.bind_fragment.1 h
    obtain ⟨-, hfault, -⟩ := process_eq_ok.1 hprocess
    rw [Expr.containsAggregate, Expr.containsAggregate,
      anyAggregateArg_bindArgs (firstFault_eq_none.1 hfault) hargs]
  | .cast value target resolved =>
    obtain ⟨_, _, _, hvalue, -, -, rfl⟩ := Expr.bind_cast.1 h
    rw [Expr.containsAggregate, Expr.containsAggregate, containsAggregate_typeBlind.withCastType,
      containsAggregate_bind hvalue]
  | .subquery kind query =>
    obtain ⟨_, -, rfl⟩ := Expr.bind_subquery.1 h
    rfl
  | .values table =>
    obtain ⟨_, -, rfl, -⟩ := Expr.bind_values.1 h
    rfl
  | .projection kind p =>
    obtain ⟨_, -, rfl⟩ := Expr.bind_projection.1 h
    rfl
  | .merge left right =>
    obtain ⟨_, _, _, hleft, hright, rfl⟩ := Expr.bind_merge.1 h
    rw [Expr.containsAggregate, Expr.containsAggregate, containsAggregate_bind hleft,
      containsAggregate_bind hright]
  | .aliased value name =>
    obtain ⟨-, _, hvalue, rfl⟩ := Expr.bind_aliased.1 h
    rw [Expr.containsAggregate, Expr.containsAggregate, containsAggregate_bind hvalue]
  | .aliasRef name =>
    obtain ⟨-, rfl, -⟩ := Expr.bind_aliasRef.1 h
    rfl
  | .jsonPath base path =>
    obtain ⟨_, _, _, _, hbase, hpath, rfl⟩ := Expr.bind_jsonPath.1 h
    rw [Expr.containsAggregate, Expr.containsAggregate, anyAggregateStep_append, ← Bool.or_assoc,
      containsAggregate_bindAccess hbase, anyAggregateStep_bindPath hpath]
  | .interval count unit =>
    obtain ⟨_, hcount, rfl⟩ := Expr.bind_interval.1 h
    rw [Expr.containsAggregate, Expr.containsAggregate, containsAggregate_typeBlind.withType,
      containsAggregate_bind hcount]
  | .tuple items =>
    obtain ⟨_, hitems, rfl⟩ := Expr.bind_tuple.1 h
    rw [Expr.containsAggregate, Expr.containsAggregate, anyAggregate_bindAll hitems]
  | .mapping entries =>
    obtain ⟨_, hentries, rfl⟩ := Expr.bind_mapping.1 h
    rw [Expr.containsAggregate, Expr.containsAggregate, anyAggregateEntry_bindEntries hentries]
termination_by structural e

theorem containsAggregate_bindAccess {e e' : Expr} {steps : List PathStep} {s s' : BindState}
    (h : e.bindAccess ctx s = .ok (e', steps) s') :
    (e'.containsAggregate || anyAggregateStep steps) = e.containsAggregate := by
  match e with
  | .field f =>
    obtain ⟨-, _, -, heq⟩ := Expr.bindAccess_field.1 h
    cases heq
    rfl
  | .jsonPath base path =>
    obtain ⟨_, _, _, _, hbase, hpath, heq⟩ := Expr.bindAccess_jsonPath.1 h
    cases heq
    rw [anyAggregateStep_append, ← Bool.or_assoc, containsAggregate_bindAccess hbase,
      anyAggregateStep_bindPath hpath, Expr.containsAggregate]
  | .literal _ | .param _ | .binding _ | .parentBinding _ | .operator _ _ | .aggregate _ _ _ _
  | .fragment _ _ _ | .cast _ _ _ | .subquery _ _ | .values _ | .projection _ _ | .merge _ _
  | .aliased _ _ | .aliasRef _ | .interval _ _ | .tuple _ | .mapping _ =>
    simp [Expr.bindAccess] at h
termination_by structural e

theorem anyAggregate_bindAll {o : Bool} {es es' : List Expr} {s s' : BindState}
    (h : bindAll ctx o es s = .ok es' s') : anyAggregate es' = anyAggregate es := by
  match es with
  | [] =>
    obtain ⟨rfl, -⟩ := bindAll_nil.1 h
    rfl
  | e :: rest =>
    obtain ⟨_, _, _, he, hrest, rfl⟩ := bindAll_cons.1 h
    rw [anyAggregate, anyAggregate, containsAggregate_bind he, anyAggregate_bindAll hrest]
termination_by structural es

theorem anyAggregateEntry_bindEntries {o : Bool} {entries entries' : List (String × Expr)}
    {s s' : BindState}
    (h : bindEntries ctx o entries s = .ok entries' s') :
    anyAggregateEntry entries' = anyAggregateEntry entries := by
  match entries with
  | [] =>
    obtain ⟨rfl, -⟩ := bindEntries_nil.1 h
    rfl
  | (key, e) :: rest =>
    obtain ⟨_, _, _, he, hrest, rfl⟩ := bindEntries_cons.1 h
    rw [anyAggregateEntry, anyAggregateEntry, containsAggregate_bind he,
      anyAggregateEntry_bindEntries hrest]
termination_by structural entries

theorem anyAggregateArg_bindArgs {args args' : List FragmentArg} {s s' : BindState}
    (hfault : ∀ arg ∈ args, arg.fault? = none) (h : bindArgs ctx args s = .ok args' s') :
    anyAggregateArg args' = anyAggregateArg args := by
  match args with
  | [] =>
    obtain ⟨rfl, -⟩ := bindArgs_nil.1 h
    rfl
  | .mk role e :: rest =>
    rw [List.forall_mem_cons] at hfault
    by_cases hrole : role = .parameter
    · obtain rfl := hrole
      obtain ⟨_, _, _, he, hrest, rfl⟩ := bindArgs_parameter.1 h
      rw [anyAggregateArg, anyAggregateArg, containsAggregate_bind he,
        anyAggregateArg_bindArgs hfault.2 hrest]
    · obtain ⟨_, _, _, harg, hrest, rfl⟩ := (bindArgs_other hrole).1 h
      rw [anyAggregateArg.eq_2 role, containsAggregate_of_inlined hfault.1 hrole,
        ← anyAggregateArg_bindArgs hfault.2 hrest]
      rcases inlined_cases hfault.1 with
        ⟨_, heq, -⟩ | ⟨_, v, -, heq, -⟩ | ⟨p, -, heq, -⟩
      · cases heq
        exact absurd rfl hrole
      · rw [heq] at harg
        obtain ⟨rfl, -⟩ := FragmentArg.assign_literal.1 harg
        rfl
      · rw [heq] at harg
        obtain ⟨rfl, -⟩ := FragmentArg.assign_splice.1 harg
        rfl
termination_by structural args

theorem anyAggregateStep_bindPath {path path' : List PathStep} {s s' : BindState}
    (h : bindPath ctx path s = .ok path' s') : anyAggregateStep path' = anyAggregateStep path := by
  match path with
  | [] =>
    obtain ⟨rfl, -⟩ := bindPath_nil.1 h
    rfl
  | .computed e :: rest =>
    obtain ⟨_, _, _, he, hrest, rfl⟩ := bindPath_computed.1 h
    rw [anyAggregateStep, anyAggregateStep, containsAggregate_bind he,
      anyAggregateStep_bindPath hrest]
  | .key name :: rest =>
    obtain ⟨_, hrest, rfl⟩ := bindPath_key.1 h
    rw [anyAggregateStep, anyAggregateStep, anyAggregateStep_bindPath hrest]
  | .index i :: rest =>
    obtain ⟨_, hrest, rfl⟩ := bindPath_index.1 h
    rw [anyAggregateStep, anyAggregateStep, anyAggregateStep_bindPath hrest]
termination_by structural path

end

/-! ### Values -/

/-- An argument that is not an ordinary expression is a value, and is bound to one. -/
theorem values_of_assign {role : ArgRole} {e : Expr} {arg' : FragmentArg} {s s' : BindState}
    (hrole : role ≠ .parameter) (hfault : (FragmentArg.mk role e).fault? = none)
    (h : (FragmentArg.mk role e).inlined.assign s = .ok arg' s') :
    (∃ v, e.value? = some v) ∧ ∃ role' e', arg' = .mk role' e' ∧ ∃ v, e'.value? = some v := by
  refine ⟨value?_of_fault? hrole hfault, ?_⟩
  rcases inlined_cases hfault with ⟨_, heq, -⟩ | ⟨role', v, -, heq, -⟩ | ⟨p, -, heq, -⟩
  · cases heq
    exact absurd rfl hrole
  · rw [heq] at h
    obtain ⟨rfl, -⟩ := FragmentArg.assign_literal.1 h
    exact ⟨_, _, rfl, v, rfl⟩
  · rw [heq] at h
    obtain ⟨rfl, -⟩ := FragmentArg.assign_splice.1 h
    exact ⟨_, _, rfl, _, rfl⟩

end QueryCompiler
