import QueryCompiler.Proofs.Redefinition.Congruence

/-!
# Definitions of a bound projection

The definitions of a projection are bound one by one, each value on its own, and normalising takes
them one by one as well. Collecting them succeeds exactly if those of one name are the same.
-/

namespace QueryCompiler

/-! ### Definitions one by one -/

/-- A definition and what it becomes when its value is bound. -/
def BoundDefinition (ctx : Context) (definition definition' : String × Expr) : Prop :=
  definition'.1 = definition.1 ∧
    ∃ s s', definition.2.bind ctx false s = .ok definition'.2 s'

mutual

theorem Expr.definitions_of_bind {ctx : Context} {o : Bool} {e e' : Expr} {s s' : BindState}
    (h : e.bind ctx o s = .ok e' s') :
    List.Forall₂ (BoundDefinition ctx) e.outermostAliases e'.outermostAliases := by
  match e with
  | .aliased value name =>
    obtain ⟨-, _, hvalue, rfl⟩ := Expr.bind_aliased.1 h
    exact .cons ⟨rfl, _, _, hvalue⟩ .nil
  | .tuple items =>
    obtain ⟨_, hitems, rfl⟩ := Expr.bind_tuple.1 h
    exact definitions_of_bindAll hitems
  | .mapping entries =>
    obtain ⟨_, hentries, rfl⟩ := Expr.bind_mapping.1 h
    exact definitions_of_bindEntries hentries
  | .merge left right =>
    obtain ⟨_, _, _, hleft, hright, rfl⟩ := Expr.bind_merge.1 h
    exact List.rel_append (Expr.definitions_of_bind hleft) (Expr.definitions_of_bind hright)
  | .literal _ | .param _ | .field _ | .binding _ | .parentBinding _ | .operator _ _
  | .aggregate _ _ _ _ | .fragment _ _ _ | .cast _ _ _ | .subquery _ _ | .values _
  | .projection _ _ | .aliasRef _ | .jsonPath _ _ | .interval _ _ =>
    rw [List.map_eq_nil_iff.1 (aliasNames_bind h)]
    exact .nil

theorem definitions_of_bindAll {ctx : Context} {o : Bool} {es es' : List Expr}
    {s s' : BindState} (h : bindAll ctx o es s = .ok es' s') :
    List.Forall₂ (BoundDefinition ctx) (outermostAliasesAll es) (outermostAliasesAll es') := by
  match es with
  | [] =>
    obtain ⟨rfl, -⟩ := bindAll_nil.1 h
    exact .nil
  | e :: rest =>
    obtain ⟨_, _, _, he, hrest, rfl⟩ := bindAll_cons.1 h
    exact List.rel_append (Expr.definitions_of_bind he) (definitions_of_bindAll hrest)

theorem definitions_of_bindEntries {ctx : Context} {o : Bool}
    {entries entries' : List (String × Expr)} {s s' : BindState}
    (h : bindEntries ctx o entries s = .ok entries' s') :
    List.Forall₂ (BoundDefinition ctx) (outermostAliasesEntries entries)
      (outermostAliasesEntries entries') := by
  match entries with
  | [] =>
    obtain ⟨rfl, -⟩ := bindEntries_nil.1 h
    exact .nil
  | (key, e) :: rest =>
    obtain ⟨_, _, _, he, hrest, rfl⟩ := bindEntries_cons.1 h
    exact List.rel_append (Expr.definitions_of_bind he) (definitions_of_bindEntries hrest)

end

/-- A definition with its value normalised. -/
def normalizeDefinition (definition : String × Expr) : String × Expr :=
  (definition.1, definition.2.normalize)

theorem outermostAliases_mergeChain (operands : List Expr) :
    (mergeChain operands).outermostAliases = operands.flatMap Expr.outermostAliases := by
  cases operands with
  | nil => rfl
  | cons e rest =>
    rw [mergeChain, List.flatMap_cons]
    induction rest generalizing e with
    | nil => simp
    | cons f rest ih =>
      rw [List.foldl_cons, ih, Expr.outermostAliases, List.flatMap_cons, List.append_assoc]

theorem outermostAliases_mergedChain (operands : List Expr) :
    (mergeChain (mergeOperands operands)).outermostAliases =
      operands.flatMap Expr.outermostAliases := by
  rw [outermostAliases_mergeChain, flatMap_mergeOperands fun _ _ => rfl]

mutual

theorem outermostAliases_chain (e : Expr) :
    e.chain.flatMap Expr.outermostAliases = e.outermostAliases.map normalizeDefinition := by
  match e with
  | .merge left right =>
    rw [Expr.chain, List.flatMap_append, outermostAliases_chain left, outermostAliases_chain right,
      Expr.outermostAliases, List.map_append]
  | .tuple items =>
    rw [Expr.chain, List.flatMap_singleton]
    exact outermostAliases_normalizeAll items
  | .mapping entries =>
    rw [Expr.chain, List.flatMap_singleton]
    exact outermostAliases_normalizeEntries entries
  | .aliased value name => rfl
  | .literal _ | .param _ | .field _ | .binding _ | .parentBinding _ | .operator _ _
  | .aggregate _ _ _ _ | .fragment _ _ _ | .cast _ _ _ | .subquery _ _ | .values _
  | .projection _ _ | .aliasRef _ | .jsonPath _ _ | .interval _ _ => rfl

theorem outermostAliases_normalizeAll (es : List Expr) :
    outermostAliasesAll (normalizeAll es) = (outermostAliasesAll es).map normalizeDefinition := by
  match es with
  | [] => rfl
  | e :: rest =>
    rw [normalizeAll, outermostAliasesAll, outermostAliasesAll, List.map_append,
      outermostAliases_mergedChain, outermostAliases_chain e, outermostAliases_normalizeAll rest]

theorem outermostAliases_normalizeEntries (entries : List (String × Expr)) :
    outermostAliasesEntries (normalizeEntries entries) =
      (outermostAliasesEntries entries).map normalizeDefinition := by
  match entries with
  | [] => rfl
  | (key, e) :: rest =>
    rw [normalizeEntries, outermostAliasesEntries, outermostAliasesEntries, List.map_append,
      outermostAliases_mergedChain, outermostAliases_chain e,
      outermostAliases_normalizeEntries rest]

end

theorem outermostAliases_normalize (e : Expr) :
    e.normalize.outermostAliases = e.outermostAliases.map normalizeDefinition :=
  (outermostAliases_mergedChain e.chain).trans (outermostAliases_chain e)

/-- A definition as it is written, and as it stands in the projection of a bound query. -/
def CompiledDefinition (ctx : Context) (definition definition' : String × Expr) : Prop :=
  ∃ bound, BoundDefinition ctx definition bound ∧ definition' = normalizeDefinition bound

theorem selectDefinitions_of_bind {ctx : Context} {select select' : Option Expr}
    {s s' : BindState} (h : bindOption ctx true select s = .ok select' s') :
    List.Forall₂ (CompiledDefinition ctx) (selectDefinitions select)
      (selectDefinitions (select'.map Expr.normalize)) := by
  cases select with
  | none =>
    obtain ⟨rfl, -⟩ := bindOption_none.1 h
    exact .nil
  | some e =>
    obtain ⟨e', he, rfl⟩ := bindOption_some.1 h
    change List.Forall₂ _ e.outermostAliases e'.normalize.outermostAliases
    rw [outermostAliases_normalize, List.forall₂_map_right_iff]
    exact (Expr.definitions_of_bind he).imp fun _ bound hbound => ⟨bound, hbound, rfl⟩

/-! ### Definitions that can be collected -/

namespace AliasTable

/-- Where names may be defined again, they can be with values that are all the same. -/
theorem defineAll_of_same {table : AliasTable} {entries : List (String × Expr)}
    (hallow : table.allowIdentical = true)
    (htable : ∀ entry ∈ entries, ∀ value, table.resolve entry.1 = some value →
      value.same entry.2 = true)
    (hpairs : entries.Pairwise fun entry entry' =>
      entry.1 = entry'.1 → entry.2.same entry'.2 = true) :
    ∃ table', table.defineAll entries = .ok table' := by
  induction entries generalizing table with
  | nil => exact ⟨table, rfl⟩
  | cons entry rest ih =>
    obtain ⟨name, value⟩ := entry
    rw [List.forall_mem_cons] at htable
    obtain ⟨hfirst, hrest⟩ := List.pairwise_cons.1 hpairs
    cases hresolve : table.resolve name with
    | some existing =>
      have hdefine : table.define name value = .ok table := by
        simp only [define, hresolve, hallow, htable.1 existing hresolve]
        rfl
      rw [defineAll, hdefine]
      exact ih hallow htable.2 hrest
    | none =>
      have hdefine : table.define name value =
          .ok { table with entries := table.entries ++ [(name, value)] } := by
        simp only [define, hresolve]
      rw [defineAll, hdefine]
      refine ih hallow (fun entry' hentry' value' hvalue' => ?_) hrest
      rw [resolve, findEntry_append] at hvalue'
      cases hfound : findEntry entry'.1 table.entries with
      | some found =>
        rw [hfound] at hvalue'
        cases hvalue'
        exact htable.2 entry' hentry' value' hfound
      | none =>
        rw [hfound, Option.none_or, findEntry] at hvalue'
        split at hvalue'
        · rename_i hname
          cases hvalue'
          exact hfirst entry' hentry' hname
        · cases hvalue'

/-- The aliases of a projection can be collected exactly if those of one name are the same. -/
theorem collect_iff {select : Option Expr} :
    (∃ table, collect select true = .ok table) ↔
      (selectDefinitions select).Pairwise fun definition definition' =>
        definition.1 = definition'.1 → definition.2.same definition'.2 = true := by
  refine ⟨fun ⟨table, h⟩ => same_of_collect h, fun h => ?_⟩
  cases select with
  | none => exact ⟨_, rfl⟩
  | some e => exact defineAll_of_same rfl (by simp [empty, resolve, findEntry]) h

/-- Aliases are refused for a name that is defined twice. -/
theorem duplicate_of_defineAll {table : AliasTable} {entries : List (String × Expr)}
    {e : AliasError} (h : table.defineAll entries = .error e) : ∃ name, e = .duplicate name := by
  induction entries generalizing table with
  | nil => cases h
  | cons entry rest ih =>
    obtain ⟨name, value⟩ := entry
    rw [defineAll] at h
    split at h
    · exact ih h
    · rename_i hdefine
      cases h
      rw [define] at hdefine
      split at hdefine
      · split at hdefine
        · cases hdefine
        · cases hdefine
          exact ⟨name, rfl⟩
      · cases hdefine

theorem duplicate_of_collect {select : Option Expr} {allow : Bool} {e : AliasError}
    (h : collect select allow = .error e) : ∃ name, e = .duplicate name := by
  cases select with
  | none => cases h
  | some _ => exact duplicate_of_defineAll h

end AliasTable

end QueryCompiler
