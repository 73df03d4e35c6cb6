import QueryCompiler.Proofs.Redefinition.Indices

/-!
# What binding does to trees that are the same

The parts of binding that do more to a tree than copy it, each on two trees that are the same:
normalising a selection, typing parameters, inlining the argument of a fragment and declaring the
sources of a query. Normalising keeps trees the same in any case; the others do where there is
nothing to number: no parameter and no values table.
-/

namespace QueryCompiler

/-! ### Normal projections -/

theorem sameExprs_append {es fs es' fs' : List Expr} (h : sameExprs es es' = true)
    (h' : sameExprs fs fs' = true) : sameExprs (es ++ fs) (es' ++ fs') = true := by
  induction es generalizing es' with
  | nil =>
    obtain rfl := sameExprs_nil.1 h
    exact h'
  | cons e rest ih =>
    obtain ⟨e', rest', rfl, he, hrest⟩ := sameExprs_cons.1 h
    exact sameExprs_cons.2 ⟨e', rest' ++ fs', rfl, he, ih hrest⟩

theorem sameExprs_singleton {e e' : Expr} (h : e.same e' = true) : sameExprs [e] [e'] = true :=
  sameExprs_cons.2 ⟨e', [], rfl, h, sameExprs_nil.2 rfl⟩

theorem Expr.eq_of_same_projection {e : Expr} {kind : ProjectionKind} {p : Projection}
    (h : e.same (.projection kind p) = true) : e = .projection kind p := by
  cases e with
  | projection kind' p' => exact (Expr.same_reference rfl).1 h
  | _ => simp [Expr.same] at h

theorem same_absorb {operand operand' : Expr} {merged merged' : List Expr}
    (hoperand : operand.same operand' = true) (hmerged : sameExprs merged merged' = true) :
    sameExprs (absorb operand merged) (absorb operand' merged') = true := by
  induction merged generalizing merged' with
  | nil =>
    obtain rfl := sameExprs_nil.1 hmerged
    exact sameExprs_singleton hoperand
  | cons e rest ih =>
    obtain ⟨e', rest', rfl, he, hrest⟩ := sameExprs_cons.1 hmerged
    by_cases h : e.Absorbs operand
    · obtain ⟨kind, p, q, rfl, rfl, hsource⟩ := h.exists_projection
      obtain rfl := (Expr.same_reference rfl).1 he
      obtain rfl := (Expr.same_reference rfl).1 hoperand
      rw [absorb_cons_of_sameSource hsource, absorb_cons_of_sameSource hsource]
      exact sameExprs_cons.2 ⟨_, _, rfl, (Expr.same_reference rfl).2 rfl, hrest⟩
    · have h' : ¬ e'.Absorbs operand' := by
        intro hother
        obtain ⟨kind, p, q, rfl, rfl, -⟩ := hother.exists_projection
        rw [Expr.eq_of_same_projection he, Expr.eq_of_same_projection hoperand] at h
        exact h hother
      rw [absorb_cons_of_not_absorbs h, absorb_cons_of_not_absorbs h']
      exact sameExprs_cons.2 ⟨e', _, rfl, he, ih hrest⟩

theorem same_mergeOperands {operands operands' : List Expr}
    (h : sameExprs operands operands' = true) :
    sameExprs (mergeOperands operands) (mergeOperands operands') = true := by
  suffices hfold : ∀ merged merged' : List Expr, sameExprs merged merged' = true →
      sameExprs (operands.foldl (fun merged operand => absorb operand merged) merged)
        (operands'.foldl (fun merged operand => absorb operand merged) merged') = true from
    hfold [] [] (sameExprs_nil.2 rfl)
  induction operands generalizing operands' with
  | nil =>
    obtain rfl := sameExprs_nil.1 h
    exact fun _ _ hmerged => hmerged
  | cons operand rest ih =>
    obtain ⟨operand', rest', rfl, hoperand, hrest⟩ := sameExprs_cons.1 h
    intro merged merged' hmerged
    exact ih hrest _ _ (same_absorb hoperand hmerged)

theorem same_foldl_merge {rest rest' : List Expr} (h : sameExprs rest rest' = true) {e e' : Expr}
    (he : e.same e' = true) : (rest.foldl .merge e).same (rest'.foldl .merge e') = true := by
  induction rest generalizing rest' e e' with
  | nil =>
    obtain rfl := sameExprs_nil.1 h
    exact he
  | cons f rest ih =>
    obtain ⟨f', rest', rfl, hf, hrest⟩ := sameExprs_cons.1 h
    exact ih hrest (Expr.same_merge.2 ⟨e', f', rfl, he, hf⟩)

theorem same_mergeChain {operands operands' : List Expr}
    (h : sameExprs operands operands' = true) :
    (mergeChain operands).same (mergeChain operands') = true := by
  cases operands with
  | nil =>
    obtain rfl := sameExprs_nil.1 h
    exact Expr.same_mapping.2 ⟨[], rfl, sameMapping_nil.2 rfl⟩
  | cons e rest =>
    obtain ⟨e', rest', rfl, he, hrest⟩ := sameExprs_cons.1 h
    exact same_foldl_merge hrest he

mutual

theorem same_chain (e : Expr) {e' : Expr} (h : e.same e' = true) :
    sameExprs e.chain e'.chain = true := by
  match e with
  | .merge left right =>
    obtain ⟨left', right', rfl, hleft, hright⟩ := Expr.same_merge.1 h
    exact sameExprs_append (same_chain left hleft) (same_chain right hright)
  | .tuple items =>
    obtain ⟨items', rfl, hitems⟩ := Expr.same_tuple.1 h
    exact sameExprs_singleton (Expr.same_tuple.2 ⟨_, rfl, same_normalizeAll items hitems⟩)
  | .mapping entries =>
    obtain ⟨entries', rfl, hentries⟩ := Expr.same_mapping.1 h
    exact sameExprs_singleton (Expr.same_mapping.2 ⟨_, rfl, same_normalizeEntries entries hentries⟩)
  | .aliased value name =>
    obtain ⟨value', rfl, hvalue⟩ := Expr.same_aliased.1 h
    have hnormal := same_mergeChain (same_mergeOperands (same_chain value hvalue))
    exact sameExprs_singleton (Expr.same_aliased.2 ⟨_, rfl, hnormal⟩)
  | .projection kind p =>
    obtain rfl := (Expr.same_reference rfl).1 h
    exact sameExprs_singleton ((Expr.same_reference rfl).2 rfl)
  | .field _ | .binding _ | .parentBinding _ | .aliasRef _ =>
    obtain rfl := (Expr.same_reference rfl).1 h
    exact sameExprs_singleton h
  | .literal _ =>
    obtain ⟨_, rfl, -⟩ := Expr.same_literal.1 h
    exact sameExprs_singleton h
  | .param _ =>
    obtain ⟨_, rfl, -⟩ := Expr.same_param.1 h
    exact sameExprs_singleton h
  | .operator _ _ =>
    obtain ⟨_, rfl, -⟩ := Expr.same_operator.1 h
    exact sameExprs_singleton h
  | .aggregate _ _ _ _ =>
    obtain ⟨_, _, rfl, -⟩ := Expr.same_aggregate.1 h
    exact sameExprs_singleton h
  | .fragment _ _ _ =>
    obtain ⟨_, rfl, -⟩ := Expr.same_fragment.1 h
    exact sameExprs_singleton h
  | .cast _ _ _ =>
    obtain ⟨_, rfl, -⟩ := Expr.same_cast.1 h
    exact sameExprs_singleton h
  | .subquery _ _ =>
    obtain ⟨_, rfl, -⟩ := Expr.same_subquery.1 h
    exact sameExprs_singleton h
  | .values _ =>
    obtain ⟨_, rfl, -⟩ := Expr.same_values.1 h
    exact sameExprs_singleton h
  | .jsonPath _ _ =>
    obtain ⟨_, _, rfl, -⟩ := Expr.same_jsonPath.1 h
    exact sameExprs_singleton h
  | .interval _ _ =>
    obtain ⟨_, rfl, -⟩ := Expr.same_interval.1 h
    exact sameExprs_singleton h
termination_by structural e

theorem same_normalizeAll (es : List Expr) {es' : List Expr} (h : sameExprs es es' = true) :
    sameExprs (normalizeAll es) (normalizeAll es') = true := by
  match es with
  | [] =>
    obtain rfl := sameExprs_nil.1 h
    exact h
  | e :: rest =>
    obtain ⟨e', rest', rfl, he, hrest⟩ := sameExprs_cons.1 h
    exact sameExprs_cons.2 ⟨_, _, rfl, same_mergeChain (same_mergeOperands (same_chain e he)),
      same_normalizeAll rest hrest⟩
termination_by structural es

theorem same_normalizeEntries (entries : List (String × Expr)) {entries' : List (String × Expr)}
    (h : sameMapping entries entries' = true) :
    sameMapping (normalizeEntries entries) (normalizeEntries entries') = true := by
  match entries with
  | [] =>
    obtain rfl := sameMapping_nil.1 h
    exact h
  | (key, e) :: rest =>
    obtain ⟨e', rest', rfl, he, hrest⟩ := sameMapping_cons.1 h
    exact sameMapping_cons.2 ⟨_, _, rfl, same_mergeChain (same_mergeOperands (same_chain e he)),
      same_normalizeEntries rest hrest⟩
termination_by structural entries

end

theorem same_normalize {e e' : Expr} (h : e.same e' = true) :
    e.normalize.same e'.normalize = true :=
  same_mergeChain (same_mergeOperands (same_chain e h))

/-! ### Stages that leave trees without carriers alone -/

theorem withType_of_carriers {e : Expr} (h : e.carriers = []) (t : ResolvedType) :
    e.withType t = e := by
  cases e with
  | param p => cases h
  | _ => rfl

theorem withCastType_of_carriers {e : Expr} (h : e.carriers = []) (t : ResolvedType) :
    e.withCastType t = e := by
  cases e with
  | param p => cases h
  | _ => rfl

theorem carriersAll_eq_nil {es : List Expr} :
    carriersAll es = [] ↔ ∀ b ∈ es.map fun e => e.carriers.isEmpty, b = true := by
  simp [carriersAll_eq_flatMap]

theorem isEmpty_carriers_typeBlind : TypeBlind fun e => e.carriers.isEmpty := fun _ _ => rfl

theorem carriers_of_withType {e : Expr} {t : ResolvedType} (h : (e.withType t).carriers = []) :
    e.carriers = [] := by
  rw [← List.isEmpty_iff] at h ⊢
  rwa [isEmpty_carriers_typeBlind.withType t e] at h

theorem carriers_of_withCastType {e : Expr} {t : ResolvedType}
    (h : (e.withCastType t).carriers = []) : e.carriers = [] := by
  rw [← List.isEmpty_iff] at h ⊢
  rwa [isEmpty_carriers_typeBlind.withCastType t e] at h

theorem carriers_of_propagateTypes {op : Operator} {operands : List Expr}
    (h : carriersAll (propagateTypes op operands) = []) : carriersAll operands = [] := by
  rw [carriersAll_eq_nil] at h ⊢
  rwa [isEmpty_carriers_typeBlind.propagateTypes op operands] at h

theorem propagateTypes_of_carriers {operands : List Expr} (h : carriersAll operands = [])
    (op : Operator) : propagateTypes op operands = operands := by
  rcases propagateTypes_cases op operands with
    heq | ⟨left, right, t, rfl, heq, -⟩ | ⟨left, right, t, rfl, heq, -⟩
  · exact heq
  · simp only [carriersAll, List.append_eq_nil_iff] at h
    rw [heq, withType_of_carriers h.2.1]
  · simp only [carriersAll, List.append_eq_nil_iff] at h
    rw [heq, withType_of_carriers h.1]

theorem carriers_of_same {e e' : Expr} (h : e.same e' = true) (hplain : e.carriers = []) :
    e'.carriers = [] := by
  have hfirsts := Expr.firsts_of_same e h
  rw [hplain] at hfirsts
  exact List.map_eq_nil_iff.1 hfirsts.symm

theorem carriersAll_of_same {es es' : List Expr} (h : sameExprs es es' = true)
    (hplain : carriersAll es = []) : carriersAll es' = [] := by
  have hfirsts := firsts_of_sameExprs es h
  rw [hplain] at hfirsts
  exact List.map_eq_nil_iff.1 hfirsts.symm

theorem same_withType {e e' : Expr} (h : e.same e' = true) (hplain : e.carriers = [])
    (t : ResolvedType) : (e.withType t).same (e'.withType t) = true := by
  rwa [withType_of_carriers hplain, withType_of_carriers (carriers_of_same h hplain)]

theorem same_withCastType {e e' : Expr} (h : e.same e' = true) (hplain : e.carriers = [])
    (t : ResolvedType) : (e.withCastType t).same (e'.withCastType t) = true := by
  rwa [withCastType_of_carriers hplain, withCastType_of_carriers (carriers_of_same h hplain)]

theorem same_propagateTypes {es es' : List Expr} (h : sameExprs es es' = true)
    (hplain : carriersAll es = []) (op : Operator) :
    sameExprs (propagateTypes op es) (propagateTypes op es') = true := by
  rwa [propagateTypes_of_carriers hplain, propagateTypes_of_carriers (carriersAll_of_same h hplain)]

theorem sameOption_normalize {e e' : Option Expr} (h : sameOption e e' = true) :
    sameOption (e.map Expr.normalize) (e'.map Expr.normalize) = true := by
  cases e with
  | none =>
    obtain rfl := sameOption_none.1 h
    exact h
  | some a =>
    obtain ⟨b, rfl, hab⟩ := sameOption_some.1 h
    exact sameOption_some.2 ⟨b.normalize, rfl, same_normalize hab⟩

theorem sameOption_withType {e e' : Option Expr} (h : sameOption e e' = true)
    (hplain : carriersOption e = []) (t : ResolvedType) :
    sameOption (e.map (Expr.withType t)) (e'.map (Expr.withType t)) = true := by
  cases e with
  | none =>
    obtain rfl := sameOption_none.1 h
    exact h
  | some a =>
    obtain ⟨b, rfl, hab⟩ := sameOption_some.1 h
    exact sameOption_some.2 ⟨b.withType t, rfl, same_withType hab hplain t⟩

theorem carriersOption_of_normalize {e : Option Expr}
    (h : carriersOption (e.map Expr.normalize) = []) : carriersOption e = [] := by
  cases e with
  | none => exact h
  | some e =>
    change e.normalize.carriers = [] at h
    rwa [carriers_gathers.normalize] at h

theorem carriersOption_of_withType {e : Option Expr} {t : ResolvedType}
    (h : carriersOption (e.map (Expr.withType t)) = []) : carriersOption e = [] := by
  cases e with
  | none => exact h
  | some e => exact carriers_of_withType h

/-! ### Arguments of fragments -/

theorem value?_of_same {e e' : Expr} {v : Value} (h : e.same e' = true) (hv : e.value? = some v) :
    ∃ w, e'.value? = some w ∧ v.same w = true := by
  cases e with
  | literal value =>
    cases hv
    obtain ⟨w, rfl, hw⟩ := Expr.same_literal.1 h
    exact ⟨w, rfl, hw⟩
  | param p =>
    cases hv
    obtain ⟨q, rfl, hq⟩ := Expr.same_param.1 h
    simp only [Param.same, Bool.and_eq_true] at hq
    exact ⟨q.value, rfl, hq.1.1.1⟩
  | _ => cases hv

/-- A spliced argument without fault is bound to a parameter. -/
theorem carriers_of_splice {e : Expr} {arg' : FragmentArg} {s s' : BindState}
    (hfault : (FragmentArg.mk .splice e).fault? = none)
    (h : (FragmentArg.mk .splice e).inlined.assign s = .ok arg' s') : carriersArgs [arg'] ≠ [] := by
  have hparam : ∃ p, (FragmentArg.mk .splice e).inlined = .mk .splice (.param p) := by
    obtain ⟨v, hv⟩ := value?_of_fault? (by simp) hfault
    cases e with
    | literal _ | param _ => exact ⟨_, rfl⟩
    | _ => cases hv
  obtain ⟨p, heq⟩ := hparam
  rw [heq] at h
  obtain ⟨rfl, -⟩ := FragmentArg.assign_splice.1 h
  simp [carriersArgs, Expr.carriers]

/-- Arguments that are no ordinary expressions and leave no carrier are written out alike. -/
theorem same_assign {role : ArgRole} {e e' : Expr} {arg arg' : FragmentArg}
    {s s' t t' : BindState} (hrole : role ≠ .parameter) (hsame : e.same e' = true)
    (hfault : (FragmentArg.mk role e).fault? = none)
    (h : (FragmentArg.mk role e).inlined.assign s = .ok arg t)
    (h' : (FragmentArg.mk role e').inlined.assign s' = .ok arg' t')
    (hplain : carriersArgs [arg] = []) :
    ∃ v w, arg = .mk role (.literal v) ∧ arg' = .mk role (.literal w) ∧ v.same w = true := by
  cases hinline : role.isInline with
  | true =>
    obtain ⟨v, hv⟩ := value?_of_fault? hrole hfault
    obtain ⟨w, hw, hvw⟩ := value?_of_same hsame hv
    rw [inlined_of_value? hinline hv] at h
    rw [inlined_of_value? hinline hw] at h'
    exact ⟨v, w, (FragmentArg.assign_literal.1 h).1, (FragmentArg.assign_literal.1 h').1, hvw⟩
  | false =>
    cases role with
    | parameter => exact absurd rfl hrole
    | splice => exact absurd hplain (carriers_of_splice hfault h)
    | identifier | constant => cases hinline

theorem samePath_append {path path' more more' : List PathStep} (h : samePath path path' = true)
    (h' : samePath more more' = true) : samePath (path ++ more) (path' ++ more') = true := by
  induction path generalizing path' with
  | nil =>
    obtain rfl := samePath_nil.1 h
    exact h'
  | cons step rest ih =>
    cases step with
    | key name =>
      obtain ⟨rest', rfl, hrest⟩ := samePath_key.1 h
      exact samePath_key.2 ⟨_, rfl, ih hrest⟩
    | index i =>
      obtain ⟨rest', rfl, hrest⟩ := samePath_index.1 h
      exact samePath_index.2 ⟨_, rfl, ih hrest⟩
    | computed e =>
      obtain ⟨e', rest', rfl, he, hrest⟩ := samePath_computed.1 h
      exact samePath_computed.2 ⟨_, _, rfl, he, ih hrest⟩

/-! ### Sources -/

/-- Contexts in which names mean the same. -/
structure Context.Agrees (ctx ctx' : Context) : Prop where
  catalog : ctx'.catalog = ctx.catalog
  scopes : ctx'.scopes = ctx.scopes

/-- Sources that are the same show the same, if they are no tables of values. -/
theorem declare_of_same {source source' : Source} (h : source.same source' = true)
    (hvalues : source.table? = none) (catalog : Catalog) (scopes : ScopeStack) :
    source'.declare catalog scopes = source.declare catalog scopes ∧
      source'.name = source.name := by
  obtain ⟨origin, name⟩ := source
  obtain ⟨origin', rfl, horigin⟩ := Source.same_mk.1 h
  refine ⟨?_, rfl⟩
  cases origin with
  | schema schema =>
    obtain rfl := Origin.same_schema.1 horigin
    rfl
  | table table =>
    obtain rfl := Origin.same_table.1 horigin
    rfl
  | values table => cases hvalues
  | subquery query =>
    obtain ⟨_, rfl, -⟩ := Origin.same_subquery.1 horigin
    rfl
  | fragment e =>
    obtain ⟨_, rfl, -⟩ := Origin.same_fragment.1 horigin
    rfl

theorem table?_of_bind {ctx : Context} {validated : Option ValuesTable} {source source' : Source}
    {s s' : BindState} (h : source.bind ctx validated s = .ok source' s')
    (hplain : source'.carriers = []) : source.table? = none := by
  obtain ⟨origin, name⟩ := source
  cases origin with
  | values table =>
    obtain ⟨rfl, -⟩ := Source.bind_values.1 h
    cases hplain
  | schema _ | table _ | subquery _ | fragment _ => rfl

theorem table?_of_bindJoins {ctx : Context} {validated : List (Option ValuesTable)}
    {joins joins' : List Join} {s s' : BindState}
    (h : bindJoins ctx validated joins s = .ok joins' s') (hplain : carriersJoins joins' = []) :
    ∀ source ∈ joins.map Join.source, source.table? = none := by
  induction joins generalizing validated s joins' with
  | nil => simp
  | cons join rest ih =>
    obtain ⟨kind, source, on⟩ := join
    obtain ⟨_, _, _, _, _, hsource, -, hrest, rfl⟩ := bindJoins_cons.1 h
    simp only [carriersJoins, List.append_eq_nil_iff] at hplain
    rw [List.map_cons, List.forall_mem_cons]
    exact ⟨table?_of_bind hsource hplain.1.1, ih hrest hplain.2⟩

/-- Sources that are the same are declared with the same scope. -/
theorem declareSources_of_same (catalog : Catalog) (outer : ScopeStack) (scope : Scope)
    {sources sources' : List Source}
    (h : List.Forall₂ (fun source source' => source.same source' = true) sources sources')
    (hvalues : ∀ source ∈ sources, source.table? = none) :
    declareSources catalog outer scope sources' = declareSources catalog outer scope sources := by
  induction h generalizing scope with
  | nil => rfl
  | cons hsource _ ih =>
    rw [List.forall_mem_cons] at hvalues
    obtain ⟨hdeclare, hname⟩ := declare_of_same hsource hvalues.1 catalog (scope :: outer)
    simp only [declareSources, hdeclare, hname, ih _ hvalues.2]

theorem sources_of_sameJoins {joins joins' : List Join} (h : sameJoins joins joins' = true) :
    List.Forall₂ (fun source source' => source.same source' = true) (joins.map Join.source)
      (joins'.map Join.source) := by
  induction joins generalizing joins' with
  | nil =>
    obtain rfl := sameJoins_nil.1 h
    exact .nil
  | cons join rest ih =>
    obtain ⟨kind, source, on⟩ := join
    obtain ⟨source', on', rest', rfl, hsource, -, hrest⟩ := sameJoins_cons.1 h
    exact .cons hsource (ih hrest)

end QueryCompiler
