import QueryCompiler.Proofs.Aliasing
import QueryCompiler.Proofs.Tables

/-!
# Indices of values that are the same

Trees that are the same have the same indices. In a settled query no two carriers share an index, so
that of two values that its projection defines under one name, carriers in the first make them
differ.
-/

namespace QueryCompiler

/-! ### The indices of a tree -/

/-- The first indices of some carriers. -/
def firsts (carriers : List Carrier) : List (Option Nat) := carriers.map Carrier.first?

@[simp] theorem firsts_append (carriers more : List Carrier) :
    firsts (carriers ++ more) = firsts carriers ++ firsts more :=
  List.map_append

theorem Param.index_of_same {p q : Param} (h : p.same q = true) : p.index = q.index := by
  simp only [Param.same, Bool.and_eq_true, beq_iff_eq] at h
  exact h.1.1.2

theorem ValuesTable.firstParam_of_same {table table' : ValuesTable}
    (h : table.same table' = true) : table.firstParam = table'.firstParam := by
  simp only [ValuesTable.same, Bool.and_eq_true, beq_iff_eq] at h
  exact h.2

mutual

theorem Expr.firsts_of_same (e : Expr) {e' : Expr} (h : e.same e' = true) :
    firsts e.carriers = firsts e'.carriers := by
  match e with
  | .literal v =>
    obtain ⟨_, rfl, -⟩ := Expr.same_literal.1 h
    rfl
  | .param p =>
    obtain ⟨q, rfl, hsame⟩ := Expr.same_param.1 h
    exact congrArg (fun index => [index]) (Param.index_of_same hsame)
  | .field _ | .binding _ | .parentBinding _ | .aliasRef _ | .projection _ _ =>
    obtain rfl := (Expr.same_reference rfl).1 h
    rfl
  | .operator op operands =>
    obtain ⟨_, rfl, hsame⟩ := Expr.same_operator.1 h
    exact firsts_of_sameExprs operands hsame
  | .aggregate kind args distinct filter =>
    obtain ⟨_, _, rfl, hargs, hfilter⟩ := Expr.same_aggregate.1 h
    simp only [Expr.carriers, firsts_append, firsts_of_sameExprs args hargs,
      firsts_of_sameOption filter hfilter]
  | .fragment text parts args =>
    obtain ⟨_, rfl, hsame⟩ := Expr.same_fragment.1 h
    exact firsts_of_sameArgs args hsame
  | .cast value target resolved =>
    obtain ⟨_, rfl, hsame⟩ := Expr.same_cast.1 h
    exact (Expr.firsts_of_same value hsame :)
  | .subquery kind query =>
    obtain ⟨_, rfl, hsame⟩ := Expr.same_subquery.1 h
    exact Query.firsts_of_same query hsame
  | .values table =>
    obtain ⟨_, rfl, hsame⟩ := Expr.same_values.1 h
    exact congrArg (fun index => [index]) (ValuesTable.firstParam_of_same hsame)
  | .merge left right =>
    obtain ⟨_, _, rfl, hleft, hright⟩ := Expr.same_merge.1 h
    simp only [Expr.carriers, firsts_append, Expr.firsts_of_same left hleft,
      Expr.firsts_of_same right hright]
  | .aliased value name =>
    obtain ⟨_, rfl, hsame⟩ := Expr.same_aliased.1 h
    exact (Expr.firsts_of_same value hsame :)
  | .jsonPath base path =>
    obtain ⟨_, _, rfl, hbase, hpath⟩ := Expr.same_jsonPath.1 h
    simp only [Expr.carriers, firsts_append, Expr.firsts_of_same base hbase,
      firsts_of_samePath path hpath]
  | .interval count unit =>
    obtain ⟨_, rfl, hsame⟩ := Expr.same_interval.1 h
    exact (Expr.firsts_of_same count hsame :)
  | .tuple items =>
    obtain ⟨_, rfl, hsame⟩ := Expr.same_tuple.1 h
    exact firsts_of_sameExprs items hsame
  | .mapping entries =>
    obtain ⟨_, rfl, hsame⟩ := Expr.same_mapping.1 h
    exact firsts_of_sameMapping entries hsame
termination_by structural e

theorem firsts_of_sameExprs (es : List Expr) {es' : List Expr} (h : sameExprs es es' = true) :
    firsts (carriersAll es) = firsts (carriersAll es') := by
  match es with
  | [] =>
    obtain rfl := sameExprs_nil.1 h
    rfl
  | e :: rest =>
    obtain ⟨_, _, rfl, he, hrest⟩ := sameExprs_cons.1 h
    simp only [carriersAll, firsts_append, Expr.firsts_of_same e he, firsts_of_sameExprs rest hrest]
termination_by structural es

theorem firsts_of_sameOption (e : Option Expr) {e' : Option Expr} (h : sameOption e e' = true) :
    firsts (carriersOption e) = firsts (carriersOption e') := by
  match e with
  | none =>
    obtain rfl := sameOption_none.1 h
    rfl
  | some e =>
    obtain ⟨_, rfl, hsame⟩ := sameOption_some.1 h
    exact Expr.firsts_of_same e hsame
termination_by structural e

theorem firsts_of_sameArgs (args : List FragmentArg) {args' : List FragmentArg}
    (h : sameArgs args args' = true) :
    firsts (carriersArgs args) = firsts (carriersArgs args') := by
  match args with
  | [] =>
    obtain rfl := sameArgs_nil.1 h
    rfl
  | .mk role e :: rest =>
    obtain ⟨_, _, rfl, he, hrest⟩ := sameArgs_cons.1 h
    simp only [carriersArgs, firsts_append, Expr.firsts_of_same e he, firsts_of_sameArgs rest hrest]
termination_by structural args

theorem firsts_of_samePath (path : List PathStep) {path' : List PathStep}
    (h : samePath path path' = true) :
    firsts (carriersPath path) = firsts (carriersPath path') := by
  match path with
  | [] =>
    obtain rfl := samePath_nil.1 h
    rfl
  | .key name :: rest =>
    obtain ⟨_, rfl, hrest⟩ := samePath_key.1 h
    exact (firsts_of_samePath rest hrest :)
  | .index i :: rest =>
    obtain ⟨_, rfl, hrest⟩ := samePath_index.1 h
    exact (firsts_of_samePath rest hrest :)
  | .computed e :: rest =>
    obtain ⟨_, _, rfl, he, hrest⟩ := samePath_computed.1 h
    simp only [carriersPath, firsts_append, Expr.firsts_of_same e he, firsts_of_samePath rest hrest]
termination_by structural path

theorem firsts_of_sameMapping (entries : List (String × Expr)) {entries' : List (String × Expr)}
    (h : sameMapping entries entries' = true) :
    firsts (carriersEntries entries) = firsts (carriersEntries entries') := by
  match entries with
  | [] =>
    obtain rfl := sameMapping_nil.1 h
    rfl
  | (key, e) :: rest =>
    obtain ⟨_, _, rfl, he, hrest⟩ := sameMapping_cons.1 h
    simp only [carriersEntries, firsts_append, Expr.firsts_of_same e he,
      firsts_of_sameMapping rest hrest]
termination_by structural entries

theorem firsts_of_sameTerms (terms : List OrderTerm) {terms' : List OrderTerm}
    (h : sameTerms terms terms' = true) :
    firsts (carriersTerms terms) = firsts (carriersTerms terms') := by
  match terms with
  | [] =>
    obtain rfl := sameTerms_nil.1 h
    rfl
  | .mk e direction :: rest =>
    obtain ⟨_, _, rfl, he, hrest⟩ := sameTerms_cons.1 h
    simp only [carriersTerms, firsts_append, Expr.firsts_of_same e he,
      firsts_of_sameTerms rest hrest]
termination_by structural terms

theorem Source.firsts_of_same (source : Source) {source' : Source}
    (h : source.same source' = true) : firsts source.carriers = firsts source'.carriers := by
  match source with
  | .mk (.schema name) binding =>
    obtain ⟨_, rfl, horigin⟩ := Source.same_mk.1 h
    obtain rfl := Origin.same_schema.1 horigin
    rfl
  | .mk (.table name) binding =>
    obtain ⟨_, rfl, horigin⟩ := Source.same_mk.1 h
    obtain rfl := Origin.same_table.1 horigin
    rfl
  | .mk (.values table) binding =>
    obtain ⟨_, rfl, horigin⟩ := Source.same_mk.1 h
    obtain ⟨_, rfl, hsame⟩ := Origin.same_values.1 horigin
    exact congrArg (fun index => [index]) (ValuesTable.firstParam_of_same hsame)
  | .mk (.subquery query) binding =>
    obtain ⟨_, rfl, horigin⟩ := Source.same_mk.1 h
    obtain ⟨_, rfl, hsame⟩ := Origin.same_subquery.1 horigin
    exact Query.firsts_of_same query hsame
  | .mk (.fragment e) binding =>
    obtain ⟨_, rfl, horigin⟩ := Source.same_mk.1 h
    obtain ⟨_, rfl, hsame⟩ := Origin.same_fragment.1 horigin
    exact Expr.firsts_of_same e hsame
termination_by structural source

theorem firsts_of_sameJoins (joins : List Join) {joins' : List Join}
    (h : sameJoins joins joins' = true) :
    firsts (carriersJoins joins) = firsts (carriersJoins joins') := by
  match joins with
  | [] =>
    obtain rfl := sameJoins_nil.1 h
    rfl
  | .mk kind source on :: rest =>
    obtain ⟨_, _, _, rfl, hsource, hon, hrest⟩ := sameJoins_cons.1 h
    simp only [carriersJoins, firsts_append, Source.firsts_of_same source hsource,
      firsts_of_sameOption on hon, firsts_of_sameJoins rest hrest]
termination_by structural joins

theorem Query.firsts_of_same (query : Query) {query' : Query} (h : query.same query' = true) :
    firsts query.carriers = firsts query'.carriers := by
  match query, query' with
  | .mk source joins wheres select groupBy having orderBy limit offset distinct, .mk .. =>
    simp only [Query.same, Bool.and_eq_true] at h
    obtain ⟨⟨⟨⟨⟨⟨⟨⟨⟨hsource, hjoins⟩, hwheres⟩, hselect⟩, hgroupBy⟩, hhaving⟩, horderBy⟩, hlimit⟩,
      hoffset⟩, -⟩ := h
    simp only [Query.carriers, firsts_append, Source.firsts_of_same source hsource,
      firsts_of_sameJoins joins hjoins, firsts_of_sameExprs wheres hwheres,
      firsts_of_sameOption select hselect, firsts_of_sameExprs groupBy hgroupBy,
      firsts_of_sameExprs having hhaving, firsts_of_sameTerms orderBy horderBy,
      firsts_of_sameOption limit hlimit, firsts_of_sameOption offset hoffset]
termination_by structural query

end

/-! ### Carriers that share no index -/

theorem Carrier.width_pos_of_check {catalog : Catalog} {scopes : ScopeStack} {table : ValuesTable}
    (h : table.check catalog scopes = .ok table) : 0 < (Carrier.values table).width := by
  obtain ⟨row, rest, types, resolved, hrows, hempty, -⟩ := validate_eq_ok.1 h
  have hnames : table.fieldNames = row.keys := by rw [ValuesTable.fieldNames, hrows]
  rw [Carrier.width, hnames, hrows]
  refine Nat.mul_pos (Nat.succ_pos _) ?_
  rw [SortedMap.keys, List.length_map, List.length_pos_iff]
  simpa [SortedMap.isEmpty] using hempty

/-- Every carrier of a settled query takes an index. -/
theorem Query.Settled.width_pos {place : Place} {queries : List Query}
    (hmirror : ScopesMirror place.catalog place.scopes queries) {k k' : Nat} {query : Query}
    (h : query.Settled place k k') : ∀ carrier ∈ query.carriers, 0 < carrier.width := by
  intro carrier hmem
  rw [← (Query.carriersIn_sites queries query).mem_iff] at hmem
  obtain ⟨⟨outer, part⟩, hsite, hcarrier⟩ := List.mem_filterMap.1 hmem
  have hsettled := h.sites hmirror _ hsite
  cases part with
  | table table =>
    cases hcarrier
    obtain ⟨-, scopes, hcheck⟩ := hsettled
    exact Carrier.width_pos_of_check hcheck
  | expr e =>
    cases e with
    | param p =>
      cases hcarrier
      exact Nat.one_pos
    | _ => cases hcarrier
  | query inner => cases hcarrier

/-- Consecutive blocks that are not empty start at different indices. -/
theorem Consecutive.firsts_nodup {k k' : Nat} {carriers : List Carrier}
    (h : Consecutive k carriers k') (hwidth : ∀ carrier ∈ carriers, 0 < carrier.width) :
    (firsts carriers).Nodup := by
  rw [firsts, List.Nodup, List.pairwise_map]
  refine h.disjoint.imp_of_mem fun {carrier other} hcarrier hother hdisjoint heq => ?_
  obtain ⟨first, hfirst, -⟩ := h.getElem? hcarrier
  have hmem : ∀ c : Carrier, c ∈ carriers → c.first? = some (k + first) →
      k + first ∈ c.indices := by
    intro c hc hcfirst
    rw [Carrier.indices, hcfirst]
    exact List.mem_range'_1.2 ⟨Nat.le_refl _, Nat.lt_add_of_pos_right (hwidth c hc)⟩
  exact hdisjoint (hmem carrier hcarrier hfirst) (hmem other hother (heq ▸ hfirst))

/-! ### Definitions that share no index -/

mutual

theorem Expr.definitionCarriers_sublist (e : Expr) :
    (e.outermostAliases.flatMap fun definition => definition.2.carriers).Sublist e.carriers := by
  match e with
  | .aliased value name => exact (List.flatMap_singleton ..).symm ▸ List.Sublist.refl _
  | .tuple items => exact definitionCarriersAll_sublist items
  | .mapping entries => exact definitionCarriersEntries_sublist entries
  | .merge left right =>
    rw [Expr.outermostAliases, List.flatMap_append]
    exact (Expr.definitionCarriers_sublist left).append (Expr.definitionCarriers_sublist right)
  | .literal _ | .param _ | .field _ | .binding _ | .parentBinding _ | .operator _ _
  | .aggregate _ _ _ _ | .fragment _ _ _ | .cast _ _ _ | .subquery _ _ | .values _
  | .projection _ _ | .aliasRef _ | .jsonPath _ _ | .interval _ _ => exact List.nil_sublist _

theorem definitionCarriersAll_sublist (es : List Expr) :
    ((outermostAliasesAll es).flatMap fun definition => definition.2.carriers).Sublist
      (carriersAll es) := by
  match es with
  | [] => exact List.nil_sublist _
  | e :: rest =>
    rw [outermostAliasesAll, List.flatMap_append]
    exact (Expr.definitionCarriers_sublist e).append (definitionCarriersAll_sublist rest)

theorem definitionCarriersEntries_sublist (entries : List (String × Expr)) :
    ((outermostAliasesEntries entries).flatMap fun definition =>
      definition.2.carriers).Sublist (carriersEntries entries) := by
  match entries with
  | [] => exact List.nil_sublist _
  | (key, e) :: rest =>
    rw [outermostAliasesEntries, List.flatMap_append]
    exact (Expr.definitionCarriers_sublist e).append (definitionCarriersEntries_sublist rest)

end

theorem selectCarriers_sublist (query : Query) :
    ((selectDefinitions query.select).flatMap fun definition =>
      definition.2.carriers).Sublist query.carriers := by
  match query with
  | .mk source joins wheres none groupBy having orderBy limit offset distinct =>
    exact List.nil_sublist _
  | .mk source joins wheres (some e) groupBy having orderBy limit offset distinct =>
    refine (Expr.definitionCarriers_sublist e).trans ?_
    simp only [Query.carriers, List.append_assoc]
    exact List.sublist_append_left e.carriers _

/--
Of the values that a settled query defines in its projection, one with carriers is the same as none
that comes later.
-/
theorem Query.Settled.carriers_of_same {place : Place} {queries : List Query}
    (hmirror : ScopesMirror place.catalog place.scopes queries) {k k' : Nat} {query : Query}
    (h : query.Settled place k k') :
    (selectDefinitions query.select).Pairwise fun definition definition' =>
      definition.2.same definition'.2 = true → definition.2.carriers = [] := by
  have hnodup := (h.consecutive.firsts_nodup (h.width_pos hmirror)).sublist
    ((selectCarriers_sublist query).map Carrier.first?)
  rw [List.map_flatMap, List.nodup_flatMap] at hnodup
  refine hnodup.2.imp fun {definition definition'} hdisjoint hsame => ?_
  -- what is the same is numbered the same, but no index is given twice
  have hfirsts : definition.2.carriers.map Carrier.first? =
      definition'.2.carriers.map Carrier.first? := Expr.firsts_of_same definition.2 hsame
  replace hdisjoint : (definition.2.carriers.map Carrier.first?).Disjoint
      (definition'.2.carriers.map Carrier.first?) := hdisjoint
  rw [← hfirsts] at hdisjoint
  rw [← List.map_eq_nil_iff (f := Carrier.first?), List.eq_nil_iff_forall_not_mem]
  exact fun first hfirst => hdisjoint hfirst hfirst

end QueryCompiler
