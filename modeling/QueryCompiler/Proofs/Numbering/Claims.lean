import QueryCompiler.Proofs.Numbering.Carriers

/-!
# Claims that are granted

The claims of a tree are those of its carriers in another order, and the order of claims does not
matter for whether they are granted. Carriers with consecutive blocks of indices claim every index
once, so that all their claims are granted and no index is left.
-/

namespace QueryCompiler

/-! ### The claims of carriers -/

def Carrier.claims : Carrier → List Claim
  | param p => [p.claim]
  | values table => table.claims

mutual

theorem Expr.claims_eq_carriers (e : Expr) : e.claims.Perm (e.carriers.flatMap Carrier.claims) := by
  match e with
  | .literal _ | .field _ | .binding _ | .parentBinding _ | .projection _ _ | .aliasRef _ =>
    exact .nil
  | .param p => exact .refl _
  | .operator op operands => exact claimsAll_eq_carriers operands
  | .aggregate kind args distinct filter =>
    rw [Expr.claims, Expr.carriers, List.flatMap_append]
    exact (claimsAll_eq_carriers args).append (claimsOption_eq_carriers filter)
  | .fragment text parts args => exact claimsArgs_eq_carriers args
  | .cast value target resolved => exact Expr.claims_eq_carriers value
  | .subquery kind query => exact Query.claims_eq_carriers query
  | .values table =>
    rw [Expr.claims, Expr.carriers, List.flatMap_singleton]
    exact .refl _
  | .merge left right =>
    rw [Expr.claims, Expr.carriers, List.flatMap_append]
    exact (Expr.claims_eq_carriers left).append (Expr.claims_eq_carriers right)
  | .aliased value name => exact Expr.claims_eq_carriers value
  | .jsonPath base path =>
    rw [Expr.claims, Expr.carriers, List.flatMap_append]
    exact (Expr.claims_eq_carriers base).append (claimsPath_eq_carriers path)
  | .interval count unit => exact Expr.claims_eq_carriers count
  | .tuple items => exact claimsAll_eq_carriers items
  | .mapping entries => exact claimsEntries_eq_carriers entries
termination_by structural e

theorem claimsAll_eq_carriers (es : List Expr) :
    (claimsAll es).Perm ((carriersAll es).flatMap Carrier.claims) := by
  match es with
  | [] => exact .nil
  | e :: rest =>
    rw [claimsAll, carriersAll, List.flatMap_append]
    exact (Expr.claims_eq_carriers e).append (claimsAll_eq_carriers rest)
termination_by structural es

theorem claimsOption_eq_carriers (e : Option Expr) :
    (claimsOption e).Perm ((carriersOption e).flatMap Carrier.claims) := by
  match e with
  | none => exact .nil
  | some e => exact Expr.claims_eq_carriers e
termination_by structural e

theorem claimsArgs_eq_carriers (args : List FragmentArg) :
    (claimsArgs args).Perm ((carriersArgs args).flatMap Carrier.claims) := by
  match args with
  | [] => exact .nil
  | .mk role e :: rest =>
    rw [claimsArgs, carriersArgs, List.flatMap_append]
    exact (Expr.claims_eq_carriers e).append (claimsArgs_eq_carriers rest)
termination_by structural args

theorem claimsPath_eq_carriers (path : List PathStep) :
    (claimsPath path).Perm ((carriersPath path).flatMap Carrier.claims) := by
  match path with
  | [] => exact .nil
  | .computed e :: rest =>
    rw [claimsPath, carriersPath, List.flatMap_append]
    exact (Expr.claims_eq_carriers e).append (claimsPath_eq_carriers rest)
  | .key name :: rest => exact claimsPath_eq_carriers rest
  | .index i :: rest => exact claimsPath_eq_carriers rest
termination_by structural path

theorem claimsEntries_eq_carriers (entries : List (String × Expr)) :
    (claimsEntries entries).Perm ((carriersEntries entries).flatMap Carrier.claims) := by
  match entries with
  | [] => exact .nil
  | (key, e) :: rest =>
    rw [claimsEntries, carriersEntries, List.flatMap_append]
    exact (Expr.claims_eq_carriers e).append (claimsEntries_eq_carriers rest)
termination_by structural entries

theorem claimsTerms_eq_carriers (terms : List OrderTerm) :
    (claimsTerms terms).Perm ((carriersTerms terms).flatMap Carrier.claims) := by
  match terms with
  | [] => exact .nil
  | .mk e direction :: rest =>
    rw [claimsTerms, carriersTerms, List.flatMap_append]
    exact (Expr.claims_eq_carriers e).append (claimsTerms_eq_carriers rest)
termination_by structural terms

theorem Source.claims_eq_carriers (source : Source) :
    source.claims.Perm (source.carriers.flatMap Carrier.claims) := by
  match source with
  | .mk (.schema _) _ | .mk (.table _) _ => exact .nil
  | .mk (.values table) name =>
    rw [Source.claims, Source.carriers, List.flatMap_singleton]
    exact .refl _
  | .mk (.subquery query) name => exact Query.claims_eq_carriers query
  | .mk (.fragment e) name => exact Expr.claims_eq_carriers e
termination_by structural source

theorem claimsJoins_eq_carriers (joins : List Join) :
    (claimsJoins joins).Perm ((carriersJoins joins).flatMap Carrier.claims) := by
  match joins with
  | [] => exact .nil
  | .mk kind source on :: rest =>
    rw [claimsJoins, carriersJoins, List.flatMap_append, List.flatMap_append]
    exact ((Source.claims_eq_carriers source).append (claimsOption_eq_carriers on)).append
      (claimsJoins_eq_carriers rest)
termination_by structural joins

/-- A query claims what its carriers claim; only the projection stands elsewhere. -/
theorem Query.claims_eq_carriers (query : Query) :
    query.claims.Perm (query.carriers.flatMap Carrier.claims) := by
  match query with
  | .mk source joins wheres select groupBy having orderBy limit offset distinct =>
    have hselect := claimsOption_eq_carriers select
    have hsources := ((Source.claims_eq_carriers source).append
      (claimsJoins_eq_carriers joins)).append (claimsAll_eq_carriers wheres)
    have hgroups := (claimsAll_eq_carriers groupBy).append (claimsAll_eq_carriers having)
    have hlimits := ((claimsTerms_eq_carriers orderBy).append
      (claimsOption_eq_carriers limit)).append (claimsOption_eq_carriers offset)
    have hmoved := (hsources.append hselect).trans List.perm_append_comm
    have hall := (hmoved.append hgroups).append hlimits
    simpa only [Query.claims, Query.carriers, List.flatMap_append, List.append_assoc] using hall
termination_by structural query

end

/-! ### The order of claims -/

theorem grant_eq_ok {slots slots' : List (Option BoundParam)} {claim : Claim} :
    grant slots claim = .ok slots' ↔
      ∃ index param, claim = .taken index param ∧ slots[index]? = some none ∧
        slots' = slots.set index (some param) := by
  cases claim with
  | unindexed => simp [grant]
  | unboundTable => simp [grant]
  | taken index param =>
    rw [grant]
    constructor
    · intro h
      split at h
      · cases h
      · cases h
      · rename_i hfree
        cases h
        exact ⟨index, param, rfl, hfree, rfl⟩
    · rintro ⟨_, _, ⟨⟩, hfree, rfl⟩
      rw [hfree]

theorem grantAll_cons_eq_ok {slots slots' : List (Option BoundParam)} {claim : Claim}
    {rest : List Claim} :
    grantAll slots (claim :: rest) = .ok slots' ↔
      ∃ next, grant slots claim = .ok next ∧ grantAll next rest = .ok slots' := by
  rw [grantAll]
  cases hgrant : grant slots claim with
  | ok next => simp
  | error e => simp

/-- Two claims that are granted one after the other are also granted the other way round. -/
theorem grant_swap {slots next slots' : List (Option BoundParam)} {claim claim' : Claim}
    (h : grant slots claim = .ok next) (h' : grant next claim' = .ok slots') :
    ∃ other, grant slots claim' = .ok other ∧ grant other claim = .ok slots' := by
  obtain ⟨i, p, rfl, hi, rfl⟩ := grant_eq_ok.1 h
  obtain ⟨j, q, rfl, hj, rfl⟩ := grant_eq_ok.1 h'
  have hlt : i < slots.length := (List.getElem?_eq_some_iff.1 hi).1
  have hne : i ≠ j := by
    rintro rfl
    rw [List.getElem?_set_self hlt] at hj
    cases hj
  rw [List.getElem?_set_ne hne] at hj
  refine ⟨slots.set j (some q), grant_eq_ok.2 ⟨j, q, rfl, hj, rfl⟩,
    grant_eq_ok.2 ⟨i, p, rfl, ?_, List.set_comm _ _ hne⟩⟩
  rw [List.getElem?_set_ne hne.symm]
  exact hi

/-- Whether claims are granted, and with what result, does not depend on their order. -/
theorem grantAll_perm {claims claims' : List Claim} (hperm : claims.Perm claims')
    {slots slots' : List (Option BoundParam)} (h : grantAll slots claims = .ok slots') :
    grantAll slots claims' = .ok slots' := by
  induction hperm generalizing slots with
  | nil => exact h
  | cons claim _ ih =>
    obtain ⟨next, hgrant, hrest⟩ := grantAll_cons_eq_ok.1 h
    exact grantAll_cons_eq_ok.2 ⟨next, hgrant, ih hrest⟩
  | swap claim claim' rest =>
    obtain ⟨next, hgrant, hrest⟩ := grantAll_cons_eq_ok.1 h
    obtain ⟨next', hgrant', hrest⟩ := grantAll_cons_eq_ok.1 hrest
    obtain ⟨other, hother, hother'⟩ := grant_swap hgrant hgrant'
    exact grantAll_cons_eq_ok.2 ⟨other, hother, grantAll_cons_eq_ok.2 ⟨next', hother', hrest⟩⟩
  | trans _ _ ih ih' => exact ih' (ih h)

/-! ### Claims in the order of their indices -/

/-- The claims of parameters to the indices from `index` on. -/
def takenFrom (index : Nat) : List BoundParam → List Claim
  | [] => []
  | param :: rest => .taken index param :: takenFrom (index + 1) rest

theorem takenFrom_append (index : Nat) (params params' : List BoundParam) :
    takenFrom index (params ++ params') =
      takenFrom index params ++ takenFrom (index + params.length) params' := by
  induction params generalizing index with
  | nil => rfl
  | cons param rest ih =>
    rw [List.cons_append, takenFrom, takenFrom, ih, List.cons_append, List.length_cons,
      Nat.add_assoc, Nat.add_comm 1]

theorem cellClaims_eq_takenFrom (index : Nat) (cells : List (Value × Option ResolvedType)) :
    cellClaims index cells =
      takenFrom index (cells.map fun cell => ⟨cell.1, cell.2, false⟩) := by
  induction cells generalizing index with
  | nil => rfl
  | cons cell rest ih => rw [cellClaims, ih, List.map_cons, takenFrom]

theorem Carrier.claims_eq_takenFrom {carrier : Carrier} {first : Nat}
    (h : carrier.first? = some first) : carrier.claims = takenFrom first carrier.bound := by
  cases carrier with
  | param p =>
    have hindex : p.index = some first := h
    rw [claims, Param.claim, hindex]
    rfl
  | values table =>
    have hindex : table.firstParam = some first := h
    rw [claims, ValuesTable.claims, hindex]
    exact cellClaims_eq_takenFrom first table.cells

theorem Consecutive.claims_eq_takenFrom {k k' : Nat} {carriers : List Carrier}
    (h : Consecutive k carriers k') :
    carriers.flatMap Carrier.claims = takenFrom k (carriers.flatMap Carrier.bound) := by
  induction carriers generalizing k with
  | nil => rfl
  | cons carrier rest ih =>
    obtain ⟨hfirst, hlength, hrest⟩ := h
    rw [List.flatMap_cons, List.flatMap_cons, takenFrom_append, hlength, ih hrest,
      Carrier.claims_eq_takenFrom hfirst]

/-- Claims in order fill the slots one after another. -/
theorem grantAll_takenFrom (done params : List BoundParam) :
    grantAll (done.map some ++ List.replicate params.length none) (takenFrom done.length params) =
      .ok ((done ++ params).map some) := by
  induction params generalizing done with
  | nil => simp [takenFrom, grantAll]
  | cons param rest ih =>
    rw [takenFrom]
    refine grantAll_cons_eq_ok.2 ⟨(done ++ [param]).map some ++ List.replicate rest.length none,
      grant_eq_ok.2 ⟨_, _, rfl, ?_, ?_⟩, ?_⟩
    · rw [List.getElem?_append_right (by simp)]
      simp
    · simp [List.replicate_succ]
    · have hrest := ih (done ++ [param])
      rw [List.length_append, List.length_singleton, List.append_assoc] at hrest
      exact hrest

theorem allTaken_map_some (index : Nat) (params : List BoundParam) :
    allTaken index (params.map some) = .ok params := by
  induction params generalizing index with
  | nil => rfl
  | cons param rest ih => rw [List.map_cons, allTaken, ih]

/-- A query whose carriers have all the indices below `count` has its parameters in this order. -/
theorem boundParams_of_consecutive {query : Query} {count : Nat}
    (h : Consecutive 0 query.carriers count) :
    query.boundParams count = .ok (query.carriers.flatMap Carrier.bound) := by
  have hgranted := grantAll_takenFrom [] (query.carriers.flatMap Carrier.bound)
  rw [List.length_nil, ← h.claims_eq_takenFrom, List.map_nil, List.nil_append,
    List.nil_append] at hgranted
  rw [Query.boundParams, h.eq_add_length, Nat.zero_add,
    grantAll_perm (Query.claims_eq_carriers query).symm hgranted]
  exact allTaken_map_some 0 _

end QueryCompiler
