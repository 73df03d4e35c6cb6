import Mathlib.Data.List.Perm.Basic
import QueryCompiler.Proofs.Tables

/-!
# Collection of parameters

Whether the parameters of a tree can be collected depends on the indices in it alone, whoever has
written them there and in whatever order they are met. Every parameter and every table must have an
index, and together they must claim every index below the number of parameters once. Granting one
claim fills one free slot (`grant_eq_ok`); so what has been granted at the end is what stands in the
slots (`held_of_grantAll`), and no slot is left exactly if every index was claimed.
-/

namespace QueryCompiler

/-! ### Indices in a tree -/

/-- What a carrier binds, each with the index that is claimed for it. -/
def Carrier.holdings (carrier : Carrier) : List (BoundParam × Nat) :=
  match carrier.first? with
  | some first => carrier.bound.zipIdx first
  | none => []

/-- What the parameters and tables of a query claim, wherever they stand in it. -/
def Query.holdings (query : Query) : List (BoundParam × Nat) :=
  (carriersIn (query.sites [])).flatMap Carrier.holdings

/--
All parameters and tables of a query have an index, and they claim every index below a number once
and no other index.
-/
structure Query.Numbered (query : Query) (count : Nat) : Prop where
  indexed : ∀ carrier ∈ carriersIn (query.sites []), carrier.first?.isSome
  once : (query.holdings.map Prod.snd).Nodup
  all : ∀ i, i ∈ query.holdings.map Prod.snd ↔ i < count

/-- The claim to an index. -/
def Claim.ofHolding (held : BoundParam × Nat) : Claim := .taken held.2 held.1

theorem takenFrom_eq (index : Nat) (params : List BoundParam) :
    takenFrom index params = (params.zipIdx index).map Claim.ofHolding := by
  induction params generalizing index with
  | nil => rfl
  | cons param rest ih =>
    rw [takenFrom, ih]
    rfl

theorem Carrier.claims_of_first? {carrier : Carrier} (h : carrier.first?.isSome) :
    carrier.claims = carrier.holdings.map Claim.ofHolding := by
  obtain ⟨first, hfirst⟩ := Option.isSome_iff_exists.1 h
  rw [Carrier.claims_eq_takenFrom hfirst, takenFrom_eq, Carrier.holdings, hfirst]

/-- A carrier without an index claims something that is no index. -/
theorem Carrier.first?_isSome_of_claims {carrier : Carrier}
    (h : ∀ claim ∈ carrier.claims, ∃ held, claim = .ofHolding held) : carrier.first?.isSome := by
  cases hfirst : carrier.first? with
  | some first => rfl
  | none =>
    cases carrier with
    | param p =>
      have hindex : p.index = none := hfirst
      simp [claims, Param.claim, hindex, Claim.ofHolding] at h
    | values table =>
      have hindex : table.firstParam = none := hfirst
      simp [claims, ValuesTable.claims, hindex, Claim.ofHolding] at h

/-- A tree claims what the parameters and tables in it claim. -/
theorem Query.claims_perm (query : Query) :
    query.claims.Perm ((carriersIn (query.sites [])).flatMap Carrier.claims) :=
  (Query.claims_eq_carriers query).trans
    ((Query.carriersIn_sites [] query).symm.flatMap_right Carrier.claims)

theorem Query.claims_perm_holdings {query : Query}
    (h : ∀ carrier ∈ carriersIn (query.sites []), carrier.first?.isSome) :
    query.claims.Perm (query.holdings.map Claim.ofHolding) := by
  have heq : (carriersIn (query.sites [])).flatMap Carrier.claims =
      query.holdings.map Claim.ofHolding := by
    rw [Query.holdings, List.map_flatMap]
    exact List.flatMap_congr fun carrier hmem => Carrier.claims_of_first? (h carrier hmem)
  rw [← heq]
  exact query.claims_perm

/-! ### Granting claims -/

/--
Claims that are granted are claims to indices, no two of them to one index, and each to a slot that
was free. Afterwards every slot holds what was granted for it, or what it held before.
-/
theorem held_of_grantAll {slots slots' : List (Option BoundParam)} {claims : List Claim}
    (h : grantAll slots claims = .ok slots') :
    ∃ held : List (BoundParam × Nat), claims = held.map Claim.ofHolding ∧
      (held.map Prod.snd).Nodup ∧ (∀ i ∈ held.map Prod.snd, slots[i]? = some none) ∧
      slots'.length = slots.length ∧
      ∀ i param, slots'[i]? = some (some param) ↔
        (param, i) ∈ held ∨ slots[i]? = some (some param) := by
  induction claims generalizing slots with
  | nil =>
    cases h
    exact ⟨[], rfl, List.nodup_nil, by simp, rfl, by simp⟩
  | cons claim rest ih =>
    obtain ⟨next, hgrant, hrest⟩ := grantAll_cons_eq_ok.1 h
    obtain ⟨index, param, rfl, hfree, rfl⟩ := grant_eq_ok.1 hgrant
    obtain ⟨held, rfl, hnodup, hfrees, hlength, hslots⟩ := ih hrest
    have hlt : index < slots.length := (List.getElem?_eq_some_iff.1 hfree).1
    -- the slot that was filled first is not free for the claims after it
    have hne : ∀ i ∈ held.map Prod.snd, index ≠ i := by
      rintro i hi rfl
      have hfilled := hfrees index hi
      rw [List.getElem?_set_self hlt] at hfilled
      cases hfilled
    refine ⟨(param, index) :: held, rfl, ?_, ?_, ?_, ?_⟩
    · rw [List.map_cons, List.nodup_cons]
      exact ⟨fun hmem => hne index hmem rfl, hnodup⟩
    · rw [List.map_cons, List.forall_mem_cons]
      refine ⟨hfree, fun i hi => ?_⟩
      rw [← hfrees i hi, List.getElem?_set_ne (hne i hi)]
    · rw [hlength, List.length_set]
    · intro i other
      rw [hslots, List.mem_cons, Prod.mk.injEq]
      by_cases hi : index = i
      · subst hi
        rw [List.getElem?_set_self hlt, hfree]
        simp [or_comm, eq_comm]
      · rw [List.getElem?_set_ne hi]
        simp [Ne.symm hi]

theorem allTaken_eq_ok {index : Nat} {slots : List (Option BoundParam)}
    {params : List BoundParam} : allTaken index slots = .ok params ↔ slots = params.map some := by
  constructor
  · intro h
    induction slots generalizing index params with
    | nil =>
      cases h
      rfl
    | cons slot rest ih =>
      cases slot with
      | none => cases h
      | some param =>
        rw [allTaken] at h
        split at h
        · rename_i others hothers
          cases h
          rw [List.map_cons, ih hothers]
        · cases h
  · rintro rfl
    exact allTaken_map_some index params

theorem boundParams_eq_ok {query : Query} {count : Nat} {params : List BoundParam} :
    query.boundParams count = .ok params ↔
      grantAll (List.replicate count none) query.claims = .ok (params.map some) := by
  rw [Query.boundParams]
  cases hgrant : grantAll (List.replicate count none) query.claims with
  | ok slots => simp [allTaken_eq_ok]
  | error e => simp

/-! ### Numbered trees -/

/-- The parameters of a tree can be collected into a list exactly if the list is what it claims. -/
theorem boundParams_iff_holdings {query : Query} {count : Nat} {params : List BoundParam} :
    query.boundParams count = .ok params ↔
      (∀ carrier ∈ carriersIn (query.sites []), carrier.first?.isSome) ∧
      query.holdings.Perm params.zipIdx ∧ params.length = count := by
  rw [boundParams_eq_ok]
  constructor
  · intro h
    obtain ⟨held, hclaims, hnodup, hfree, hlength, hslots⟩ := held_of_grantAll h
    rw [List.length_map, List.length_replicate] at hlength
    have hindexed : ∀ carrier ∈ carriersIn (query.sites []), carrier.first?.isSome := by
      intro carrier hcarrier
      refine Carrier.first?_isSome_of_claims fun claim hclaim => ?_
      have hmem := query.claims_perm.mem_iff.2 (List.mem_flatMap.2 ⟨carrier, hcarrier, hclaim⟩)
      rw [hclaims] at hmem
      obtain ⟨h, -, rfl⟩ := List.mem_map.1 hmem
      exact ⟨h, rfl⟩
    have hheld : query.holdings.Perm held := by
      have hperm := Query.claims_perm_holdings hindexed
      rw [hclaims] at hperm
      have hinjective : Function.Injective Claim.ofHolding := by
        rintro ⟨param, i⟩ ⟨other, j⟩ heq
        cases heq
        rfl
      exact ((List.map_perm_map_iff hinjective).1 hperm).symm
    refine ⟨hindexed, hheld.trans ?_, hlength⟩
    have hplaces : params.zipIdx.Nodup := by
      refine List.Nodup.of_map Prod.snd ?_
      rw [List.zipIdx_map_snd]
      exact List.nodup_range'
    refine (List.perm_ext_iff_of_nodup hnodup.of_map hplaces).2 ?_
    rintro ⟨param, i⟩
    have hslot := hslots i param
    rw [List.getElem?_map, List.getElem?_replicate] at hslot
    rw [List.mem_zipIdx_iff_getElem?]
    simpa using hslot.symm
  · rintro ⟨hindexed, hperm, rfl⟩
    have hgranted := grantAll_takenFrom [] params
    rw [List.length_nil, takenFrom_eq, List.map_nil, List.nil_append, List.nil_append] at hgranted
    exact grantAll_perm ((Query.claims_perm_holdings hindexed).trans
      (hperm.map Claim.ofHolding)).symm hgranted

/-- A tree is numbered exactly if what it claims can be put into a list in order. -/
theorem Query.numbered_iff {query : Query} {count : Nat} :
    query.Numbered count ↔ (∀ carrier ∈ carriersIn (query.sites []), carrier.first?.isSome) ∧
      ∃ params : List BoundParam, query.holdings.Perm params.zipIdx ∧ params.length = count := by
  constructor
  · rintro ⟨hindexed, honce, hall⟩
    refine ⟨hindexed, ?_⟩
    have hrange : (query.holdings.map Prod.snd).Perm (List.range count) := by
      refine (List.perm_ext_iff_of_nodup honce List.nodup_range).2 fun i => ?_
      rw [hall, List.mem_range]
    -- the holdings in the order of their indices
    obtain ⟨ordered, hordered, hperm⟩ : ∃ ordered : List (BoundParam × Nat),
        List.range count = ordered.map Prod.snd ∧ ordered.Perm query.holdings :=
      (congrFun₂ (List.eq_map_comp_perm Prod.snd) _ _).mpr hrange.symm
    have hlength : (ordered.map Prod.fst).length = count := by
      rw [List.length_map, ← List.length_map Prod.snd, ← hordered, List.length_range]
    refine ⟨ordered.map Prod.fst, ?_, hlength⟩
    rw [List.zipIdx_eq_zip_range', hlength, ← List.range_eq_range', hordered,
      ← List.zip_of_prod rfl rfl]
    exact hperm.symm
  · rintro ⟨hindexed, params, hperm, rfl⟩
    have hrange : (query.holdings.map Prod.snd).Perm (List.range params.length) := by
      have hplaces := hperm.map Prod.snd
      rwa [List.zipIdx_map_snd, ← List.range_eq_range'] at hplaces
    exact ⟨hindexed, hrange.nodup_iff.2 List.nodup_range, fun i => by
      rw [hrange.mem_iff, List.mem_range]⟩

/--
The parameters of a tree can be collected exactly if the tree is numbered: everything in it has an
index, and every index below the number of parameters is claimed once and no other. The list then
has this number of entries, and at an index stands what is claimed for it.
-/
theorem finish_numbered (query : Query) (count : Nat) :
    ((∃ result, query.finish count = .ok result) ↔ query.Numbered count) ∧
    ∀ params key, query.finish count = .ok (params, key) → params.length = count ∧
      ∀ i param, params[i]? = some param ↔ (param, i) ∈ query.holdings := by
  constructor
  · rw [Query.numbered_iff]
    constructor
    · rintro ⟨⟨params, key⟩, h⟩
      obtain ⟨hindexed, hholdings⟩ := boundParams_iff_holdings.1 (Query.finish_eq_ok.1 h).1
      exact ⟨hindexed, params, hholdings⟩
    · rintro ⟨hindexed, params, hholdings⟩
      have hbound := boundParams_iff_holdings.2 ⟨hindexed, hholdings⟩
      exact ⟨(params, query.cacheKey), Query.finish_eq_ok.2 ⟨hbound, rfl⟩⟩
  · intro params key h
    obtain ⟨-, hperm, hlength⟩ := boundParams_iff_holdings.1 (Query.finish_eq_ok.1 h).1
    refine ⟨hlength, fun i param => ?_⟩
    rw [hperm.mem_iff, List.mem_zipIdx_iff_getElem?]

/-- A table that was never validated, with its indices after that of the limit. -/
def unevenRows : Query :=
  .mk (.mk (.values ⟨[.ofList [("a", .integer 7)],
      .ofList [("a", .string "x"), ("b", .null)]], .schema "none", .empty, some 1⟩) none)
    [] [] none [] [] [] (some (.param ⟨.integer 10, some 0, some (.builtin .integer), false⟩)) none
    false

/-- Three cells in two rows take the indices after the first one. -/
theorem finish_numbered_unevenRows :
    ∃ params key, unevenRows.finish 4 = .ok (params, key) ∧ params.length = 4 ∧
      params[3]? = some ⟨.null, none, false⟩ := by
  have hindices : unevenRows.holdings.map Prod.snd = [1, 2, 3, 0] := rfl
  have hnumbered : unevenRows.Numbered 4 := by
    refine ⟨by decide, ?_, fun i => ?_⟩
    · rw [hindices]
      decide
    · rw [hindices]
      simp
      omega
  obtain ⟨⟨params, key⟩, h⟩ := (finish_numbered unevenRows 4).1.2 hnumbered
  obtain ⟨hlength, hentries⟩ := (finish_numbered unevenRows 4).2 params key h
  refine ⟨params, key, h, hlength, (hentries 3 _).2 ?_⟩
  exact .tail _ (.tail _ (.head _))

end QueryCompiler
