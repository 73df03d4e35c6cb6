import QueryCompiler.Proofs.Binding.Scopes

/-!
# What keeps expressions settled

Giving types to parameters keeps an expression settled, and so does normalising a projection: its
parameters stay in order, because projections, which have none, are all that is merged.
-/

namespace QueryCompiler

variable {place : Place} {o : Bool} {k k₁ k' : Nat}

/-! ### Types of parameters -/

theorem Expr.Settled.param_type {p : Param} (h : (Expr.param p).Settled place o k k')
    (type : Option ResolvedType) : (Expr.param { p with type := type }).Settled place o k k' := by
  cases h with
  | param hindex => exact .param hindex

theorem Expr.Settled.withType {e : Expr} (h : e.Settled place o k k') (t : ResolvedType) :
    (e.withType t).Settled place o k k' := by
  rcases withType_cases t e with heq | ⟨p, rfl, heq⟩
  · rwa [heq]
  · rw [heq]
    exact h.param_type (some t)

theorem Expr.Settled.withCastType {e : Expr} (h : e.Settled place o k k') (t : ResolvedType) :
    (e.withCastType t).Settled place o k k' := by
  cases e with
  | param p => exact h.param_type (some t)
  | _ => exact h

theorem SettledAll.propagateTypes {operands : List Expr} (h : SettledAll place o k operands k')
    (op : Operator) : SettledAll place o k (propagateTypes op operands) k' := by
  rcases propagateTypes_cases op operands with
    heq | ⟨left, right, t, rfl, heq, -⟩ | ⟨left, right, t, rfl, heq, -⟩
  · rwa [heq]
  · rw [heq]
    cases h with
    | cons hleft hrest =>
      cases hrest with
      | cons hright hnil => exact .cons hleft (.cons (hright.withType t) hnil)
  · rw [heq]
    cases h with
    | cons hleft hrest => exact .cons (hleft.withType t) hrest

theorem SettledOption.withType {e : Option Expr} (h : SettledOption place o k e k')
    (t : ResolvedType) : SettledOption place o k (e.map (Expr.withType t)) k' := by
  cases h with
  | none => exact .none
  | some he => exact .some (he.withType t)

theorem option_withType_withType (t : ResolvedType) (e : Option Expr) :
    (e.map (Expr.withType t)).map (Expr.withType t) = e.map (Expr.withType t) := by
  cases e with
  | none => rfl
  | some e => exact congrArg some (withType_withType t t e)

/-! ### Chains of merges -/

theorem settledAll_append {es fs : List Expr} :
    SettledAll place o k (es ++ fs) k' ↔
      ∃ k₁, SettledAll place o k es k₁ ∧ SettledAll place o k₁ fs k' := by
  induction es generalizing k with
  | nil =>
    constructor
    · intro h
      exact ⟨k, .nil, h⟩
    · rintro ⟨_, ⟨⟩, h⟩
      exact h
  | cons e rest ih =>
    constructor
    · rintro (_ | ⟨he, hrest⟩)
      obtain ⟨k₁, hes, hfs⟩ := ih.1 hrest
      exact ⟨k₁, .cons he hes, hfs⟩
    · rintro ⟨k₁, _ | ⟨he, hes⟩, hfs⟩
      exact .cons he (ih.2 ⟨k₁, hes, hfs⟩)

theorem settledAll_singleton {e : Expr} :
    SettledAll place o k [e] k' ↔ e.Settled place o k k' := by
  constructor
  · rintro (_ | ⟨he, ⟨⟩⟩)
    exact he
  · intro he
    exact .cons he .nil

theorem SettledAll.mergeChain {es : List Expr} (hne : es ≠ []) (h : SettledAll place o k es k') :
    (mergeChain es).Settled place o k k' := by
  cases h with
  | nil => exact absurd rfl hne
  | @cons _ _ _ k₁ _ e rest he hrest =>
    rw [QueryCompiler.mergeChain]
    clear hne
    induction rest generalizing e k₁ with
    | nil =>
      cases hrest
      exact he
    | cons f rest ih =>
      cases hrest with
      | cons hf hrest => exact ih (.merge he hf) hrest

/-- A projection takes no indices, so that it may be merged into an earlier one. -/
theorem SettledAll.absorb (hplaced : ∀ scope ∈ place.scopes, scope.Placed) {merged : List Expr}
    {operand : Expr} (h : SettledAll place o k merged k₁)
    (hoperand : operand.Settled place o k₁ k') :
    SettledAll place o k (absorb operand merged) k' := by
  rcases absorb_cases operand merged with
    ⟨-, heq⟩ | ⟨before, kind, p, after, q, rfl, rfl, hsame, heq⟩
  · rw [heq]
    exact settledAll_append.2 ⟨k₁, h, settledAll_singleton.2 hoperand⟩
  · rw [heq]
    obtain ⟨k₂, hbefore, hrest⟩ := settledAll_append.1 h
    cases hrest with
    | cons hp hafter =>
      cases hp with
      | projection hslot hset =>
        cases hoperand with
        | projection hslot' hset' =>
          simp only [Projection.sameSource, beq_iff_eq] at hsame
          subst hsame
          -- projections of one slot are of one source, for which both sets are valid
          have hbound := ScopeStack.resolve_unique hplaced hslot hslot'
          refine settledAll_append.2 ⟨_, hbefore, .cons (.projection hslot ?_) hafter⟩
          intro schema hschema
          exact (hset schema hschema).union (hset' schema (hbound ▸ hschema))

theorem SettledAll.mergeOperands (hplaced : ∀ scope ∈ place.scopes, scope.Placed)
    {operands : List Expr} (h : SettledAll place o k operands k') :
    SettledAll place o k (mergeOperands operands) k' := by
  suffices hfold : ∀ merged k₁, SettledAll place o k merged k₁ →
      SettledAll place o k₁ operands k' →
      SettledAll place o k
        (operands.foldl (fun merged operand => QueryCompiler.absorb operand merged) merged) k' from
    hfold [] k .nil h
  clear h
  induction operands with
  | nil =>
    rintro merged k₁ hmerged ⟨⟩
    exact hmerged
  | cons operand rest ih =>
    rintro merged k₁ hmerged (_ | ⟨hoperand, hrest⟩)
    exact ih _ _ (hmerged.absorb hplaced hoperand) hrest

/-! ### Normalising -/

/-- An operand that is in its chain as it is. -/
theorem settledAll_chain_of_eq {e f : Expr} (h : f.Settled place o k k') (heq : e.chain = [f]) :
    SettledAll place o k e.chain k' := by
  rw [heq]
  exact settledAll_singleton.2 h

theorem SettledAll.normalized (hplaced : ∀ scope ∈ place.scopes, scope.Placed) {e : Expr}
    (h : SettledAll place o k e.chain k') : e.normalize.Settled place o k k' :=
  (h.mergeOperands hplaced).mergeChain (mergeOperands_ne_nil (chain_ne_nil e))

mutual

theorem Expr.Settled.chain (hplaced : ∀ scope ∈ place.scopes, scope.Placed) {o : Bool} {k k' : Nat}
    {e : Expr} (h : e.Settled place o k k') : SettledAll place o k e.chain k' := by
  match e with
  | .merge left right =>
    cases h with
    | merge hleft hright =>
      rw [Expr.chain]
      exact settledAll_append.2 ⟨_, hleft.chain hplaced, hright.chain hplaced⟩
  | .tuple items =>
    cases h with
    | tuple hitems => exact settledAll_chain_of_eq (.tuple (hitems.normalizeAll hplaced)) rfl
  | .mapping entries =>
    cases h with
    | mapping hentries =>
      exact settledAll_chain_of_eq (.mapping (hentries.normalizeEntries hplaced)) rfl
  | .aliased value name =>
    cases h with
    | aliased hvalue =>
      exact settledAll_chain_of_eq (.aliased ((hvalue.chain hplaced).normalized hplaced)) rfl
  | .projection kind p =>
    cases h with
    | projection hslot hset =>
      refine settledAll_chain_of_eq (.projection hslot ?_) rfl
      intro schema hschema
      exact (hset schema hschema).dedupe
  | .literal _ | .param _ | .field _ | .binding _ | .parentBinding _ | .operator _ _
  | .aggregate _ _ _ _ | .fragment _ _ _ | .cast _ _ _ | .subquery _ _ | .values _
  | .aliasRef _ | .jsonPath _ _ | .interval _ _ => exact settledAll_chain_of_eq h rfl

theorem SettledAll.normalizeAll (hplaced : ∀ scope ∈ place.scopes, scope.Placed) {o : Bool}
    {k k' : Nat} {es : List Expr} (h : SettledAll place o k es k') :
    SettledAll place o k (normalizeAll es) k' := by
  match es with
  | [] => exact h
  | e :: rest =>
    cases h with
    | cons he hrest =>
      exact .cons ((he.chain hplaced).normalized hplaced) (hrest.normalizeAll hplaced)

theorem SettledEntries.normalizeEntries (hplaced : ∀ scope ∈ place.scopes, scope.Placed) {o : Bool}
    {k k' : Nat} {entries : List (String × Expr)} (h : SettledEntries place o k entries k') :
    SettledEntries place o k (normalizeEntries entries) k' := by
  match entries with
  | [] => exact h
  | (key, e) :: rest =>
    cases h with
    | cons he hrest =>
      exact .cons ((he.chain hplaced).normalized hplaced) (hrest.normalizeEntries hplaced)

end

/-- A normalised projection is settled if the projection is. -/
theorem Expr.Settled.normalize (hplaced : ∀ scope ∈ place.scopes, scope.Placed) {e : Expr}
    (h : e.Settled place o k k') : e.normalize.Settled place o k k' :=
  (h.chain hplaced).normalized hplaced

theorem SettledOption.normalize (hplaced : ∀ scope ∈ place.scopes, scope.Placed) {e : Option Expr}
    (h : SettledOption place o k e k') : SettledOption place o k (e.map Expr.normalize) k' := by
  cases h with
  | none => exact .none
  | some he => exact .some (he.normalize hplaced)

end QueryCompiler
