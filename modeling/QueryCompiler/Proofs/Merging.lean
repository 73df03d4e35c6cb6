import QueryCompiler.Proofs.FieldSets
import QueryCompiler.Binding.Alias

/-!
# Normal projections

Normalising flattens a chain of merges, merges the projections of one kind and source in it, and
folds the chain again. `absorb_cases` says once what adding an operand to a merged chain can do;
from it come the two invariants of a merged chain: its operands are normal, and none of them would
take up a later one. A chain with both is left as it is, so that normalising is idempotent.
-/

namespace QueryCompiler

/-! ### Adding an operand to a chain -/

/-- Whether an operand of a chain takes up a later one. -/
def Expr.Absorbs : Expr → Expr → Prop
  | .projection kind p, .projection kind' q => kind = kind' ∧ p.sameSource q = true
  | _, _ => False

theorem Expr.Absorbs.exists_projection {e operand : Expr} (h : e.Absorbs operand) :
    ∃ kind p q, e = .projection kind p ∧ operand = .projection kind q ∧
      p.sameSource q = true := by
  cases e <;> cases operand <;> simp only [Absorbs] at h
  obtain ⟨rfl, hsame⟩ := h
  exact ⟨_, _, _, rfl, rfl, hsame⟩

theorem absorb_cons_of_not_absorbs {e operand : Expr} (h : ¬ e.Absorbs operand)
    (rest : List Expr) : absorb operand (e :: rest) = e :: absorb operand rest := by
  cases e <;> cases operand <;> simp_all [absorb, Expr.Absorbs]

theorem absorb_cons_of_sameSource {kind : ProjectionKind} {p q : Projection}
    (h : p.sameSource q = true) (rest : List Expr) :
    absorb (.projection kind q) (.projection kind p :: rest) =
      .projection kind { p with set := p.set.union q.set } :: rest := by
  simp [absorb, h]

/-- An operand is either taken up by the first that takes it up, or added at the end. -/
theorem absorb_cases (operand : Expr) (merged : List Expr) :
    ((∀ e ∈ merged, ¬ e.Absorbs operand) ∧ absorb operand merged = merged ++ [operand]) ∨
    ∃ before kind p after q, merged = before ++ .projection kind p :: after ∧
      operand = .projection kind q ∧ p.sameSource q = true ∧
      absorb operand merged =
        before ++ .projection kind { p with set := p.set.union q.set } :: after := by
  induction merged with
  | nil => exact Or.inl ⟨by simp, rfl⟩
  | cons e rest ih =>
    by_cases h : e.Absorbs operand
    · obtain ⟨kind, p, q, rfl, rfl, hsame⟩ := h.exists_projection
      exact Or.inr ⟨[], kind, p, rest, q, rfl, rfl, hsame, absorb_cons_of_sameSource hsame rest⟩
    · rw [absorb_cons_of_not_absorbs h]
      rcases ih with ⟨hnone, heq⟩ | ⟨before, kind, p, after, q, rfl, rfl, hsame, heq⟩
      · exact Or.inl ⟨List.forall_mem_cons.2 ⟨h, hnone⟩, by rw [heq, List.cons_append]⟩
      · exact Or.inr ⟨e :: before, kind, p, after, q, rfl, rfl, hsame, by
          rw [heq, List.cons_append]⟩

/-! ### Merged chains -/

theorem absorb_ne_nil (operand : Expr) (merged : List Expr) : absorb operand merged ≠ [] := by
  rcases absorb_cases operand merged with ⟨-, h⟩ | ⟨before, kind, p, after, q, -, -, -, h⟩ <;>
    simp [h]

theorem foldl_absorb_ne_nil {merged : List Expr} (h : merged ≠ []) (operands : List Expr) :
    operands.foldl (fun merged operand => absorb operand merged) merged ≠ [] := by
  induction operands generalizing merged with
  | nil => exact h
  | cons operand rest ih => exact ih (absorb_ne_nil operand merged)

theorem mergeOperands_ne_nil {operands : List Expr} (h : operands ≠ []) :
    mergeOperands operands ≠ [] := by
  cases operands with
  | nil => exact absurd rfl h
  | cons operand rest => exact foldl_absorb_ne_nil (absorb_ne_nil operand []) rest

/-- A property that every step of merging keeps holds of a merged chain. -/
theorem mergeOperands_induction {motive : List Expr → Prop} {operands : List Expr}
    (nil : motive [])
    (step : ∀ merged, ∀ operand ∈ operands, motive merged → motive (absorb operand merged)) :
    motive (mergeOperands operands) := by
  suffices h : ∀ merged, motive merged →
      motive (operands.foldl (fun merged operand => absorb operand merged) merged) from
    h [] nil
  induction operands with
  | nil => exact fun _ h => h
  | cons operand rest ih =>
    intro merged h
    refine ih (fun merged operand hmem => step merged operand (List.mem_cons_of_mem _ hmem)) _ ?_
    exact step merged operand (List.mem_cons_self ..) h

/-- What is gathered from the operands other than projections is not changed by merging. -/
theorem flatMap_absorb {α : Type} {f : Expr → List α} (hf : ∀ kind p, f (.projection kind p) = [])
    (operand : Expr) (merged : List Expr) :
    (absorb operand merged).flatMap f = merged.flatMap f ++ f operand := by
  rcases absorb_cases operand merged with
    ⟨-, heq⟩ | ⟨before, kind, p, after, q, rfl, rfl, -, heq⟩
  · rw [heq, List.flatMap_append, List.flatMap_singleton]
  · rw [heq]
    simp only [List.flatMap_append, List.flatMap_cons, hf, List.nil_append, List.append_nil]

theorem flatMap_mergeOperands {α : Type} {f : Expr → List α}
    (hf : ∀ kind p, f (.projection kind p) = []) (operands : List Expr) :
    (mergeOperands operands).flatMap f = operands.flatMap f := by
  suffices h : ∀ merged : List Expr,
      (operands.foldl (fun merged operand => absorb operand merged) merged).flatMap f =
        (merged ++ operands).flatMap f from h []
  induction operands with
  | nil => simp
  | cons operand rest ih =>
    intro merged
    rw [List.foldl_cons, ih, List.flatMap_append, flatMap_absorb hf]
    simp [List.flatMap_append]

/-- None of the operands of a chain takes up a later one. -/
def Unmergeable (operands : List Expr) : Prop := operands.Pairwise fun e f => ¬ e.Absorbs f

theorem absorbs_projection_set {kind : ProjectionKind} {p : Projection} {set : FieldSet}
    {e : Expr} :
    ((Expr.projection kind { p with set := set }).Absorbs e ↔ (Expr.projection kind p).Absorbs e) ∧
    (e.Absorbs (.projection kind { p with set := set }) ↔ e.Absorbs (.projection kind p)) := by
  cases e <;> exact ⟨Iff.rfl, Iff.rfl⟩

theorem absorb_unmergeable {merged : List Expr} (h : Unmergeable merged) (operand : Expr) :
    Unmergeable (absorb operand merged) := by
  rcases absorb_cases operand merged with
    ⟨hnone, heq⟩ | ⟨before, kind, p, after, q, rfl, -, -, heq⟩
  · rw [heq, Unmergeable, List.pairwise_append]
    refine ⟨h, List.pairwise_singleton .., ?_⟩
    simpa using hnone
  · -- the set of a projection plays no part in what it takes up
    rw [heq]
    simp only [Unmergeable, List.pairwise_append, List.pairwise_cons, List.forall_mem_cons,
      absorbs_projection_set] at h ⊢
    exact h

theorem mergeOperands_unmergeable (operands : List Expr) :
    Unmergeable (mergeOperands operands) :=
  mergeOperands_induction List.Pairwise.nil fun _ operand _ h => absorb_unmergeable h operand

/-- A chain in which nothing can be merged is left as it is. -/
theorem Unmergeable.mergeOperands_eq {operands : List Expr} (h : Unmergeable operands) :
    mergeOperands operands = operands := by
  suffices hfold : ∀ merged, Unmergeable (merged ++ operands) →
      operands.foldl (fun merged operand => absorb operand merged) merged = merged ++ operands from
    hfold [] h
  clear h
  induction operands with
  | nil => simp
  | cons operand rest ih =>
    intro merged h
    have hnone : ∀ e ∈ merged, ¬ e.Absorbs operand := by
      intro e he
      exact (List.pairwise_append.1 h).2.2 e he operand (List.mem_cons_self ..)
    have heq : absorb operand merged = merged ++ [operand] := by
      clear ih h
      induction merged with
      | nil => rfl
      | cons e merged ih =>
        rw [List.forall_mem_cons] at hnone
        rw [absorb_cons_of_not_absorbs hnone.1, ih hnone.2, List.cons_append]
    rw [List.foldl_cons, heq, ih _ (by simpa using h)]
    simp

/-! ### Normal operands -/

/-- An operand that is no merge and is left as it is by normalising. -/
def Expr.Normal (e : Expr) : Prop := e.chain = [e]

theorem chain_mergeChain {operands : List Expr} (h : operands ≠ []) :
    (mergeChain operands).chain = operands.flatMap Expr.chain := by
  cases operands with
  | nil => exact absurd rfl h
  | cons e rest =>
    rw [mergeChain, List.flatMap_cons]
    clear h
    induction rest generalizing e with
    | nil => simp
    | cons f rest ih =>
      rw [List.foldl_cons, ih, Expr.chain, List.flatMap_cons, List.append_assoc]

theorem flatMap_chain_of_normal {operands : List Expr} (h : ∀ e ∈ operands, e.Normal) :
    operands.flatMap Expr.chain = operands := by
  induction operands with
  | nil => rfl
  | cons e rest ih =>
    rw [List.forall_mem_cons] at h
    rw [List.flatMap_cons, h.1, ih h.2]
    rfl

theorem normal_projection_iff {kind : ProjectionKind} {p : Projection} :
    (Expr.projection kind p).Normal ↔ p.set.dedupe = p.set := by
  rw [Expr.Normal, Expr.chain]
  constructor
  · intro h
    injection h with h
    injection h with _ h
    exact congrArg Projection.set h
  · intro h
    rw [h]

theorem absorb_normal {merged : List Expr} {operand : Expr} (h : ∀ e ∈ merged, e.Normal)
    (hoperand : operand.Normal) : ∀ e ∈ absorb operand merged, e.Normal := by
  rcases absorb_cases operand merged with
    ⟨-, heq⟩ | ⟨before, kind, p, after, q, rfl, -, -, heq⟩
  · rw [heq, List.forall_mem_append]
    exact ⟨h, by simpa using hoperand⟩
  · rw [List.forall_mem_append, List.forall_mem_cons, normal_projection_iff] at h
    rw [heq, List.forall_mem_append, List.forall_mem_cons, normal_projection_iff]
    obtain ⟨hbefore, hp, hafter⟩ := h
    refine ⟨hbefore, ?_, hafter⟩
    exact (FieldSet.union_distinct (hp ▸ p.set.dedupe_distinct) q.set).dedupe_eq

theorem mergeOperands_normal {operands : List Expr} (h : ∀ e ∈ operands, e.Normal) :
    ∀ e ∈ mergeOperands operands, e.Normal :=
  mergeOperands_induction (motive := fun merged => ∀ e ∈ merged, e.Normal) (by simp)
    fun _ operand hmem hmerged => absorb_normal hmerged (h operand hmem)

/-! ### Normalising is idempotent -/

theorem chain_ne_nil (e : Expr) : e.chain ≠ [] := by
  match e with
  | .merge left right =>
    rw [Expr.chain]
    exact List.append_ne_nil_of_left_ne_nil (chain_ne_nil left) _
  | .literal _ | .param _ | .field _ | .binding _ | .parentBinding _ | .operator _ _
  | .aggregate _ _ _ _ | .fragment _ _ _ | .cast _ _ _ | .subquery _ _ | .values _
  | .projection _ _ | .aliased _ _ | .aliasRef _ | .jsonPath _ _ | .interval _ _ | .tuple _
  | .mapping _ => simp [Expr.chain]

/-- The chain of a folded chain with both invariants is the chain itself. -/
theorem normalize_mergeChain {operands : List Expr} (hne : operands ≠ [])
    (hnormal : ∀ e ∈ operands, e.Normal) (hpairs : Unmergeable operands) :
    (mergeChain operands).normalize = mergeChain operands := by
  rw [Expr.normalize, chain_mergeChain hne, flatMap_chain_of_normal hnormal,
    hpairs.mergeOperands_eq]

theorem normalize_normalize_of_chain {e : Expr} (h : ∀ f ∈ e.chain, f.Normal) :
    e.normalize.normalize = e.normalize :=
  normalize_mergeChain (mergeOperands_ne_nil (chain_ne_nil e)) (mergeOperands_normal h)
    (mergeOperands_unmergeable e.chain)

mutual

/-- Every operand of a chain is normal. -/
theorem chain_normal (e : Expr) : ∀ f ∈ e.chain, f.Normal := by
  match e with
  | .merge left right =>
    rw [Expr.chain, List.forall_mem_append]
    exact ⟨chain_normal left, chain_normal right⟩
  | .tuple items =>
    simp [Expr.chain, Expr.Normal, normalizeAll_normalizeAll items]
  | .mapping entries =>
    simp [Expr.chain, Expr.Normal, normalizeEntries_normalizeEntries entries]
  | .aliased value name =>
    have h := normalize_normalize_of_chain (chain_normal value)
    simp only [Expr.chain, List.forall_mem_singleton, Expr.Normal]
    change [Expr.aliased value.normalize.normalize name] = [.aliased value.normalize name]
    rw [h]
  | .projection kind p =>
    simp only [Expr.chain, List.forall_mem_singleton, normal_projection_iff]
    exact p.set.dedupe_distinct.dedupe_eq
  | .literal _ | .param _ | .field _ | .binding _ | .parentBinding _ | .operator _ _
  | .aggregate _ _ _ _ | .fragment _ _ _ | .cast _ _ _ | .subquery _ _ | .values _
  | .aliasRef _ | .jsonPath _ _ | .interval _ _ => simp [Expr.chain, Expr.Normal]

theorem normalizeAll_normalizeAll (es : List Expr) :
    normalizeAll (normalizeAll es) = normalizeAll es := by
  match es with
  | [] => rfl
  | e :: rest =>
    simp only [normalizeAll]
    rw [normalizeAll_normalizeAll rest]
    congr 1
    exact normalize_normalize_of_chain (chain_normal e)

theorem normalizeEntries_normalizeEntries (entries : List (String × Expr)) :
    normalizeEntries (normalizeEntries entries) = normalizeEntries entries := by
  match entries with
  | [] => rfl
  | (key, e) :: rest =>
    simp only [normalizeEntries]
    rw [normalizeEntries_normalizeEntries rest]
    congr 2
    exact normalize_normalize_of_chain (chain_normal e)

end

theorem Expr.normalize_normalize (e : Expr) : e.normalize.normalize = e.normalize :=
  normalize_normalize_of_chain (chain_normal e)

/-! ### What normalising keeps -/

/--
A function gathers, from left to right, what there is at the positions of an expression if it takes
nothing from projections and passes through merges, tuples, mappings and aliased values.
-/
structure Gathers {α : Type} (f : Expr → List α) : Prop where
  merge (left right : Expr) : f (.merge left right) = f left ++ f right
  tuple (items : List Expr) : f (.tuple items) = items.flatMap f
  mapping (entries : List (String × Expr)) : f (.mapping entries) = entries.flatMap (f ·.2)
  aliased {value value' : Expr} (h : f value = f value') (name : String) :
    f (.aliased value name) = f (.aliased value' name)
  projection (kind : ProjectionKind) (p : Projection) : f (.projection kind p) = []

namespace Gathers

variable {α : Type} {f : Expr → List α}

theorem mergeChain (h : Gathers f) (operands : List Expr) :
    f (mergeChain operands) = operands.flatMap f := by
  cases operands with
  | nil => exact h.mapping []
  | cons e rest =>
    rw [QueryCompiler.mergeChain, List.flatMap_cons]
    induction rest generalizing e with
    | nil => simp
    | cons f rest ih => rw [List.foldl_cons, ih, h.merge, List.flatMap_cons, List.append_assoc]

theorem mergedChain (h : Gathers f) (operands : List Expr) :
    f (QueryCompiler.mergeChain (mergeOperands operands)) = operands.flatMap f := by
  rw [h.mergeChain, flatMap_mergeOperands h.projection]

mutual

theorem chain (h : Gathers f) (e : Expr) : e.chain.flatMap f = f e := by
  match e with
  | .merge left right =>
    rw [Expr.chain, List.flatMap_append, h.chain left, h.chain right, h.merge]
  | .tuple items =>
    rw [Expr.chain, List.flatMap_singleton, h.tuple, h.tuple, h.normalizeAll]
  | .mapping entries =>
    rw [Expr.chain, List.flatMap_singleton, h.mapping, h.mapping, h.normalizeEntries]
  | .aliased value name =>
    rw [Expr.chain, List.flatMap_singleton]
    exact h.aliased ((h.mergedChain _).trans (h.chain value)) name
  | .projection kind p =>
    rw [Expr.chain, List.flatMap_singleton, h.projection, h.projection]
  | .literal _ | .param _ | .field _ | .binding _ | .parentBinding _ | .operator _ _
  | .aggregate _ _ _ _ | .fragment _ _ _ | .cast _ _ _ | .subquery _ _ | .values _
  | .aliasRef _ | .jsonPath _ _ | .interval _ _ => simp [Expr.chain]

theorem normalizeAll (h : Gathers f) (es : List Expr) :
    (QueryCompiler.normalizeAll es).flatMap f = es.flatMap f := by
  match es with
  | [] => rfl
  | e :: rest =>
    rw [QueryCompiler.normalizeAll, List.flatMap_cons, List.flatMap_cons, h.normalizeAll rest,
      h.mergedChain, h.chain e]

theorem normalizeEntries (h : Gathers f) (entries : List (String × Expr)) :
    (QueryCompiler.normalizeEntries entries).flatMap (f ·.2) = entries.flatMap (f ·.2) := by
  match entries with
  | [] => rfl
  | (key, e) :: rest =>
    rw [QueryCompiler.normalizeEntries, List.flatMap_cons, List.flatMap_cons,
      h.normalizeEntries rest, h.mergedChain, h.chain e]

end

/-- Normalising keeps what is gathered, in order. -/
theorem normalize (h : Gathers f) (e : Expr) : f e.normalize = f e :=
  (h.mergedChain e.chain).trans (h.chain e)

end Gathers

/-! ### Aliases of normal projections -/

/-- The names of the aliases that an expression defines at its outermost positions. -/
def Expr.aliasNames (e : Expr) : List String := e.outermostAliases.map Prod.fst

theorem aliasNames_tuple (items : List Expr) :
    (Expr.tuple items).aliasNames = items.flatMap Expr.aliasNames := by
  rw [Expr.aliasNames, Expr.outermostAliases]
  induction items with
  | nil => rfl
  | cons e rest ih => rw [outermostAliasesAll, List.map_append, ih]; rfl

theorem aliasNames_mapping (entries : List (String × Expr)) :
    (Expr.mapping entries).aliasNames = entries.flatMap fun entry => entry.2.aliasNames := by
  rw [Expr.aliasNames, Expr.outermostAliases]
  induction entries with
  | nil => rfl
  | cons entry rest ih =>
    obtain ⟨key, e⟩ := entry
    rw [outermostAliasesEntries, List.map_append, ih]
    rfl

theorem aliasNames_merge (left right : Expr) :
    (Expr.merge left right).aliasNames = left.aliasNames ++ right.aliasNames := by
  rw [Expr.aliasNames, Expr.outermostAliases, List.map_append]
  rfl

theorem aliasNames_aliased (value : Expr) (name : String) :
    (Expr.aliased value name).aliasNames = [name] := by
  simp [Expr.aliasNames, Expr.outermostAliases]

theorem aliasNames_gathers : Gathers Expr.aliasNames where
  merge := aliasNames_merge
  tuple := aliasNames_tuple
  mapping := aliasNames_mapping
  aliased _ name := (aliasNames_aliased _ name).trans (aliasNames_aliased _ name).symm
  projection kind p := by simp [Expr.aliasNames, Expr.outermostAliases]

/-- Normalising keeps the aliases of a projection, in order. -/
theorem aliasNames_normalize (e : Expr) : e.normalize.aliasNames = e.aliasNames :=
  aliasNames_gathers.normalize e

end QueryCompiler
