import QueryCompiler.Proofs.Binding.Stages
import QueryCompiler.Proofs.Comparison.Change

/-!
# Stages that commute with changes

Typing operands, looking for aggregates, collecting aliases and normalising do not look at values or
indices: each may as well be applied after a change as before it.
-/

namespace QueryCompiler

section

variable (c : Change)

/-! ### The form of a tree -/

theorem isFragment_change (e : Expr) : (e.change c).isFragment = e.isFragment :=
  Change.relabelling.isFragment_expr c e

theorem kindName_change (e : Expr) : (e.change c).kindName = e.kindName :=
  Change.relabelling.kindName_expr c e

theorem containsAggregate_change (e : Expr) :
    (e.change c).containsAggregate = e.containsAggregate :=
  Change.relabelling.containsAggregate_expr c e

theorem checkOperands_change (op : Operator) (operands : List Expr) :
    checkOperands op (changeAll c operands) = checkOperands op operands :=
  Change.relabelling.checkOperands_all c op operands

theorem checkArguments_change (kind : AggregateKind) (args : List Expr) :
    checkArguments kind (changeAll c args) = checkArguments kind args :=
  Change.relabelling.checkArguments_all c kind args

theorem checkCastOperand_change (value : Expr) :
    checkCastOperand (value.change c) = checkCastOperand value :=
  Change.relabelling.checkCastOperand_expr c value

/-! ### Types of parameters -/

theorem sourceType?_change (e : Expr) : (e.change c).sourceType? = e.sourceType? := by
  cases e with
  | cast value target resolved => simp only [Expr.change, Expr.sourceType?, Expr.type?]
  | _ => rfl

theorem withType_change (t : ResolvedType) (e : Expr) :
    (e.change c).withType t = (e.withType t).change c := by
  cases e with
  | param p =>
    simp only [Expr.change, Expr.withType, Param.change]
    split <;> rfl
  | _ => rfl

theorem withCastType_change (t : ResolvedType) (e : Expr) :
    (e.change c).withCastType t = (e.withCastType t).change c := by
  cases e <;> rfl

theorem propagateTypes_change (op : Operator) (operands : List Expr) :
    propagateTypes op (operands.map (Expr.change c)) =
      (propagateTypes op operands).map (Expr.change c) :=
  propagateTypes_map (sourceType?_change c) (withType_change c) op operands

/-! ### Normal projections -/

theorem absorb_change (operand : Expr) (merged : List Expr) :
    absorb (operand.change c) (merged.map (Expr.change c)) =
      (absorb operand merged).map (Expr.change c) := by
  induction merged with
  | nil => rfl
  | cons e rest ih =>
    by_cases h : e.Absorbs operand
    · obtain ⟨kind, p, q, rfl, rfl, hsame⟩ := h.exists_projection
      simp only [List.map_cons, Expr.change, absorb_cons_of_sameSource hsame]
    · have hchange : ¬ (e.change c).Absorbs (operand.change c) := by
        cases e <;> cases operand <;> exact h
      rw [List.map_cons, absorb_cons_of_not_absorbs hchange, absorb_cons_of_not_absorbs h, ih,
        List.map_cons]

theorem mergeOperands_change (operands : List Expr) :
    mergeOperands (operands.map (Expr.change c)) =
      (mergeOperands operands).map (Expr.change c) := by
  suffices h : ∀ merged : List Expr,
      (operands.map (Expr.change c)).foldl (fun merged operand => absorb operand merged)
        (merged.map (Expr.change c)) =
      (operands.foldl (fun merged operand => absorb operand merged) merged).map
        (Expr.change c) from h []
  induction operands with
  | nil => exact fun _ => rfl
  | cons operand rest ih =>
    intro merged
    rw [List.map_cons, List.foldl_cons, List.foldl_cons, absorb_change, ih]

theorem mergeChain_change (operands : List Expr) :
    mergeChain (operands.map (Expr.change c)) = (mergeChain operands).change c :=
  Change.relabelling.mergeChain_map c operands

mutual

theorem chain_change (c : Change) (e : Expr) :
    (e.change c).chain = e.chain.map (Expr.change c) := by
  match e with
  | .merge left right =>
    rw [Expr.change, Expr.chain, Expr.chain, chain_change c left, chain_change c right,
      List.map_append]
  | .tuple items =>
    rw [Expr.change, Expr.chain, Expr.chain, normalizeAll_change c items]
    rfl
  | .mapping entries =>
    rw [Expr.change, Expr.chain, Expr.chain, normalizeEntries_change c entries]
    rfl
  | .aliased value name =>
    rw [Expr.change, Expr.chain, Expr.chain, chain_change c value, mergeOperands_change,
      mergeChain_change]
    rfl
  | .projection kind p => rfl
  | .literal _ | .param _ | .field _ | .binding _ | .parentBinding _ | .operator _ _
  | .aggregate _ _ _ _ | .fragment _ _ _ | .cast _ _ _ | .subquery _ _ | .values _
  | .aliasRef _ | .jsonPath _ _ | .interval _ _ => rfl
termination_by structural e

theorem normalizeAll_change (c : Change) (es : List Expr) :
    normalizeAll (changeAll c es) = changeAll c (normalizeAll es) := by
  match es with
  | [] => rfl
  | e :: rest =>
    rw [changeAll, normalizeAll, normalizeAll, changeAll, chain_change c e, mergeOperands_change,
      mergeChain_change, normalizeAll_change c rest]
termination_by structural es

theorem normalizeEntries_change (c : Change) (entries : List (String × Expr)) :
    normalizeEntries (changeEntries c entries) = changeEntries c (normalizeEntries entries) := by
  match entries with
  | [] => rfl
  | (key, e) :: rest =>
    rw [changeEntries, normalizeEntries, normalizeEntries, changeEntries, chain_change c e,
      mergeOperands_change, mergeChain_change, normalizeEntries_change c rest]
termination_by structural entries

end

/-- What is normalised before a change need not be normalised after it. -/
theorem normalize_change (e : Expr) : (e.change c).normalize = e.normalize.change c := by
  rw [Expr.normalize, chain_change, mergeOperands_change, mergeChain_change]
  rfl

/-! ### Aliases -/

theorem outermostAliases_change (e : Expr) :
    (e.change c).outermostAliases = changeEntries c e.outermostAliases :=
  Change.relabelling.outermostAliases_expr c e

theorem resolve_change {table table' : AliasTable}
    (h : table'.entries = changeEntries c table.entries) (name : String) :
    table'.resolve name = (table.resolve name).map (Expr.change c) :=
  Change.relabelling.resolve_entries c h name

end

end QueryCompiler
