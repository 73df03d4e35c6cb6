import QueryCompiler.Proofs.Binding.Settled

/-!
# Stages that leave alone what they have done

Typing the operands of an operator, preparing the arguments of a fragment and resolving a field or a
type target each change nothing when they are applied to their own results.
-/

namespace QueryCompiler

/-! ### Types of parameters -/

/-- A parameter that was given a type takes no other. -/
theorem withType_withType (t t' : ResolvedType) (e : Expr) :
    (e.withType t).withType t' = e.withType t := by
  match e with
  | .param p =>
    by_cases h : (p.type.isNone && !p.splice) = true
    · rw [Expr.withType, if_pos h]
      rfl
    · rw [Expr.withType, if_neg h, Expr.withType, if_neg h]
  | .literal _ | .field _ | .binding _ | .parentBinding _ | .operator _ _
  | .aggregate _ _ _ _ | .fragment _ _ _ | .cast _ _ _ | .subquery _ _ | .values _
  | .projection _ _ | .merge _ _ | .aliased _ _ | .aliasRef _ | .jsonPath _ _ | .interval _ _
  | .tuple _ | .mapping _ => rfl

theorem withType_cases (t : ResolvedType) (e : Expr) :
    e.withType t = e ∨ ∃ p, e = .param p ∧ e.withType t = .param { p with type := some t } := by
  match e with
  | .param p =>
    rw [Expr.withType]
    split
    · exact Or.inr ⟨p, rfl, rfl⟩
    · exact Or.inl rfl
  | .literal _ | .field _ | .binding _ | .parentBinding _ | .operator _ _
  | .aggregate _ _ _ _ | .fragment _ _ _ | .cast _ _ _ | .subquery _ _ | .values _
  | .projection _ _ | .merge _ _ | .aliased _ _ | .aliasRef _ | .jsonPath _ _ | .interval _ _
  | .tuple _ | .mapping _ => exact Or.inl rfl

theorem withCastType_withCastType (t : ResolvedType) (e : Expr) :
    (e.withCastType t).withCastType t = e.withCastType t := by
  cases e <;> rfl

theorem isCastable_withCastType (t : ResolvedType) (e : Expr) :
    (e.withCastType t).isCastable = e.isCastable := by
  cases e <;> rfl

/-- Typing operands gives types to some of two operands, and leaves other numbers of them alone. -/
theorem propagateTypes_cases (op : Operator) (operands : List Expr) :
    propagateTypes op operands = operands ∨
    (∃ left right t, operands = [left, right] ∧
      propagateTypes op operands = [left, right.withType t] ∧
      ∀ right', right'.sourceType? = right.sourceType? →
        propagateTypes op [left, right'] = [left, right'.withType t]) ∨
    ∃ left right t, operands = [left, right] ∧
      propagateTypes op operands = [left.withType t, right] ∧
      ∀ left', left'.sourceType? = left.sourceType? →
        propagateTypes op [left', right] = [left'.withType t, right] := by
  match operands with
  | [left, right] =>
    by_cases hlike : op = .like ∨ op = .ilike
    · refine Or.inr (Or.inl ⟨left, right, .builtin .string, rfl, ?_, fun right' _ => ?_⟩) <;>
        simp only [propagateTypes, if_pos hlike]
    by_cases hmember : op = .member
    · cases htype : left.sourceType? with
      | none => exact Or.inl (by simp [propagateTypes, hmember, htype])
      | some t =>
        cases t with
        | builtin t =>
          refine Or.inr (Or.inl ⟨left, right, .array t, rfl, ?_, fun right' _ => ?_⟩) <;>
            simp [propagateTypes, hmember, htype]
        | array t => exact Or.inl (by simp [propagateTypes, hmember, htype])
        | parameterized d => exact Or.inl (by simp [propagateTypes, hmember, htype])
    by_cases hsides : (op.isComparison || op.isArithmetic || op == .coalesce) = true
    · cases hleft : left.sourceType? with
      | some t =>
        refine Or.inr (Or.inl ⟨left, right, t, rfl, ?_, fun right' _ => ?_⟩) <;>
          simp only [propagateTypes, if_neg hlike, if_neg hmember, if_pos hsides, hleft]
      | none =>
        cases hright : right.sourceType? with
        | some t =>
          refine Or.inr (Or.inr ⟨left, right, t, rfl, ?_, fun left' hleft' => ?_⟩)
          · simp only [propagateTypes, if_neg hlike, if_neg hmember, if_pos hsides, hleft, hright]
          · rw [hleft] at hleft'
            simp only [propagateTypes, if_neg hlike, if_neg hmember, if_pos hsides, hleft', hright]
        | none =>
          refine Or.inl ?_
          simp only [propagateTypes, if_neg hlike, if_neg hmember, if_pos hsides, hleft, hright]
    · refine Or.inl ?_
      simp only [propagateTypes, if_neg hlike, if_neg hmember, if_neg hsides]
  | [] | [_] | _ :: _ :: _ :: _ => exact Or.inl rfl

/-- A map of operands that keeps the types they pass on may be made before they are typed. -/
theorem propagateTypes_map {f : Expr → Expr} (hsource : ∀ e, (f e).sourceType? = e.sourceType?)
    (hf : ∀ t e, (f e).withType t = f (e.withType t)) (op : Operator) (operands : List Expr) :
    propagateTypes op (operands.map f) = (propagateTypes op operands).map f := by
  match operands with
  | [left, right] =>
    simp only [List.map_cons, List.map_nil, propagateTypes, hsource]
    repeat' split
    all_goals simp only [List.map_cons, List.map_nil, hf]
  | [] | [_] | _ :: _ :: _ :: _ => rfl

/-- A function that does not see the types of parameters. -/
def TypeBlind {β : Type} (f : Expr → β) : Prop :=
  ∀ (p : Param) (type : Option ResolvedType), f (.param { p with type := type }) = f (.param p)

namespace TypeBlind

variable {β : Type} {f : Expr → β}

theorem withType (hf : TypeBlind f) (t : ResolvedType) (e : Expr) : f (e.withType t) = f e := by
  rcases withType_cases t e with h | ⟨p, rfl, h⟩
  · rw [h]
  · rw [h]
    exact hf p (some t)

theorem withCastType (hf : TypeBlind f) (t : ResolvedType) (e : Expr) :
    f (e.withCastType t) = f e := by
  cases e with
  | param p => exact hf p (some t)
  | _ => rfl

theorem propagateTypes (hf : TypeBlind f) (op : Operator) (operands : List Expr) :
    (propagateTypes op operands).map f = operands.map f := by
  rcases propagateTypes_cases op operands with
    h | ⟨left, right, t, rfl, h, -⟩ | ⟨left, right, t, rfl, h, -⟩
  · rw [h]
  · rw [h, List.map_cons, List.map_singleton, hf.withType]
    rfl
  · rw [h, List.map_cons, hf.withType]
    rfl

theorem flatMap_propagateTypes {f : Expr → List β} (hf : TypeBlind f) (op : Operator)
    (operands : List Expr) :
    (QueryCompiler.propagateTypes op operands).flatMap f = operands.flatMap f := by
  rw [List.flatMap_def, hf.propagateTypes, ← List.flatMap_def]

end TypeBlind

theorem sourceType?_typeBlind : TypeBlind Expr.sourceType? := fun _ _ => rfl

theorem propagateTypes_propagateTypes (op : Operator) (operands : List Expr) :
    propagateTypes op (propagateTypes op operands) = propagateTypes op operands := by
  rcases propagateTypes_cases op operands with
    h | ⟨left, right, t, rfl, h, hagain⟩ | ⟨left, right, t, rfl, h, hagain⟩
  · rw [h, h]
  · rw [h, hagain _ (sourceType?_typeBlind.withType t right), withType_withType]
  · rw [h, hagain _ (sourceType?_typeBlind.withType t left), withType_withType]

/-! ### Operands -/

def Expr.isInterval : Expr → Bool
  | .interval _ _ => true
  | _ => false

/-- Whether operands are accepted is seen from their number and from which of them are intervals. -/
theorem checkOperands_eq_ok {op : Operator} {operands : List Expr} :
    checkOperands op operands = .ok () ↔ operands.length = op.arity ∧
      (op.isDateArithmetic = true →
        ((operands.map Expr.isInterval).getLast?) = some true) := by
  rw [checkOperands, List.getLast?_map]
  by_cases hlength : operands.length = op.arity
  · rw [if_neg (by simpa using hlength)]
    by_cases hdate : op.isDateArithmetic = true
    · rw [if_pos hdate]
      cases hlast : operands.getLast? with
      | none => simp [hdate]
      | some e => cases e <;> simp [hlength, hdate, Expr.isInterval]
    · rw [if_neg hdate]
      simp [hlength, hdate]
  · rw [if_pos hlength]
    simp [hlength]

theorem map_isInterval_propagateTypes (op : Operator) (operands : List Expr) :
    (propagateTypes op operands).map Expr.isInterval = operands.map Expr.isInterval :=
  TypeBlind.propagateTypes (fun _ _ => rfl) op operands

theorem checkOperands_congr {op : Operator} {operands operands' : List Expr}
    (hintervals : operands'.map Expr.isInterval = operands.map Expr.isInterval)
    (h : checkOperands op operands = .ok ()) : checkOperands op operands' = .ok () := by
  have hlength := congrArg List.length hintervals
  rw [List.length_map, List.length_map] at hlength
  rw [checkOperands_eq_ok] at h ⊢
  rw [hintervals, hlength]
  exact h

/-! ### Arguments of fragments -/

theorem firstFault_eq_none {index : Nat} {args : List FragmentArg} :
    firstFault index args = none ↔ ∀ arg ∈ args, arg.fault? = none := by
  induction args generalizing index with
  | nil => simp [firstFault]
  | cons arg rest ih =>
    rw [firstFault, List.forall_mem_cons]
    cases h : arg.fault? with
    | none => simp [ih]
    | some fault => simp

theorem process_eq_ok {f g : Fragment} :
    f.process = .ok g ↔ (fragmentParts f.text).length - 1 = f.args.length ∧
      firstFault 0 f.args = none ∧
      g = ⟨f.text, fragmentParts f.text, f.args.map FragmentArg.inlined⟩ := by
  rw [Fragment.process]
  by_cases hlength : (fragmentParts f.text).length - 1 = f.args.length
  · rw [if_neg (by simpa using hlength)]
    cases hfault : firstFault 0 f.args with
    | some fault => simp
    | none =>
      simp only [hlength, true_and]
      exact ⟨fun h => by injection h with h; exact h.symm, fun h => by rw [h]⟩
  · rw [if_pos hlength]
    simp [hlength]

/-- An argument without a fault is an expression, a literal to write out, or a list to splice. -/
theorem inlined_cases {arg : FragmentArg} (h : arg.fault? = none) :
    (∃ e, arg = .mk .parameter e ∧ arg.inlined = .mk .parameter e) ∨
    (∃ role v, role.isInline = true ∧ arg.inlined = .mk role (.literal v) ∧
      arg.inlined.fault? = none) ∨
    ∃ p, p.splice = true ∧ arg.inlined = .mk .splice (.param p) ∧
      ∀ index, (FragmentArg.mk .splice (.param { p with index := index })).fault? = none := by
  obtain ⟨role, e⟩ := arg
  cases hinline : role.isInline with
  | true =>
    obtain ⟨v, hvalue⟩ := value?_of_fault? (by rintro rfl; cases hinline) h
    have heq := inlined_of_value? hinline hvalue
    refine Or.inr (Or.inl ⟨role, v, hinline, heq, ?_⟩)
    rw [heq, ← h]
    exact fault?_of_value? hvalue.symm
  | false =>
    cases role with
    | parameter => exact Or.inl ⟨e, rfl, rfl⟩
    | splice =>
      cases e with
      | literal v =>
        exact Or.inr (Or.inr ⟨⟨v, none, none, true⟩, rfl, rfl, fun _ => h⟩)
      | param p =>
        exact Or.inr (Or.inr ⟨⟨p.value, none, p.type, true⟩, rfl, rfl, fun _ => h⟩)
      | _ => simp [FragmentArg.fault?, Expr.value?] at h
    | identifier | constant => cases hinline

/-! ### Fields and type targets -/

theorem bindField_eq_ok {scopes : ScopeStack} {f g : FieldRef} :
    scopes.bindField f = .ok g ↔ ∃ slot source storage type,
      scopes.resolve f.source = .ok (slot, source) ∧
      source.shape.field f.name = .ok (storage, type) ∧
      g = ⟨f.source, f.name, some ⟨slot, storage, type⟩⟩ := by
  rw [ScopeStack.bindField]
  cases hsource : scopes.resolve f.source with
  | error e => simp
  | ok found =>
    obtain ⟨slot, source⟩ := found
    cases hfield : source.shape.field f.name with
    | error e => simp [hfield]
    | ok found =>
      obtain ⟨storage, type⟩ := found
      simp only [hfield]
      constructor
      · intro h
        cases h
        exact ⟨slot, source, storage, type, rfl, hfield, rfl⟩
      · rintro ⟨_, _, _, _, ⟨⟩, h, rfl⟩
        rw [hfield] at h
        cases h
        rfl

theorem bindField_bindField {scopes : ScopeStack} {f g : FieldRef}
    (h : scopes.bindField f = .ok g) : scopes.bindField g = .ok g := by
  obtain ⟨slot, source, storage, type, hsource, hfield, rfl⟩ := bindField_eq_ok.1 h
  exact bindField_eq_ok.2 ⟨slot, source, storage, type, hsource, hfield, rfl⟩

theorem resolveType_stable (scopes : ScopeStack) : StableResolution scopes.resolveType := by
  intro target target' type h
  match target with
  | .builtin name =>
    rw [ScopeStack.resolveType] at h
    split at h
    · rename_i t ht
      cases h
      simp only [ScopeStack.resolveType, ht]
    · cases h
  | .parameterized descriptor =>
    cases h
    rfl
  | .column f =>
    rw [ScopeStack.resolveType] at h
    split at h
    · cases h
    · rename_i g hbind
      split at h
      · rename_i t ht
        cases h
        simp only [ScopeStack.resolveType, bindField_bindField hbind, ht]
      · cases h

end QueryCompiler
