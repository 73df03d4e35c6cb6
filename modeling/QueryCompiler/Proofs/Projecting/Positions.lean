import QueryCompiler.Proofs.Binding.Kept
import QueryCompiler.Proofs.Projecting.Groups

/-!
# Positions of a projection

A chain of merges stands at the root of a projection, and further chains stand inside of the tuples,
mappings and aliases among its operands. A path leads from the root to any of them. Binding and
normalising keep the paths: at a path of the result stands what binding and normalising make of what
stands there in the projection as it is written.
-/

namespace QueryCompiler

/-- What stands at positions of its own inside of an operand. -/
def Expr.inner : Expr → List Expr
  | .tuple items => items
  | .mapping entries => entries.map Prod.snd
  | .aliased value _ => [value]
  | _ => []

/-- What stands at positions of its own inside of the operands of a chain. -/
def Expr.within (e : Expr) : List Expr := e.operands.flatMap Expr.inner

/-- What stands at a path; every step of it is a place inside of the operands of a chain. -/
def Expr.at? (e : Expr) : List Nat → Option Expr
  | [] => some e
  | i :: path => match e.within[i]? with
    | some f => f.at? path
    | none => none

/-- What a context makes of an expression of a projection: it is bound, and then normalised. -/
def Expr.CompilesTo (ctx : Context) (e c : Expr) : Prop :=
  ∃ outermost s b s', e.bind ctx outermost s = .ok b s' ∧ c = b.normalize

/-! ### Kinds of operands -/

def Expr.isMerge : Expr → Bool
  | .merge _ _ => true
  | _ => false

def Expr.isContainer : Expr → Bool
  | .tuple _ | .mapping _ | .aliased _ _ => true
  | _ => false

theorem isMerge_eq (e : Expr) : e.isMerge = (e.kindName == "merge") := by
  cases e with
  | projection kind p => cases kind <;> rfl
  | _ => rfl

theorem isProjection_eq (e : Expr) :
    e.isProjection = (e.kindName == "struct" || e.kindName == "map") := by
  cases e with
  | projection kind p => cases kind <;> rfl
  | _ => rfl

theorem isContainer_eq (e : Expr) : e.isContainer =
    (e.kindName == "tuple" || e.kindName == "map literal" || e.kindName == "selected_as/2") := by
  cases e with
  | projection kind p => cases kind <;> rfl
  | _ => rfl

theorem operands_eq {e : Expr} (h : e.isMerge = false) : e.operands = [e] := by
  cases e with
  | merge left right => cases h
  | _ => rfl

theorem inner_eq_nil {e : Expr} (h : e.isContainer = false) : e.inner = [] := by
  cases e with
  | tuple _ | mapping _ | aliased _ _ => cases h
  | _ => rfl

theorem isMerge_of_mem_operands {e f : Expr} (h : f ∈ e.operands) : f.isMerge = false := by
  match e with
  | .merge left right =>
    rw [Expr.operands, List.mem_append] at h
    rcases h with h | h
    · exact isMerge_of_mem_operands h
    · exact isMerge_of_mem_operands h
  | .literal _ | .param _ | .field _ | .binding _ | .parentBinding _ | .operator _ _
  | .aggregate _ _ _ _ | .fragment _ _ _ | .cast _ _ _ | .subquery _ _ | .values _
  | .projection _ _ | .aliased _ _ | .aliasRef _ | .jsonPath _ _ | .interval _ _ | .tuple _
  | .mapping _ =>
    rw [operands_eq rfl, List.mem_singleton] at h
    rw [h]
    rfl

/-! ### Normalising -/

/-- A chain consists of its normalised operands. -/
theorem chain_eq (e : Expr) : e.chain = e.operands.map Expr.normalize := by
  match e with
  | .merge left right =>
    rw [Expr.chain, Expr.operands, List.map_append, chain_eq left, chain_eq right]
  | .literal _ | .param _ | .field _ | .binding _ | .parentBinding _ | .operator _ _
  | .aggregate _ _ _ _ | .fragment _ _ _ | .cast _ _ _ | .subquery _ _ | .values _
  | .projection _ _ | .aliased _ _ | .aliasRef _ | .jsonPath _ _ | .interval _ _ | .tuple _
  | .mapping _ => rfl

theorem operands_mergeChain {operands : List Expr} (h : operands ≠ []) :
    (mergeChain operands).operands = operands.flatMap Expr.operands := by
  cases operands with
  | nil => exact absurd rfl h
  | cons e rest =>
    rw [mergeChain, List.flatMap_cons]
    clear h
    induction rest generalizing e with
    | nil => simp
    | cons f rest ih =>
      rw [List.foldl_cons, ih, Expr.operands, List.flatMap_cons, List.append_assoc]

theorem Expr.Normal.isMerge {e : Expr} (h : e.Normal) : e.isMerge = false := by
  cases e with
  | merge left right =>
    have hlength := congrArg List.length h
    have hleft := List.length_pos_iff.2 (chain_ne_nil left)
    have hright := List.length_pos_iff.2 (chain_ne_nil right)
    rw [Expr.chain, List.length_append, List.length_singleton] at hlength
    omega
  | _ => rfl

theorem operands_normalize (e : Expr) :
    e.normalize.operands = mergeOperands (e.operands.map Expr.normalize) := by
  have hnormal : ∀ f ∈ mergeOperands e.chain, f.Normal := mergeOperands_normal (chain_normal e)
  rw [Expr.normalize, operands_mergeChain (mergeOperands_ne_nil (chain_ne_nil e)), ← chain_eq,
    List.flatMap_congr fun f hf => operands_eq (hnormal f hf).isMerge, List.flatMap_singleton']

theorem isProjection_normalize {e : Expr} (h : e.isMerge = false) :
    e.normalize.isProjection = e.isProjection := by
  cases e with
  | merge left right => cases h
  | _ => rfl

theorem normalizeAll_eq (es : List Expr) : normalizeAll es = es.map Expr.normalize := by
  induction es with
  | nil => rfl
  | cons e rest ih => rw [normalizeAll, List.map_cons, ih, Expr.normalize]

theorem map_snd_normalizeEntries (entries : List (String × Expr)) :
    (normalizeEntries entries).map Prod.snd = (entries.map Prod.snd).map Expr.normalize := by
  induction entries with
  | nil => rfl
  | cons entry rest ih =>
    rw [normalizeEntries, List.map_cons, ih]
    rfl

theorem inner_normalize {e : Expr} (h : e.isMerge = false) :
    e.normalize.inner = e.inner.map Expr.normalize := by
  cases e with
  | merge left right => cases h
  | tuple items => exact normalizeAll_eq items
  | mapping entries => exact map_snd_normalizeEntries entries
  | _ => rfl

/-- Merging only moves projections, which have no positions inside. -/
theorem within_normalize (e : Expr) : e.normalize.within = e.within.map Expr.normalize := by
  rw [Expr.within, operands_normalize, flatMap_mergeOperands fun _ _ => rfl, List.flatMap_map,
    Expr.within, List.map_flatMap]
  exact List.flatMap_congr fun f hf => inner_normalize (isMerge_of_mem_operands hf)

/-! ### Binding -/

variable {ctx : Context} {o : Bool} {e e' : Expr} {s s' : BindState}

theorem isMerge_bind (h : e.bind ctx o s = .ok e' s') : e'.isMerge = e.isMerge := by
  rw [isMerge_eq, isMerge_eq, kindName_bind h]

theorem isProjection_bind (h : e.bind ctx o s = .ok e' s') :
    e'.isProjection = e.isProjection := by
  rw [isProjection_eq, isProjection_eq, kindName_bind h]

theorem isContainer_bind (h : e.bind ctx o s = .ok e' s') : e'.isContainer = e.isContainer := by
  rw [isContainer_eq, isContainer_eq, kindName_bind h]

/-- Some binding of an expression in a context succeeds with that result. -/
def Expr.BindsTo (ctx : Context) (e e' : Expr) : Prop :=
  ∃ outermost s s', e.bind ctx outermost s = .ok e' s'

theorem bindsTo_of_bindAll {es es' : List Expr} (h : bindAll ctx o es s = .ok es' s') :
    List.Forall₂ (Expr.BindsTo ctx) es es' := by
  induction es generalizing es' s with
  | nil =>
    obtain ⟨rfl, -⟩ := bindAll_nil.1 h
    exact .nil
  | cons e rest ih =>
    obtain ⟨_, t, _, he, hrest, rfl⟩ := bindAll_cons.1 h
    exact .cons ⟨o, s, t, he⟩ (ih hrest)

theorem bindsTo_of_bindEntries {entries entries' : List (String × Expr)}
    (h : bindEntries ctx o entries s = .ok entries' s') :
    List.Forall₂ (Expr.BindsTo ctx) (entries.map Prod.snd) (entries'.map Prod.snd) := by
  induction entries generalizing entries' s with
  | nil =>
    obtain ⟨rfl, -⟩ := bindEntries_nil.1 h
    exact .nil
  | cons entry rest ih =>
    obtain ⟨key, e⟩ := entry
    obtain ⟨_, t, _, he, hrest, rfl⟩ := bindEntries_cons.1 h
    exact .cons ⟨o, s, t, he⟩ (ih hrest)

/-- The operands of a chain are bound one by one, and stay operands. -/
theorem operands_bind {e e' : Expr} {s s' : BindState} (h : e.bind ctx o s = .ok e' s') :
    List.Forall₂ (Expr.BindsTo ctx) e.operands e'.operands := by
  match e with
  | .merge left right =>
    obtain ⟨_, _, _, hleft, hright, rfl⟩ := Expr.bind_merge.1 h
    exact List.rel_append (operands_bind hleft) (operands_bind hright)
  | .literal _ | .param _ | .field _ | .binding _ | .parentBinding _ | .operator _ _
  | .aggregate _ _ _ _ | .fragment _ _ _ | .cast _ _ _ | .subquery _ _ | .values _
  | .projection _ _ | .aliased _ _ | .aliasRef _ | .jsonPath _ _ | .interval _ _ | .tuple _
  | .mapping _ =>
    rw [operands_eq rfl, operands_eq (isMerge_bind h)]
    exact .cons ⟨o, s, s', h⟩ .nil

theorem Expr.BindsTo.inner (h : e.BindsTo ctx e') :
    List.Forall₂ (Expr.BindsTo ctx) e.inner e'.inner := by
  obtain ⟨o, s, s', h⟩ := h
  match e with
  | .tuple items =>
    obtain ⟨_, hitems, rfl⟩ := Expr.bind_tuple.1 h
    exact bindsTo_of_bindAll hitems
  | .mapping entries =>
    obtain ⟨_, hentries, rfl⟩ := Expr.bind_mapping.1 h
    exact bindsTo_of_bindEntries hentries
  | .aliased value name =>
    obtain ⟨-, _, hvalue, rfl⟩ := Expr.bind_aliased.1 h
    exact .cons ⟨_, _, _, hvalue⟩ .nil
  | .literal _ | .param _ | .field _ | .binding _ | .parentBinding _ | .operator _ _
  | .aggregate _ _ _ _ | .fragment _ _ _ | .cast _ _ _ | .subquery _ _ | .values _
  | .projection _ _ | .merge _ _ | .aliasRef _ | .jsonPath _ _ | .interval _ _ =>
    rw [inner_eq_nil rfl, inner_eq_nil (isContainer_bind h)]
    exact .nil

theorem within_bind (h : e.bind ctx o s = .ok e' s') :
    List.Forall₂ (Expr.BindsTo ctx) e.within e'.within :=
  List.rel_flatMap (operands_bind h) fun _ _ hoperand => hoperand.inner

/-! ### Paths -/

/-- Lists that are related item by item are related at every place. -/
theorem rel_getElem? {R : Expr → Expr → Prop} {es fs : List Expr} (h : List.Forall₂ R es fs)
    (i : Nat) : Option.Rel R es[i]? fs[i]? := by
  induction h generalizing i with
  | nil => exact .none
  | cons hfirst _ ih =>
    cases i with
    | zero => exact .some hfirst
    | succ i => simpa using ih i

theorem Expr.CompilesTo.within {c : Expr} (h : e.CompilesTo ctx c) :
    List.Forall₂ (Expr.CompilesTo ctx) e.within c.within := by
  obtain ⟨o, s, b, s', hbind, rfl⟩ := h
  rw [within_normalize, List.forall₂_map_right_iff]
  exact (within_bind hbind).imp fun _ b ⟨o, s, s', h⟩ => ⟨o, s, b, s', h, rfl⟩

/-- A path leads to something in the result exactly if it leads to what that was made of. -/
theorem Expr.CompilesTo.at? {c : Expr} (h : e.CompilesTo ctx c) (path : List Nat) :
    Option.Rel (Expr.CompilesTo ctx) (e.at? path) (c.at? path) := by
  induction path generalizing e c with
  | nil => exact .some h
  | cons i path ih =>
    have hstep := rel_getElem? h.within i
    rw [Expr.at?, Expr.at?]
    generalize e.within[i]? = found, c.within[i]? = found' at hstep
    cases hstep with
    | none => exact .none
    | some hfound => exact ih hfound

theorem rel_at? {select select' : Option Expr}
    (h : Option.Rel (Expr.CompilesTo ctx) select select') (path : List Nat) :
    Option.Rel (Expr.CompilesTo ctx) (select.bind (·.at? path)) (select'.bind (·.at? path)) := by
  cases h with
  | none => exact .none
  | some hroot => exact hroot.at? path

end QueryCompiler
