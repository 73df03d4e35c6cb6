import QueryCompiler.Proofs.Binding.Settling
import QueryCompiler.Proofs.Projecting.Groups
import QueryCompiler.Proofs.Spelling.Respelling

/-!
# Stages that commute with respelling

How references are written is not looked at where operands are typed, aggregates and aliases are
looked for and parameters are claimed. Where projections are merged it is looked at only for want of
a slot: each of these stages may as well be applied after a tree is respelled as before.
-/

namespace QueryCompiler

section

variable (spell : Spelling) (names : List (Option String))

/-! ### The form of a tree -/

theorem isFragment_respell (e : Expr) : (e.respell spell names).isFragment = e.isFragment :=
  spell.relabelling.isFragment_expr names e

theorem kindName_respell (e : Expr) : (e.respell spell names).kindName = e.kindName :=
  spell.relabelling.kindName_expr names e

theorem value?_respell (e : Expr) : (e.respell spell names).value? = e.value? := by
  cases e <;> rfl

theorem containsAggregate_respell (e : Expr) :
    (e.respell spell names).containsAggregate = e.containsAggregate :=
  spell.relabelling.containsAggregate_expr names e

theorem checkOperands_respell (op : Operator) (operands : List Expr) :
    checkOperands op (respellAll spell names operands) = checkOperands op operands :=
  spell.relabelling.checkOperands_all names op operands

theorem checkArguments_respell (kind : AggregateKind) (args : List Expr) :
    checkArguments kind (respellAll spell names args) = checkArguments kind args :=
  spell.relabelling.checkArguments_all names kind args

theorem checkCastOperand_respell (value : Expr) :
    checkCastOperand (value.respell spell names) = checkCastOperand value :=
  spell.relabelling.checkCastOperand_expr names value

/-! ### Types of parameters -/

theorem sourceType?_respell (e : Expr) : (e.respell spell names).sourceType? = e.sourceType? := by
  cases e with
  | field f => rfl
  | cast value target resolved => simp only [Expr.respell, Expr.sourceType?, Expr.type?]
  | _ => rfl

theorem withType_respell (t : ResolvedType) (e : Expr) :
    (e.respell spell names).withType t = (e.withType t).respell spell names := by
  cases e with
  | param p =>
    rw [Expr.respell, Expr.withType]
    split <;> rfl
  | _ => rfl

theorem withCastType_respell (t : ResolvedType) (e : Expr) :
    (e.respell spell names).withCastType t = (e.withCastType t).respell spell names := by
  cases e <;> rfl

theorem propagateTypes_respell (op : Operator) (operands : List Expr) :
    propagateTypes op (respellAll spell names operands) =
      respellAll spell names (propagateTypes op operands) := by
  rw [respellAll_eq_map, respellAll_eq_map]
  exact propagateTypes_map (sourceType?_respell spell names) (withType_respell spell names) op
    operands

/-! ### Arguments of fragments -/

theorem fault?_respell (arg : FragmentArg) : (arg.respell spell names).fault? = arg.fault? := by
  obtain ⟨role, e⟩ := arg
  exact fault?_of_value? (value?_respell spell names e)

theorem firstFault_respell (index : Nat) (args : List FragmentArg) :
    firstFault index (respellArgs spell names args) = firstFault index args := by
  rw [respellArgs_eq_map]
  exact firstFault_map (fault?_respell spell names) index args

theorem inlined_respell (arg : FragmentArg) :
    (arg.respell spell names).inlined = arg.inlined.respell spell names := by
  obtain ⟨role, e⟩ := arg
  cases role with
  | parameter => rfl
  | identifier | constant =>
    rw [FragmentArg.respell, FragmentArg.inlined, FragmentArg.inlined, value?_respell]
    cases e.value? <;> rfl
  | splice => cases e <;> rfl

theorem process_respell (text : String) (parts : List String) (args : List FragmentArg) :
    Fragment.process ⟨text, parts, respellArgs spell names args⟩ =
      (Fragment.process ⟨text, parts, args⟩).map fun processed =>
        { processed with args := respellArgs spell names processed.args } := by
  have hlength : (respellArgs spell names args).length = args.length :=
    spell.relabelling.length_args names args
  simp only [Fragment.process, hlength, firstFault_respell]
  split
  · rfl
  split
  · rfl
  · have hinlined : ∀ arg ∈ args, (arg.respell spell names).inlined =
        arg.inlined.respell spell names := fun arg _ => inlined_respell spell names arg
    simp only [Except.map, respellArgs_eq_map, List.map_map, Function.comp_def]
    rw [List.map_congr_left hinlined]

/-! ### Aliases -/

theorem outermostAliases_respell (e : Expr) :
    (e.respell spell names).outermostAliases = respellEntries spell names e.outermostAliases :=
  spell.relabelling.outermostAliases_expr names e

end

namespace AliasTable

variable (spell : Spelling) (names : List (Option String))

def respell (table : AliasTable) : AliasTable :=
  { table with entries := respellEntries spell names table.entries }

theorem resolve_respell (table : AliasTable) (name : String) :
    (table.respell spell names).resolve name =
      (table.resolve name).map (Expr.respell spell names) :=
  spell.relabelling.resolve_entries names rfl name

theorem require_respell (table : AliasTable) (name : String) :
    (table.respell spell names).require name = table.require name :=
  require_congr (by rw [resolve_respell, Option.isSome_map])

/-- Where no name may be defined again, only the names count. -/
theorem define_respell {table : AliasTable} (hstrict : table.allowIdentical = false)
    (name : String) (value : Expr) :
    (table.respell spell names).define name (value.respell spell names) =
      (table.define name value).map (respell spell names) := by
  rw [define, define, resolve_respell]
  cases table.resolve name with
  | none => simp [Except.map, respell]
  | some existing => simp [Except.map, respell, hstrict]

theorem defineAll_respell {table : AliasTable} (hstrict : table.allowIdentical = false)
    (entries : List (String × Expr)) :
    (table.respell spell names).defineAll (respellEntries spell names entries) =
      (table.defineAll entries).map (respell spell names) := by
  induction entries generalizing table with
  | nil => rfl
  | cons entry rest ih =>
    obtain ⟨name, value⟩ := entry
    rw [respellEntries, defineAll, defineAll, define_respell spell names hstrict]
    cases hdefine : table.define name value with
    | error e => rfl
    | ok next => exact ih ((define_eq_ok hdefine).1.trans hstrict)

theorem collect_respell (select : Option Expr) :
    collect (respellOption spell names select) false =
      (collect select false).map (respell spell names) := by
  cases select with
  | none => rfl
  | some e =>
    rw [respellOption, collect, collect, outermostAliases_respell]
    exact @defineAll_respell spell names (empty false) rfl e.outermostAliases

end AliasTable

/-! ### Normal projections -/

section

variable {spell : Spelling} {names : List (Option String)}

theorem Expr.Slotted.respell {e : Expr} (h : e.Slotted) : (e.respell spell names).Slotted := by
  cases e <;> exact h

theorem group?_respell (e : Expr) :
    (e.respell spell names).group? Projection.slot = e.group? Projection.slot := by
  cases e <;> rfl

theorem takeUp_respell (e f : Expr) :
    (e.respell spell names).takeUp (f.respell spell names) =
      (e.takeUp f).respell spell names := by
  cases e <;> cases f <;> rfl

theorem absorb_respell {merged : List Expr} {operand : Expr}
    (hmerged : ∀ e ∈ merged, e.Slotted) (hoperand : operand.Slotted) :
    absorb (operand.respell spell names) (merged.map (Expr.respell spell names)) =
      (absorb operand merged).map (Expr.respell spell names) := by
  induction merged with
  | nil => rfl
  | cons e rest ih =>
    rw [List.forall_mem_cons] at hmerged
    obtain ⟨he, hrest⟩ := hmerged
    rw [List.map_cons, absorb_cons he.respell hoperand.respell, absorb_cons he hoperand,
      sameGroup, sameGroup, group?_respell, group?_respell, takeUp_respell, ih hrest]
    split <;> rfl

/-- Projections that have slots are merged by these, however they are written. -/
theorem mergeOperands_respell {operands : List Expr} (h : ∀ e ∈ operands, e.Slotted) :
    mergeOperands (operands.map (Expr.respell spell names)) =
      (mergeOperands operands).map (Expr.respell spell names) := by
  suffices hfold : ∀ merged : List Expr, (∀ e ∈ merged, e.Slotted) →
      (operands.map (Expr.respell spell names)).foldl (fun merged operand => absorb operand merged)
        (merged.map (Expr.respell spell names)) =
      (operands.foldl (fun merged operand => absorb operand merged) merged).map
        (Expr.respell spell names) from hfold [] (by simp)
  induction operands with
  | nil => exact fun _ _ => rfl
  | cons operand rest ih =>
    intro merged hmerged
    rw [List.forall_mem_cons] at h
    rw [List.map_cons, List.foldl_cons, List.foldl_cons, absorb_respell hmerged h.1,
      ih h.2 _ (absorb_slotted hmerged h.1)]

theorem mergeChain_respell (operands : List Expr) :
    mergeChain (operands.map (Expr.respell spell names)) =
      (mergeChain operands).respell spell names :=
  spell.relabelling.mergeChain_map names operands

variable {place : Place} {o : Bool} {k k' : Nat}

theorem Expr.Settled.slotted {e : Expr} (h : e.Settled place o k k') : e.Slotted := by
  cases h with
  | projection _ _ => rfl
  | _ => trivial

theorem SettledAll.slotted {es : List Expr} (h : SettledAll place o k es k') :
    ∀ e ∈ es, e.Slotted := by
  induction es generalizing k with
  | nil => simp
  | cons e rest ih =>
    cases h with
    | cons he hrest => exact List.forall_mem_cons.2 ⟨he.slotted, ih hrest⟩

end

section

variable {place : Place} (hplaced : ∀ scope ∈ place.scopes, scope.Placed)
  {spell : Spelling} {names : List (Option String)}

include hplaced

theorem Expr.Settled.mergedChain_respell {o : Bool} {k k' : Nat} {e : Expr}
    (h : e.Settled place o k k')
    (hchain : (e.respell spell names).chain = e.chain.map (Expr.respell spell names)) :
    mergeChain (mergeOperands (e.respell spell names).chain) =
      (mergeChain (mergeOperands e.chain)).respell spell names := by
  rw [hchain, mergeOperands_respell (h.chain hplaced).slotted, mergeChain_respell]

mutual

theorem Expr.Settled.chain_respell {o : Bool} {k k' : Nat} {e : Expr}
    (h : e.Settled place o k k') :
    (e.respell spell names).chain = e.chain.map (Expr.respell spell names) := by
  match e with
  | .merge left right =>
    cases h with
    | merge hleft hright =>
      rw [Expr.respell, Expr.chain, Expr.chain, hleft.chain_respell, hright.chain_respell,
        List.map_append]
  | .tuple items =>
    cases h with
    | tuple hitems =>
      rw [Expr.respell, Expr.chain, Expr.chain, hitems.normalizeAll_respell]
      rfl
  | .mapping entries =>
    cases h with
    | mapping hentries =>
      rw [Expr.respell, Expr.chain, Expr.chain, hentries.normalizeEntries_respell]
      rfl
  | .aliased value name =>
    cases h with
    | aliased hvalue =>
      rw [Expr.respell, Expr.chain, Expr.chain,
        hvalue.mergedChain_respell hplaced hvalue.chain_respell]
      rfl
  | .projection kind p => rfl
  | .literal _ | .param _ | .field _ | .binding _ | .parentBinding _ | .operator _ _
  | .aggregate _ _ _ _ | .fragment _ _ _ | .cast _ _ _ | .subquery _ _ | .values _
  | .aliasRef _ | .jsonPath _ _ | .interval _ _ => rfl
termination_by structural e

theorem SettledAll.normalizeAll_respell {o : Bool} {k k' : Nat} {es : List Expr}
    (h : SettledAll place o k es k') :
    normalizeAll (respellAll spell names es) = respellAll spell names (normalizeAll es) := by
  match es with
  | [] => rfl
  | e :: rest =>
    cases h with
    | cons he hrest =>
      rw [respellAll, normalizeAll, normalizeAll, respellAll,
        he.mergedChain_respell hplaced he.chain_respell, hrest.normalizeAll_respell]
termination_by structural es

theorem SettledEntries.normalizeEntries_respell {o : Bool} {k k' : Nat}
    {entries : List (String × Expr)} (h : SettledEntries place o k entries k') :
    normalizeEntries (respellEntries spell names entries) =
      respellEntries spell names (normalizeEntries entries) := by
  match entries with
  | [] => rfl
  | (key, e) :: rest =>
    cases h with
    | cons he hrest =>
      rw [respellEntries, normalizeEntries, normalizeEntries, respellEntries,
        he.mergedChain_respell hplaced he.chain_respell, hrest.normalizeEntries_respell]
termination_by structural entries

end

/-- What is bound may be respelled before or after it is normalised. -/
theorem Expr.Settled.normalize_respell {o : Bool} {k k' : Nat} {e : Expr}
    (h : e.Settled place o k k') :
    (e.respell spell names).normalize = e.normalize.respell spell names :=
  h.mergedChain_respell hplaced (h.chain_respell hplaced)

end

end QueryCompiler
