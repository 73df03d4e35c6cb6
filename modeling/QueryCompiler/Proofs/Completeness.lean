import QueryCompiler.Proofs.Sites

/-!
# Compiled trees are complete

What may be relied on, without checking it again, in every part of a compiled query: nothing is left
to be resolved, nodes have the operands that they need, and arguments of fragments are of the form
that their role asks for.
-/

namespace QueryCompiler

/-! ### Complete parts -/

/-- Whether a value may be written out as a constant. -/
def Value.isConstant : Value → Bool
  | .string _ | .integer _ | .float _ | .decimal _ => true
  | _ => false

/-- The form of the arguments of a processed fragment. -/
inductive FragmentArg.WellFormed : FragmentArg → Prop where
  | parameter (e : Expr) : WellFormed (.mk .parameter e)
  | identifier {name : String} (hname : name ≠ "") :
      WellFormed (.mk .identifier (.literal (.string name)))
  | constant {v : Value} (hv : v.isConstant = true) : WellFormed (.mk .constant (.literal v))
  | splice {p : Param} {items : List Value} (hsplice : p.splice = true)
      (hvalue : p.value = .list items) (hitems : items ≠ []) : WellFormed (.mk .splice (.param p))

/-- The field that a type target names, if any, is resolved. -/
def TypeRef.Complete : TypeRef → Prop
  | .column f => f.resolved.isSome
  | .builtin _ | .parameterized _ => True

def ValuesTypes.Complete : ValuesTypes → Prop
  | .map types => ∀ column ∈ types.entries, column.2.Complete
  | .schema _ => True

structure ValuesTable.Complete (table : ValuesTable) : Prop where
  index : table.firstParam.isSome
  types : table.types.Complete

/-- A node lacks nothing by itself, whatever its operands lack. -/
def Expr.Complete : Expr → Prop
  | .param p => p.index.isSome
  | .field f => f.resolved.isSome
  | .binding r | .parentBinding r => r.slot.isSome
  | .operator op operands => operands.length = op.arity ∧
      (op.isDateArithmetic → ∃ count unit, operands.getLast? = some (.interval count unit))
  | .aggregate kind args _ _ => args.length = kind.arity
  | .fragment _ parts args => parts.length = args.length + 1 ∧ ∀ arg ∈ args, arg.WellFormed
  | .cast value target resolved => resolved.isSome ∧ value.isCastable ∧ target.Complete
  | .projection _ p => p.slot.isSome
  | .jsonPath base _ => ∃ f, base = .field f
  | .literal _ | .subquery _ _ | .values _ | .merge _ _ | .aliased _ _ | .aliasRef _
  | .interval _ _ | .tuple _ | .mapping _ => True

/-- The names of the sources are distinct, and every fragment source is a fragment. -/
structure Query.Complete (query : Query) : Prop where
  names : (query.sources.filterMap Source.name).Nodup
  fragments : ∀ e name, Source.mk (.fragment e) name ∈ query.sources → e.isFragment

def Part.Complete : Part → Prop
  | .expr e => e.Complete
  | .table t => t.Complete
  | .query q => q.Complete

variable {catalog : Catalog}

/-! ### Type targets and values tables -/

theorem bindField_isSome {scopes : ScopeStack} {f g : FieldRef} (h : scopes.bindField f = .ok g) :
    g.resolved.isSome := by
  obtain ⟨slot, source, storage, type, -, -, rfl⟩ := bindField_eq_ok.1 h
  rfl

theorem complete_of_resolveType {scopes : ScopeStack} {target target' : TypeRef}
    {type : ResolvedType} (h : scopes.resolveType target = .ok (target', type)) :
    target'.Complete := by
  cases target with
  | builtin name =>
    rw [ScopeStack.resolveType] at h
    split at h
    · cases h
      trivial
    · cases h
  | parameterized descriptor =>
    cases h
    trivial
  | column f =>
    rw [ScopeStack.resolveType] at h
    split at h
    · cases h
    · rename_i bound hbind
      split at h
      · cases h
        exact bindField_isSome hbind
      · cases h

theorem complete_of_resolveTypes {scopes : ScopeStack} {keys : List String}
    (hkeys : keys.Pairwise (· < ·)) {types types' : ValuesTypes} {resolved : SortedMap ResolvedType}
    (h : resolveTypes catalog scopes.resolveType keys types = .ok (types', resolved)) :
    types'.Complete := by
  cases types' with
  | schema name => trivial
  | map types' =>
    intro column hcolumn
    obtain ⟨target, type, htarget⟩ := resolve_of_resolveTypes hkeys h column hcolumn
    exact complete_of_resolveType htarget

theorem complete_of_check {scopes : ScopeStack} {table table' : ValuesTable}
    (h : table.check catalog scopes = .ok table') : table'.types.Complete := by
  obtain ⟨first, _, types, resolved, -, -, -, htypes, -, rfl⟩ := validate_eq_ok.1 h
  exact complete_of_resolveTypes first.ascending htypes

/-! ### Declared sources -/

/-- Declaring sources refuses a name that is taken. -/
theorem names_nodup_of_declareSources {outer : ScopeStack} {scope scope' : Scope}
    {sources : List Source} {tables : List (Option ValuesTable)}
    (hscope : (scope.sources.filterMap BoundSource.name).Nodup)
    (h : declareSources catalog outer scope sources = (.ok tables, scope')) :
    (scope.sources.filterMap BoundSource.name ++ sources.filterMap Source.name).Nodup := by
  induction sources generalizing scope tables with
  | nil => simpa using hscope
  | cons source rest ih =>
    obtain ⟨shape, table, next, tables', -, hadd, hrest, -⟩ := declareSources_cons_eq_ok.1 h
    obtain ⟨hnew, rfl⟩ := add_eq_ok.1 hadd
    cases hname : source.name with
    | none =>
      rw [hname] at hrest
      have hnext := ih (by simpa using hscope) hrest
      rw [List.filterMap_cons_none hname]
      simpa using hnext
    | some name =>
      have hfresh : name ∉ scope.sources.filterMap BoundSource.name := by
        rw [List.mem_filterMap]
        rintro ⟨other, hmem, heq⟩
        exact Scope.lookup_eq_none.1 (hnew name hname) other hmem heq
      rw [hname] at hrest
      have hadded : (scope.sources.filterMap BoundSource.name ++ [name]).Nodup :=
        (List.perm_append_singleton ..).nodup_iff.2 (List.nodup_cons.2 ⟨hfresh, hscope⟩)
      have hnext := ih (by simpa using hadded) hrest
      rw [List.filterMap_cons_some hname]
      simpa using hnext

/-! ### Operands and arguments -/

theorem operands_of_checkOperands {op : Operator} {operands : List Expr}
    (h : checkOperands op operands = .ok ()) : (Expr.operator op operands).Complete := by
  obtain ⟨hlength, hinterval⟩ := checkOperands_eq_ok.1 h
  refine ⟨hlength, fun hdate => ?_⟩
  have hlast := hinterval hdate
  rw [List.getLast?_map, Option.map_eq_some_iff] at hlast
  obtain ⟨e, hlast, hshape⟩ := hlast
  cases e with
  | interval count unit => exact ⟨count, unit, hlast⟩
  | _ => cases hshape

theorem arguments_of_checkArguments {kind : AggregateKind} {args : List Expr}
    (h : checkArguments kind args = .ok ()) : args.length = kind.arity := by
  rw [checkArguments] at h
  split at h
  · cases h
  · rename_i hlength
    exact Decidable.not_not.1 hlength

theorem length_fragmentParts (text : String) :
    (fragmentParts text).length = (fragmentParts text).length - 1 + 1 := by
  have hpos : 0 < (fragmentParts text).length := by
    rw [fragmentParts, List.length_map]
    exact List.length_pos_iff.2 (splitPlaceholders_ne_nil _)
  omega

theorem fault?_identifier {e : Expr} : (FragmentArg.mk .identifier e).fault? = none ↔
    ∃ name, e.value? = some (.string name) ∧ name ≠ "" := by
  rw [FragmentArg.fault?]
  cases e.value? with
  | none => simp
  | some v => cases v <;> simp

theorem fault?_constant {e : Expr} : (FragmentArg.mk .constant e).fault? = none ↔
    ∃ v, e.value? = some v ∧ v.isConstant = true := by
  rw [FragmentArg.fault?]
  cases e.value? with
  | none => simp
  | some v => cases v <;> simp [Value.isConstant]

theorem fault?_splice {e : Expr} : (FragmentArg.mk .splice e).fault? = none ↔
    ∃ items, e.value? = some (.list items) ∧ items ≠ [] := by
  rw [FragmentArg.fault?]
  cases e.value? with
  | none => simp
  | some v =>
    cases v with
    | list items => cases items <;> simp
    | _ => simp

theorem wellFormed_inline {role : ArgRole} {v : Value} (hrole : role.isInline = true)
    (h : (FragmentArg.mk role (.literal v)).fault? = none) :
    (FragmentArg.mk role (.literal v)).WellFormed := by
  cases role with
  | parameter | splice => cases hrole
  | identifier =>
    obtain ⟨name, hvalue, hname⟩ := fault?_identifier.1 h
    cases hvalue
    exact .identifier hname
  | constant =>
    obtain ⟨_, hvalue, hconstant⟩ := fault?_constant.1 h
    cases hvalue
    exact .constant hconstant

theorem wellFormed_splice {p : Param} (hsplice : p.splice = true)
    (h : (FragmentArg.mk .splice (.param p)).fault? = none) :
    (FragmentArg.mk .splice (.param p)).WellFormed := by
  obtain ⟨items, hvalue, hitems⟩ := fault?_splice.1 h
  exact .splice hsplice (Option.some.inj hvalue) hitems

/-- Arguments that are settled and have no fault are as their roles ask for. -/
theorem SettledArgs.wellFormed {place : Place} {k k' : Nat} {args : List FragmentArg}
    (h : SettledArgs place k args k') (hfault : ∀ arg ∈ args, arg.fault? = none) :
    ∀ arg ∈ args, arg.WellFormed := by
  induction args generalizing k with
  | nil => simp
  | cons arg rest ih =>
    rw [List.forall_mem_cons] at hfault ⊢
    obtain ⟨hown, hothers⟩ := hfault
    cases h with
    | parameter _ hrest => exact ⟨.parameter _, ih hrest hothers⟩
    | inline hrole hrest => exact ⟨wellFormed_inline hrole hown, ih hrest hothers⟩
    | splice _ hsplice hrest => exact ⟨wellFormed_splice hsplice hown, ih hrest hothers⟩

/-! ### Fragment sources -/

theorem Source.Settled.isFragment {place : Place} {k k' : Nat} {source : Source}
    (h : source.Settled place k k') {e : Expr} {name : Option String}
    (hsource : .mk (.fragment e) name = source) : e.isFragment := by
  cases h with
  | fragment hfragment =>
    cases hsource
    exact hfragment
  | schema | table | values | subquery => cases hsource

theorem SettledJoins.isFragment {place : Place} {k k' : Nat} {joins : List Join}
    (h : SettledJoins place k joins k') {e : Expr} {name : Option String}
    (hsource : .mk (.fragment e) name ∈ joins.map Join.source) : e.isFragment := by
  induction joins generalizing k with
  | nil => cases hsource
  | cons join rest ih =>
    cases h with
    | cons hown _ hrest =>
      rcases List.mem_cons.1 hsource with heq | hmem
      · exact hown.isFragment heq
      · exact ih hrest hmem

/-! ### Settled parts -/

theorem Expr.Settled.complete {place : Place} {o : Bool} {k k' : Nat} {e : Expr}
    (h : e.Settled place o k k') : e.Complete := by
  cases h with
  | literal | values | subquery | merge | aliased | aliasRef | interval | tuple | mapping => trivial
  | param hindex => exact Option.isSome_of_eq_some hindex
  | field hfield => exact bindField_isSome hfield
  | binding | parentBinding | projection => rfl
  | operator hcheck => exact operands_of_checkOperands hcheck
  | aggregate hcheck => exact arguments_of_checkArguments hcheck
  | @fragment _ _ _ _ text args hcount hfault hargs =>
    refine ⟨?_, hargs.wellFormed (firstFault_eq_none.1 hfault)⟩
    rw [← hcount]
    exact length_fragmentParts text
  | cast _ hcastable _ htarget => exact ⟨rfl, hcastable, complete_of_resolveType htarget⟩
  | jsonPath => exact ⟨_, rfl⟩

theorem Query.Settled.complete {place : Place} {k k' : Nat} {query : Query}
    (h : query.Settled place k k') : query.Complete := by
  cases h with
  | mk _ hdeclared _ _ _ hsource hjoins =>
    have hempty : (Scope.empty.sources.filterMap BoundSource.name).Nodup := List.nodup_nil
    refine ⟨names_nodup_of_declareSources hempty hdeclared, ?_⟩
    intro e name hmem
    rcases List.mem_cons.1 hmem with heq | hmem
    · exact hsource.isFragment heq
    · exact hjoins.isFragment hmem

/-- What a settled query requires of its parts leaves none of them incomplete. -/
theorem Part.Settled.complete {queries : List Query} {part : Part}
    (h : part.Settled catalog queries) : part.Complete := by
  cases part with
  | expr e =>
    obtain ⟨place, o, k, k', -, -, he⟩ := h
    exact he.complete
  | table t =>
    obtain ⟨hindex, scopes, hcheck⟩ := h
    exact ⟨hindex, complete_of_check hcheck⟩
  | query q =>
    obtain ⟨place, k, k', -, -, hq⟩ := h
    exact hq.complete

/--
Every part of a compiled query, at whatever depth, is complete: references, projections, casts and
parameters are resolved, operators, aggregates and fragments have the operands that they need, paths
start from a field, and the sources of a query have distinct names.
-/
theorem compile_complete (catalog : Catalog) (config : Config) (query : Query) (c : CompiledQuery)
    (h : query.compile catalog config = .ok c) : ∀ part ∈ c.query.parts 0, part.2.Complete := by
  intro part hpart
  obtain ⟨queries, hsite⟩ := exists_site_of_mem_parts hpart
  exact (sites_of_compile h _ hsite).complete

/-- Two of the parts are queries, and one is a table. -/
theorem compile_complete_commentedPosts :
    ∃ c, commentedPosts.compile postCatalog .default = .ok c ∧
      (c.query.parts 0).length = 18 ∧ ∀ part ∈ c.query.parts 0, part.2.Complete :=
  ⟨_, rfl, rfl, compile_complete postCatalog .default commentedPosts _ rfl⟩

end QueryCompiler
