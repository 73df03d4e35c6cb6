import QueryCompiler.Proofs.Binding.Steps
import QueryCompiler.Proofs.FieldSets

/-!
# What binding does, rule by rule

For every kind of expression, and for the parts of a query, when binding succeeds, with what result,
and which indices it takes. All that is proved about runs of binding starts from these equations.
-/

namespace QueryCompiler

variable {ctx : Context} {o : Bool} {s s' : BindState}

-- Generates the equations of these functions once, before the proofs below ask for them together.
attribute [local simp] Expr.bind Expr.bindAccess bindAll bindEntries bindOption bindArgs bindPath
  bindWheres bindTerms Source.bind bindJoins Query.bind

/-! ### Leaves -/

/-- The state after some indices are taken. -/
def BindState.skip (s : BindState) (count : Nat) : BindState :=
  { s with nextParam := s.nextParam + count }

@[simp] theorem BindState.nextParam_skip (s : BindState) (count : Nat) :
    (s.skip count).nextParam = s.nextParam + count := rfl

theorem Param.assign_eq_ok {p p' : Param} :
    p.assign s = .ok p' s' ↔ p' = { p with index := some s.nextParam } ∧ s' = s.skip 1 := by
  simp only [Param.assign, BindM.bind_eq_ok, BindM.takeIndices_eq_ok, BindM.pure_eq_ok]
  constructor
  · rintro ⟨_, _, ⟨rfl, rfl⟩, rfl, rfl⟩
    exact ⟨rfl, rfl⟩
  · rintro ⟨rfl, rfl⟩
    exact ⟨_, _, ⟨rfl, rfl⟩, rfl, rfl⟩

theorem ValuesTable.assign_eq_ok {table table' : ValuesTable} :
    table.assign s = .ok table' s' ↔
      table' = { table with firstParam := some s.nextParam } ∧ s' = s.skip table.paramCount := by
  simp only [ValuesTable.assign, BindM.bind_eq_ok, BindM.takeIndices_eq_ok, BindM.pure_eq_ok]
  constructor
  · rintro ⟨_, _, ⟨rfl, rfl⟩, rfl, rfl⟩
    exact ⟨rfl, rfl⟩
  · rintro ⟨rfl, rfl⟩
    exact ⟨_, _, ⟨rfl, rfl⟩, rfl, rfl⟩

theorem checkCastOperand_eq_ok {value : Expr} {u : Unit} :
    checkCastOperand value = .ok u ↔ value.isCastable = true := by
  rw [checkCastOperand]
  split <;> simp [*]

/-! ### Expressions -/

namespace Expr

variable {e' : Expr}

theorem bind_literal {v : Value} :
    (literal v).bind ctx o s = .ok e' s' ↔ e' = literal v ∧ s' = s := by
  simp only [bind, BindM.pure_eq_ok]
  constructor
  · rintro ⟨rfl, rfl⟩
    exact ⟨rfl, rfl⟩
  · rintro ⟨rfl, rfl⟩
    exact ⟨rfl, rfl⟩

theorem bind_param {p : Param} :
    (param p).bind ctx o s = .ok e' s' ↔
      e' = param { p with index := some s.nextParam } ∧ s' = s.skip 1 := by
  simp only [bind, BindM.bind_eq_ok, BindM.pure_eq_ok, Param.assign_eq_ok]
  constructor
  · rintro ⟨_, _, ⟨rfl, rfl⟩, rfl, rfl⟩
    exact ⟨rfl, rfl⟩
  · rintro ⟨rfl, rfl⟩
    exact ⟨_, _, ⟨rfl, rfl⟩, rfl, rfl⟩

theorem bind_field {f : FieldRef} :
    (field f).bind ctx o s = .ok e' s' ↔
      s' = s ∧ ∃ g, ctx.scopes.bindField f = .ok g ∧ e' = field g := by
  simp only [bind, BindM.bind_eq_ok, BindM.pure_eq_ok, BindM.ofExcept_eq_ok]
  constructor
  · rintro ⟨g, _, ⟨hbind, rfl⟩, rfl, rfl⟩
    exact ⟨rfl, g, hbind, rfl⟩
  · rintro ⟨rfl, g, hbind, rfl⟩
    exact ⟨g, _, ⟨hbind, rfl⟩, rfl, rfl⟩

theorem bind_binding {r : BindingRef} :
    (binding r).bind ctx o s = .ok e' s' ↔
      s' = s ∧ ∃ slot source, ctx.scopes.lookupBinding r.name = .ok (slot, source) ∧
        e' = binding ⟨r.name, some slot⟩ := by
  simp only [bind, BindM.bind_eq_ok, BindM.pure_eq_ok, BindM.ofExcept_eq_ok]
  constructor
  · rintro ⟨⟨slot, source⟩, _, ⟨hlookup, rfl⟩, rfl, rfl⟩
    exact ⟨rfl, slot, source, hlookup, rfl⟩
  · rintro ⟨rfl, slot, source, hlookup, rfl⟩
    exact ⟨(slot, source), _, ⟨hlookup, rfl⟩, rfl, rfl⟩

theorem bind_parentBinding {r : BindingRef} :
    (parentBinding r).bind ctx o s = .ok e' s' ↔
      s' = s ∧ ∃ slot source, ctx.scopes.lookupParent r.name = .ok (slot, source) ∧
        e' = parentBinding ⟨r.name, some slot⟩ := by
  simp only [bind, BindM.bind_eq_ok, BindM.pure_eq_ok, BindM.ofExcept_eq_ok]
  constructor
  · rintro ⟨⟨slot, source⟩, _, ⟨hlookup, rfl⟩, rfl, rfl⟩
    exact ⟨rfl, slot, source, hlookup, rfl⟩
  · rintro ⟨rfl, slot, source, hlookup, rfl⟩
    exact ⟨(slot, source), _, ⟨hlookup, rfl⟩, rfl, rfl⟩

theorem bind_operator {op : Operator} {operands : List Expr} :
    (operator op operands).bind ctx o s = .ok e' s' ↔
      checkOperands op operands = .ok () ∧ ∃ operands',
        bindAll ctx false operands s = .ok operands' s' ∧
        e' = operator op (propagateTypes op operands') := by
  simp only [bind, BindM.bind_eq_ok, BindM.pure_eq_ok, BindM.ofExcept_eq_ok]
  constructor
  · rintro ⟨_, _, ⟨hcheck, rfl⟩, operands', _, hoperands, rfl, rfl⟩
    exact ⟨hcheck, operands', hoperands, rfl⟩
  · rintro ⟨hcheck, operands', hoperands, rfl⟩
    exact ⟨(), s, ⟨hcheck, rfl⟩, operands', s', hoperands, rfl, rfl⟩

theorem bind_aggregate {kind : AggregateKind} {args : List Expr} {distinct : Bool}
    {filter : Option Expr} :
    (aggregate kind args distinct filter).bind ctx o s = .ok e' s' ↔
      checkArguments kind args = .ok () ∧ ∃ args' t filter',
        bindAll ctx false args s = .ok args' t ∧ bindOption ctx false filter t = .ok filter' s' ∧
        e' = aggregate kind args' distinct filter' := by
  simp only [bind, BindM.bind_eq_ok, BindM.pure_eq_ok, BindM.ofExcept_eq_ok]
  constructor
  · rintro ⟨_, _, ⟨hcheck, rfl⟩, args', t, hargs, filter', _, hfilter, rfl, rfl⟩
    exact ⟨hcheck, args', t, filter', hargs, hfilter, rfl⟩
  · rintro ⟨hcheck, args', t, filter', hargs, hfilter, rfl⟩
    exact ⟨(), s, ⟨hcheck, rfl⟩, args', t, hargs, filter', s', hfilter, rfl, rfl⟩

theorem bind_fragment {text : String} {parts : List String} {args : List FragmentArg} :
    (fragment text parts args).bind ctx o s = .ok e' s' ↔
      ∃ processed args', Fragment.process ⟨text, parts, args⟩ = .ok processed ∧
        bindArgs ctx args s = .ok args' s' ∧ e' = fragment text processed.parts args' := by
  simp only [bind, BindM.bind_eq_ok, BindM.pure_eq_ok, BindM.ofExcept_eq_ok]
  constructor
  · rintro ⟨processed, _, ⟨hprocess, rfl⟩, args', _, hargs, rfl, rfl⟩
    exact ⟨processed, args', hprocess, hargs, rfl⟩
  · rintro ⟨processed, args', hprocess, hargs, rfl⟩
    exact ⟨processed, s, ⟨hprocess, rfl⟩, args', s', hargs, rfl, rfl⟩

theorem bind_cast {value : Expr} {target : TypeRef} {resolved : Option ResolvedType} :
    (cast value target resolved).bind ctx o s = .ok e' s' ↔
      ∃ value' target' type, value.bind ctx false s = .ok value' s' ∧ value'.isCastable = true ∧
        ctx.scopes.resolveType target = .ok (target', type) ∧
        e' = cast (value'.withCastType type) target' (some type) := by
  simp only [bind, BindM.bind_eq_ok, BindM.pure_eq_ok, BindM.ofExcept_eq_ok,
    checkCastOperand_eq_ok]
  constructor
  · rintro ⟨value', _, hvalue, _, _, ⟨hcastable, rfl⟩, ⟨target', type⟩, _, ⟨htarget, rfl⟩, rfl, rfl⟩
    exact ⟨value', target', type, hvalue, hcastable, htarget, rfl⟩
  · rintro ⟨value', target', type, hvalue, hcastable, htarget, rfl⟩
    exact ⟨value', s', hvalue, (), s', ⟨hcastable, rfl⟩, (target', type), s', ⟨htarget, rfl⟩,
      rfl, rfl⟩

theorem bind_subquery {kind : SubqueryKind} {query : Query} :
    (subquery kind query).bind ctx o s = .ok e' s' ↔
      ∃ query', query.bind ctx s = .ok query' s' ∧ e' = subquery kind query' := by
  simp only [bind, BindM.bind_eq_ok, BindM.pure_eq_ok]
  constructor
  · rintro ⟨query', _, hquery, rfl, rfl⟩
    exact ⟨query', hquery, rfl⟩
  · rintro ⟨query', hquery, rfl⟩
    exact ⟨query', s', hquery, rfl, rfl⟩

theorem bind_values {table : ValuesTable} :
    (values table).bind ctx o s = .ok e' s' ↔
      ∃ table', table.check ctx.catalog ctx.scopes = .ok table' ∧
        e' = values { table' with firstParam := some s.nextParam } ∧
        s' = s.skip table'.paramCount := by
  simp only [bind, BindM.bind_eq_ok, BindM.pure_eq_ok, BindM.ofExcept_eq_ok,
    ValuesTable.assign_eq_ok]
  constructor
  · rintro ⟨table', _, ⟨hcheck, rfl⟩, _, _, ⟨rfl, rfl⟩, rfl, rfl⟩
    exact ⟨table', hcheck, rfl, rfl⟩
  · rintro ⟨table', hcheck, rfl, rfl⟩
    exact ⟨table', s, ⟨hcheck, rfl⟩, _, _, ⟨rfl, rfl⟩, rfl, rfl⟩

theorem bind_merge {left right : Expr} :
    (merge left right).bind ctx o s = .ok e' s' ↔
      ∃ left' t right', left.bind ctx o s = .ok left' t ∧ right.bind ctx o t = .ok right' s' ∧
        e' = merge left' right' := by
  simp only [bind, BindM.bind_eq_ok, BindM.pure_eq_ok]
  constructor
  · rintro ⟨left', t, hleft, right', _, hright, rfl, rfl⟩
    exact ⟨left', t, right', hleft, hright, rfl⟩
  · rintro ⟨left', t, right', hleft, hright, rfl⟩
    exact ⟨left', t, hleft, right', s', hright, rfl, rfl⟩

theorem bind_aliased {value : Expr} {name : String} :
    (aliased value name).bind ctx o s = .ok e' s' ↔
      o = true ∧ ∃ value', value.bind ctx false s = .ok value' s' ∧ e' = aliased value' name := by
  cases o with
  | false => simp [bind]
  | true =>
    simp only [bind, if_true, BindM.bind_eq_ok, BindM.pure_eq_ok]
    constructor
    · rintro ⟨value', _, hvalue, rfl, rfl⟩
      exact ⟨trivial, value', hvalue, rfl⟩
    · rintro ⟨-, value', hvalue, rfl⟩
      exact ⟨value', s', hvalue, rfl, rfl⟩

theorem bind_aliasRef {name : String} :
    (aliasRef name).bind ctx o s = .ok e' s' ↔
      (ctx.aliases.resolve name).isSome ∧ e' = aliasRef name ∧ s' = s := by
  simp only [bind, BindM.bind_eq_ok, BindM.pure_eq_ok, BindM.ofExcept_eq_ok, AliasTable.require]
  cases ctx.aliases.resolve name with
  | none => simp
  | some value => simp [eq_comm]

theorem bind_jsonPath {base : Expr} {path : List PathStep} :
    (jsonPath base path).bind ctx o s = .ok e' s' ↔
      ∃ base' steps t path', base.bindAccess ctx s = .ok (base', steps) t ∧
        bindPath ctx path t = .ok path' s' ∧ e' = jsonPath base' (steps ++ path') := by
  simp only [bind, BindM.bind_eq_ok, BindM.pure_eq_ok]
  constructor
  · rintro ⟨⟨base', steps⟩, t, hbase, path', _, hpath, rfl, rfl⟩
    exact ⟨base', steps, t, path', hbase, hpath, rfl⟩
  · rintro ⟨base', steps, t, path', hbase, hpath, rfl⟩
    exact ⟨(base', steps), t, hbase, path', s', hpath, rfl, rfl⟩

theorem bind_interval {count : Expr} {unit : IntervalUnit} :
    (interval count unit).bind ctx o s = .ok e' s' ↔
      ∃ count', count.bind ctx false s = .ok count' s' ∧
        e' = interval (count'.withType (.builtin .integer)) unit := by
  simp only [bind, BindM.bind_eq_ok, BindM.pure_eq_ok]
  constructor
  · rintro ⟨count', _, hcount, rfl, rfl⟩
    exact ⟨count', hcount, rfl⟩
  · rintro ⟨count', hcount, rfl⟩
    exact ⟨count', s', hcount, rfl, rfl⟩

theorem bind_tuple {items : List Expr} :
    (tuple items).bind ctx o s = .ok e' s' ↔
      ∃ items', bindAll ctx o items s = .ok items' s' ∧ e' = tuple items' := by
  simp only [bind, BindM.bind_eq_ok, BindM.pure_eq_ok]
  constructor
  · rintro ⟨items', _, hitems, rfl, rfl⟩
    exact ⟨items', hitems, rfl⟩
  · rintro ⟨items', hitems, rfl⟩
    exact ⟨items', s', hitems, rfl, rfl⟩

theorem bind_mapping {entries : List (String × Expr)} :
    (mapping entries).bind ctx o s = .ok e' s' ↔
      ∃ entries', bindEntries ctx o entries s = .ok entries' s' ∧ e' = mapping entries' := by
  simp only [bind, BindM.bind_eq_ok, BindM.pure_eq_ok]
  constructor
  · rintro ⟨entries', _, hentries, rfl, rfl⟩
    exact ⟨entries', hentries, rfl⟩
  · rintro ⟨entries', hentries, rfl⟩
    exact ⟨entries', s', hentries, rfl, rfl⟩

theorem bindAccess_jsonPath {base : Expr} {path : List PathStep} {found : Expr × List PathStep} :
    (jsonPath base path).bindAccess ctx s = .ok found s' ↔
      ∃ base' steps t path', base.bindAccess ctx s = .ok (base', steps) t ∧
        bindPath ctx path t = .ok path' s' ∧ found = (base', steps ++ path') := by
  simp only [bindAccess, BindM.bind_eq_ok, BindM.pure_eq_ok]
  constructor
  · rintro ⟨⟨base', steps⟩, t, hbase, path', _, hpath, rfl, rfl⟩
    exact ⟨base', steps, t, path', hbase, hpath, rfl⟩
  · rintro ⟨base', steps, t, path', hbase, hpath, rfl⟩
    exact ⟨(base', steps), t, hbase, path', s', hpath, rfl, rfl⟩

theorem bindAccess_field {f : FieldRef} {found : Expr × List PathStep} :
    (field f).bindAccess ctx s = .ok found s' ↔
      s' = s ∧ ∃ g, ctx.scopes.bindField f = .ok g ∧ found = (field g, []) := by
  simp only [bindAccess, BindM.bind_eq_ok, BindM.pure_eq_ok, BindM.ofExcept_eq_ok]
  constructor
  · rintro ⟨g, _, ⟨hbind, rfl⟩, rfl, rfl⟩
    exact ⟨rfl, g, hbind, rfl⟩
  · rintro ⟨rfl, g, hbind, rfl⟩
    exact ⟨g, _, ⟨hbind, rfl⟩, rfl, rfl⟩

end Expr

/-! ### Projections of sources -/

/-- Binding a projection may note what it leaves out, but takes no indices. -/
theorem Projection.bind_eq_ok {p p' : Projection} (h : p.bind ctx s = .ok p' s') :
    s'.nextParam = s.nextParam ∧ ∃ slot source, ctx.scopes.resolve p.source = .ok (slot, source) ∧
      (∀ schema, source.shape = .schema schema → p.set.Valid ctx.catalog schema) ∧
      p' = ⟨p.source, p.set, some slot⟩ := by
  simp only [Projection.bind, BindM.bind_eq_ok, BindM.ofExcept_eq_ok] at h
  obtain ⟨⟨slot, source⟩, _, ⟨hresolve, rfl⟩, h⟩ := h
  cases hshape : source.shape with
  | schema schema =>
    simp only [hshape, BindM.bind_eq_ok, BindM.pure_eq_ok] at h
    obtain ⟨_, t, hcheck, rfl, rfl⟩ := h
    obtain ⟨hvalid, hnext⟩ := valid_of_checkFieldSet hcheck
    refine ⟨hnext, slot, source, hresolve, ?_, rfl⟩
    rintro _ heq
    rw [hshape] at heq
    cases heq
    exact hvalid
  | _ =>
    simp only [hshape, BindM.pure_eq_ok] at h
    obtain ⟨rfl, rfl⟩ := h
    refine ⟨rfl, slot, source, hresolve, ?_, rfl⟩
    intro _ heq
    rw [hshape] at heq
    cases heq

theorem Projection.bind_ok {p : Projection} {slot : Slot} {source : BoundSource}
    (hresolve : ctx.scopes.resolve p.source = .ok (slot, source))
    (hvalid : ∀ schema, source.shape = .schema schema → p.set.Valid ctx.catalog schema)
    (s : BindState) :
    ∃ s', p.bind ctx s = .ok ⟨p.source, p.set, some slot⟩ s' ∧ s'.nextParam = s.nextParam := by
  simp only [Projection.bind, BindM.bind_eq_ok, BindM.ofExcept_eq_ok]
  cases hshape : source.shape with
  | schema schema =>
    obtain ⟨s', hcheck, hnext⟩ := (hvalid schema hshape).check s
    refine ⟨s', ⟨(slot, source), s, ⟨hresolve, rfl⟩, ?_⟩, hnext⟩
    simp only [hshape, BindM.bind_eq_ok, BindM.pure_eq_ok]
    exact ⟨(), s', hcheck, trivial, rfl⟩
  | _ =>
    refine ⟨s, ⟨(slot, source), s, ⟨hresolve, rfl⟩, ?_⟩, rfl⟩
    simp only [hshape, BindM.pure_eq_ok]
    exact ⟨trivial, trivial⟩

theorem Expr.bind_projection {kind : ProjectionKind} {p : Projection} {e' : Expr} :
    (Expr.projection kind p).bind ctx o s = .ok e' s' ↔
      ∃ p', p.bind ctx s = .ok p' s' ∧ e' = .projection kind p' := by
  simp only [Expr.bind, BindM.bind_eq_ok, BindM.pure_eq_ok]
  constructor
  · rintro ⟨p', _, hp, rfl, rfl⟩
    exact ⟨p', hp, rfl⟩
  · rintro ⟨p', hp, rfl⟩
    exact ⟨p', s', hp, rfl, rfl⟩

/-! ### Lists -/

theorem bindAll_nil {es' : List Expr} : bindAll ctx o [] s = .ok es' s' ↔ es' = [] ∧ s' = s := by
  simp only [bindAll, BindM.pure_eq_ok]
  constructor
  · rintro ⟨rfl, rfl⟩
    exact ⟨rfl, rfl⟩
  · rintro ⟨rfl, rfl⟩
    exact ⟨rfl, rfl⟩

theorem bindAll_cons {e : Expr} {rest es' : List Expr} :
    bindAll ctx o (e :: rest) s = .ok es' s' ↔
      ∃ e' t rest', e.bind ctx o s = .ok e' t ∧ bindAll ctx o rest t = .ok rest' s' ∧
        es' = e' :: rest' := by
  simp only [bindAll, BindM.bind_eq_ok, BindM.pure_eq_ok]
  constructor
  · rintro ⟨e', t, he, rest', _, hrest, rfl, rfl⟩
    exact ⟨e', t, rest', he, hrest, rfl⟩
  · rintro ⟨e', t, rest', he, hrest, rfl⟩
    exact ⟨e', t, he, rest', s', hrest, rfl, rfl⟩

theorem bindEntries_nil {entries' : List (String × Expr)} :
    bindEntries ctx o [] s = .ok entries' s' ↔ entries' = [] ∧ s' = s := by
  simp only [bindEntries, BindM.pure_eq_ok]
  constructor
  · rintro ⟨rfl, rfl⟩
    exact ⟨rfl, rfl⟩
  · rintro ⟨rfl, rfl⟩
    exact ⟨rfl, rfl⟩

theorem bindEntries_cons {key : String} {e : Expr} {rest entries' : List (String × Expr)} :
    bindEntries ctx o ((key, e) :: rest) s = .ok entries' s' ↔
      ∃ e' t rest', e.bind ctx o s = .ok e' t ∧ bindEntries ctx o rest t = .ok rest' s' ∧
        entries' = (key, e') :: rest' := by
  simp only [bindEntries, BindM.bind_eq_ok, BindM.pure_eq_ok]
  constructor
  · rintro ⟨e', t, he, rest', _, hrest, rfl, rfl⟩
    exact ⟨e', t, rest', he, hrest, rfl⟩
  · rintro ⟨e', t, rest', he, hrest, rfl⟩
    exact ⟨e', t, he, rest', s', hrest, rfl, rfl⟩

theorem bindOption_none {e' : Option Expr} :
    bindOption ctx o none s = .ok e' s' ↔ e' = none ∧ s' = s := by
  simp only [bindOption, BindM.pure_eq_ok]
  constructor
  · rintro ⟨rfl, rfl⟩
    exact ⟨rfl, rfl⟩
  · rintro ⟨rfl, rfl⟩
    exact ⟨rfl, rfl⟩

theorem bindOption_some {e : Expr} {e' : Option Expr} :
    bindOption ctx o (some e) s = .ok e' s' ↔
      ∃ f, e.bind ctx o s = .ok f s' ∧ e' = some f := by
  simp only [bindOption, BindM.bind_eq_ok, BindM.pure_eq_ok]
  constructor
  · rintro ⟨f, _, he, rfl, rfl⟩
    exact ⟨f, he, rfl⟩
  · rintro ⟨f, he, rfl⟩
    exact ⟨f, s', he, rfl, rfl⟩

theorem bindArgs_nil {args' : List FragmentArg} :
    bindArgs ctx [] s = .ok args' s' ↔ args' = [] ∧ s' = s := by
  simp only [bindArgs, BindM.pure_eq_ok]
  constructor
  · rintro ⟨rfl, rfl⟩
    exact ⟨rfl, rfl⟩
  · rintro ⟨rfl, rfl⟩
    exact ⟨rfl, rfl⟩

theorem bindArgs_parameter {e : Expr} {rest args' : List FragmentArg} :
    bindArgs ctx (.mk .parameter e :: rest) s = .ok args' s' ↔
      ∃ e' t rest', e.bind ctx false s = .ok e' t ∧ bindArgs ctx rest t = .ok rest' s' ∧
        args' = .mk .parameter e' :: rest' := by
  simp only [bindArgs, BindM.bind_eq_ok, BindM.pure_eq_ok]
  constructor
  · rintro ⟨e', t, he, rest', _, hrest, rfl, rfl⟩
    exact ⟨e', t, rest', he, hrest, rfl⟩
  · rintro ⟨e', t, rest', he, hrest, rfl⟩
    exact ⟨e', t, he, rest', s', hrest, rfl, rfl⟩

theorem bindArgs_other {role : ArgRole} {e : Expr} (hrole : role ≠ .parameter)
    {rest args' : List FragmentArg} :
    bindArgs ctx (.mk role e :: rest) s = .ok args' s' ↔
      ∃ arg' t rest', (FragmentArg.mk role e).inlined.assign s = .ok arg' t ∧
        bindArgs ctx rest t = .ok rest' s' ∧ args' = arg' :: rest' := by
  cases role with
  | parameter => exact absurd rfl hrole
  | _ =>
    simp only [bindArgs, BindM.bind_eq_ok, BindM.pure_eq_ok]
    constructor
    · rintro ⟨arg', t, harg, rest', _, hrest, rfl, rfl⟩
      exact ⟨arg', t, rest', harg, hrest, rfl⟩
    · rintro ⟨arg', t, rest', harg, hrest, rfl⟩
      exact ⟨arg', t, harg, rest', s', hrest, rfl, rfl⟩

theorem FragmentArg.assign_literal {role : ArgRole} {v : Value} {arg' : FragmentArg} :
    (FragmentArg.mk role (.literal v)).assign s = .ok arg' s' ↔
      arg' = .mk role (.literal v) ∧ s' = s := by
  have heq : (FragmentArg.mk role (.literal v)).assign = pure (.mk role (.literal v)) := by
    cases role <;> rfl
  rw [heq, BindM.pure_eq_ok]
  constructor
  · rintro ⟨rfl, rfl⟩
    exact ⟨rfl, rfl⟩
  · rintro ⟨rfl, rfl⟩
    exact ⟨rfl, rfl⟩

theorem FragmentArg.assign_splice {p : Param} {arg' : FragmentArg} :
    (FragmentArg.mk .splice (.param p)).assign s = .ok arg' s' ↔
      arg' = .mk .splice (.param { p with index := some s.nextParam }) ∧ s' = s.skip 1 := by
  simp only [FragmentArg.assign, BindM.bind_eq_ok, BindM.pure_eq_ok, Param.assign_eq_ok]
  constructor
  · rintro ⟨_, _, ⟨rfl, rfl⟩, rfl, rfl⟩
    exact ⟨rfl, rfl⟩
  · rintro ⟨rfl, rfl⟩
    exact ⟨_, _, ⟨rfl, rfl⟩, rfl, rfl⟩

theorem bindPath_nil {path' : List PathStep} :
    bindPath ctx [] s = .ok path' s' ↔ path' = [] ∧ s' = s := by
  simp only [bindPath, BindM.pure_eq_ok]
  constructor
  · rintro ⟨rfl, rfl⟩
    exact ⟨rfl, rfl⟩
  · rintro ⟨rfl, rfl⟩
    exact ⟨rfl, rfl⟩

theorem bindPath_computed {e : Expr} {rest path' : List PathStep} :
    bindPath ctx (.computed e :: rest) s = .ok path' s' ↔
      ∃ e' t rest', e.bind ctx false s = .ok e' t ∧ bindPath ctx rest t = .ok rest' s' ∧
        path' = .computed e' :: rest' := by
  simp only [bindPath, BindM.bind_eq_ok, BindM.pure_eq_ok]
  constructor
  · rintro ⟨e', t, he, rest', _, hrest, rfl, rfl⟩
    exact ⟨e', t, rest', he, hrest, rfl⟩
  · rintro ⟨e', t, rest', he, hrest, rfl⟩
    exact ⟨e', t, he, rest', s', hrest, rfl, rfl⟩

theorem bindPath_key {name : String} {rest path' : List PathStep} :
    bindPath ctx (.key name :: rest) s = .ok path' s' ↔
      ∃ rest', bindPath ctx rest s = .ok rest' s' ∧ path' = .key name :: rest' := by
  simp only [bindPath, BindM.bind_eq_ok, BindM.pure_eq_ok]
  constructor
  · rintro ⟨rest', _, hrest, rfl, rfl⟩
    exact ⟨rest', hrest, rfl⟩
  · rintro ⟨rest', hrest, rfl⟩
    exact ⟨rest', s', hrest, rfl, rfl⟩

theorem bindPath_index {i : Int64} {rest path' : List PathStep} :
    bindPath ctx (.index i :: rest) s = .ok path' s' ↔
      ∃ rest', bindPath ctx rest s = .ok rest' s' ∧ path' = .index i :: rest' := by
  simp only [bindPath, BindM.bind_eq_ok, BindM.pure_eq_ok]
  constructor
  · rintro ⟨rest', _, hrest, rfl, rfl⟩
    exact ⟨rest', hrest, rfl⟩
  · rintro ⟨rest', hrest, rfl⟩
    exact ⟨rest', s', hrest, rfl, rfl⟩

theorem bindTerms_nil {terms' : List OrderTerm} :
    bindTerms ctx [] s = .ok terms' s' ↔ terms' = [] ∧ s' = s := by
  simp only [bindTerms, BindM.pure_eq_ok]
  constructor
  · rintro ⟨rfl, rfl⟩
    exact ⟨rfl, rfl⟩
  · rintro ⟨rfl, rfl⟩
    exact ⟨rfl, rfl⟩

theorem bindTerms_cons {e : Expr} {direction : SortDirection} {rest terms' : List OrderTerm} :
    bindTerms ctx (.mk e direction :: rest) s = .ok terms' s' ↔
      ∃ e' t rest', e.bind ctx false s = .ok e' t ∧ bindTerms ctx rest t = .ok rest' s' ∧
        terms' = .mk e' direction :: rest' := by
  simp only [bindTerms, BindM.bind_eq_ok, BindM.pure_eq_ok]
  constructor
  · rintro ⟨e', t, he, rest', _, hrest, rfl, rfl⟩
    exact ⟨e', t, rest', he, hrest, rfl⟩
  · rintro ⟨e', t, rest', he, hrest, rfl⟩
    exact ⟨e', t, he, rest', s', hrest, rfl, rfl⟩

/-! ### Sources and clauses -/

theorem bindWheres_nil {wheres' : List Expr} :
    bindWheres ctx [] s = .ok wheres' s' ↔ wheres' = [] ∧ s' = s := by
  simp only [bindWheres, BindM.pure_eq_ok]
  constructor
  · rintro ⟨rfl, rfl⟩
    exact ⟨rfl, rfl⟩
  · rintro ⟨rfl, rfl⟩
    exact ⟨rfl, rfl⟩

theorem bindWheres_cons {e : Expr} {rest wheres' : List Expr} :
    bindWheres ctx (e :: rest) s = .ok wheres' s' ↔
      (ctx.config.rejectAggregatesInWhere = true → e.containsAggregate = false) ∧
      ∃ e' t rest', e.bind ctx false s = .ok e' t ∧ bindWheres ctx rest t = .ok rest' s' ∧
        wheres' = e' :: rest' := by
  by_cases hreject : (ctx.config.rejectAggregatesInWhere && e.containsAggregate) = true
  · simp only [bindWheres, hreject, if_true, BindM.bind_eq_ok, BindM.throw_eq_ok]
    rw [Bool.and_eq_true] at hreject
    simp [hreject.1, hreject.2]
  · simp only [bindWheres, if_neg hreject, BindM.bind_eq_ok, BindM.pure_eq_ok]
    constructor
    · rintro ⟨e', t, he, rest', _, hrest, rfl, rfl⟩
      exact ⟨by simpa using hreject, e', t, rest', he, hrest, rfl⟩
    · rintro ⟨-, e', t, rest', he, hrest, rfl⟩
      exact ⟨e', t, he, rest', s', hrest, rfl, rfl⟩

namespace Source

variable {validated : Option ValuesTable} {name : Option String} {source' : Source}

theorem bind_schema {schema : String} :
    (mk (.schema schema) name).bind ctx validated s = .ok source' s' ↔
      source' = mk (.schema schema) name ∧ s' = s := by
  simp only [bind, BindM.pure_eq_ok]
  constructor
  · rintro ⟨rfl, rfl⟩
    exact ⟨rfl, rfl⟩
  · rintro ⟨rfl, rfl⟩
    exact ⟨rfl, rfl⟩

theorem bind_table {table : String} :
    (mk (.table table) name).bind ctx validated s = .ok source' s' ↔
      source' = mk (.table table) name ∧ s' = s := by
  simp only [bind, BindM.pure_eq_ok]
  constructor
  · rintro ⟨rfl, rfl⟩
    exact ⟨rfl, rfl⟩
  · rintro ⟨rfl, rfl⟩
    exact ⟨rfl, rfl⟩

theorem bind_values {table : ValuesTable} :
    (mk (.values table) name).bind ctx validated s = .ok source' s' ↔
      source' = mk (.values { validated.getD table with firstParam := some s.nextParam }) name ∧
        s' = s.skip (validated.getD table).paramCount := by
  simp only [bind, BindM.bind_eq_ok, BindM.pure_eq_ok, ValuesTable.assign_eq_ok]
  constructor
  · rintro ⟨_, _, ⟨rfl, rfl⟩, rfl, rfl⟩
    exact ⟨rfl, rfl⟩
  · rintro ⟨rfl, rfl⟩
    exact ⟨_, _, ⟨rfl, rfl⟩, rfl, rfl⟩

theorem bind_subquery {query : Query} :
    (mk (.subquery query) name).bind ctx validated s = .ok source' s' ↔
      ∃ query', query.bind ctx s = .ok query' s' ∧ source' = mk (.subquery query') name := by
  simp only [bind, BindM.bind_eq_ok, BindM.pure_eq_ok]
  constructor
  · rintro ⟨query', _, hquery, rfl, rfl⟩
    exact ⟨query', hquery, rfl⟩
  · rintro ⟨query', hquery, rfl⟩
    exact ⟨query', s', hquery, rfl, rfl⟩

theorem bind_fragment {e : Expr} :
    (mk (.fragment e) name).bind ctx validated s = .ok source' s' ↔
      e.isFragment = true ∧ ∃ e', e.bind ctx false s = .ok e' s' ∧
        source' = mk (.fragment e') name := by
  by_cases hfragment : e.isFragment = true
  · simp only [bind, if_pos hfragment, BindM.bind_eq_ok, BindM.pure_eq_ok]
    constructor
    · rintro ⟨e', _, he, rfl, rfl⟩
      exact ⟨hfragment, e', he, rfl⟩
    · rintro ⟨-, e', he, rfl⟩
      exact ⟨e', s', he, rfl, rfl⟩
  · simp [bind, hfragment]

end Source

theorem bindJoins_nil {validated : List (Option ValuesTable)} {joins' : List Join} :
    bindJoins ctx validated [] s = .ok joins' s' ↔ joins' = [] ∧ s' = s := by
  simp only [bindJoins, BindM.pure_eq_ok]
  constructor
  · rintro ⟨rfl, rfl⟩
    exact ⟨rfl, rfl⟩
  · rintro ⟨rfl, rfl⟩
    exact ⟨rfl, rfl⟩

theorem bindJoins_cons {validated : List (Option ValuesTable)} {kind : JoinKind} {source : Source}
    {on : Option Expr} {rest joins' : List Join} :
    bindJoins ctx validated (.mk kind source on :: rest) s = .ok joins' s' ↔
      ∃ source' t on' t' rest', source.bind ctx validated.head?.join s = .ok source' t ∧
        bindOption ctx false on t = .ok on' t' ∧
        bindJoins ctx validated.tail rest t' = .ok rest' s' ∧
        joins' = .mk kind source' on' :: rest' := by
  simp only [bindJoins, BindM.bind_eq_ok, BindM.pure_eq_ok]
  constructor
  · rintro ⟨source', t, hsource, on', t', hon, rest', _, hrest, rfl, rfl⟩
    exact ⟨source', t, on', t', rest', hsource, hon, hrest, rfl⟩
  · rintro ⟨source', t, on', t', rest', hsource, hon, hrest, rfl⟩
    exact ⟨source', t, hsource, on', t', hon, rest', s', hrest, rfl, rfl⟩

/-! ### Queries -/

/-- The clauses of a query bound one after another, in the scope of its sources. -/
inductive Query.ClausesBound (ctx : Context) (validated : List (Option ValuesTable)) :
    BindState → Query → Query → BindState → Prop where
  | mk {s₀ s₁ s₂ s₃ s₄ s₅ s₆ s₇ s₈ s₉ : BindState} {source source' : Source}
      {joins joins' : List Join} {wheres wheres' : List Expr} {select select' : Option Expr}
      {groupBy groupBy' having having' : List Expr} {orderBy orderBy' : List OrderTerm}
      {limit limit' offset offset' : Option Expr} {distinct : Bool}
      (hselect : bindOption ctx true select s₀ = .ok select' s₁)
      (hsource : source.bind ctx validated.head?.join s₁ = .ok source' s₂)
      (hjoins : bindJoins ctx validated.tail joins s₂ = .ok joins' s₃)
      (hwheres : bindWheres ctx wheres s₃ = .ok wheres' s₄)
      (hgroupBy : bindAll ctx false groupBy s₄ = .ok groupBy' s₅)
      (hhaving : bindAll ctx false having s₅ = .ok having' s₆)
      (horderBy : bindTerms ctx orderBy s₆ = .ok orderBy' s₇)
      (hlimit : bindOption ctx false limit s₇ = .ok limit' s₈)
      (hoffset : bindOption ctx false offset s₈ = .ok offset' s₉) :
      Query.ClausesBound ctx validated s₀
        (.mk source joins wheres select groupBy having orderBy limit offset distinct)
        (.mk source' joins' wheres' (select'.map Expr.normalize) groupBy' having' orderBy'
          (limit'.map (Expr.withType (.builtin .integer)))
          (offset'.map (Expr.withType (.builtin .integer))) distinct) s₉

/-- The context of the clauses of a query with a scope and collected aliases. -/
def Context.inside (ctx : Context) (scope : Scope) (aliases : AliasTable) : Context :=
  { ctx with scopes := scope :: ctx.scopes, aliases := aliases }

namespace Query

variable {query query' : Query}

/--
A query is bound if it is not nested too deep, its sources can be declared, its aliases can be
collected and its clauses can be bound.
-/
theorem bind_eq_ok (h : query.bind ctx s = .ok query' s') :
    ctx.scopes.length ≤ ctx.config.maxSubqueryDepth ∧ ∃ validated scope aliases t t',
      declareSources ctx.catalog ctx.scopes .empty query.sources = (.ok validated, scope) ∧
      AliasTable.collect query.select ctx.config.allowIdenticalAliases = .ok aliases ∧
      ClausesBound (ctx.inside scope aliases) validated t query query' t' ∧
      t.nextParam = s.nextParam ∧ s'.nextParam = t'.nextParam := by
  obtain ⟨source, joins, wheres, select, groupBy, having, orderBy, limit, offset, distinct⟩ := query
  by_cases hdepth : ctx.config.maxSubqueryDepth < ctx.scopes.length
  · simp [bind, hdepth] at h
  simp only [bind, if_neg hdepth, BindM.bind_eq_ok, BindM.note_eq_ok, BindM.finallyNote_eq_ok,
    BindM.ofExcept_eq_ok, BindM.get_eq_ok, BindM.pure_eq_ok] at h
  obtain ⟨_, _, rfl, _, ⟨validated, _, ⟨hdeclared, rfl⟩, aliases, _, ⟨haliases, rfl⟩, _, _, rfl,
    select', s₁, hselect, source', s₂, hsource, joins', s₃, hjoins, wheres', s₄, hwheres,
    groupBy', s₅, hgroupBy, having', s₆, hhaving, orderBy', s₇, horderBy, limit', s₈, hlimit,
    offset', s₉, hoffset, _, t, hnotes, _, _, ⟨rfl, rfl⟩, _, _, rfl, rfl, rfl⟩, rfl⟩ := h
  refine ⟨Nat.le_of_not_lt hdepth, validated, _, aliases, _, s₉, Prod.ext hdeclared rfl, haliases,
    .mk hselect hsource hjoins hwheres hgroupBy hhaving horderBy hlimit hoffset, rfl, ?_⟩
  exact (BindM.nextParam_of_noteAll hnotes :)

end Query

end QueryCompiler
