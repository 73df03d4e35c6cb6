import QueryCompiler.Proofs.Redefinition.Stages

/-!
# Binding trees that are the same

Trees that are the same, bound where names mean the same, are bound to trees that are the same,
provided that there is nothing to number in them: no parameter and no values table.
-/

namespace QueryCompiler

mutual

theorem Expr.same_bind {ctx ctx' : Context} (hctx : ctx.Agrees ctx') {o : Bool} (e : Expr)
    {f a b : Expr} {s s' t t' : BindState} (hsame : e.same f = true)
    (ha : e.bind ctx o s = .ok a t) (hb : f.bind ctx' o s' = .ok b t') (hplain : a.carriers = []) :
    a.same b = true := by
  -- The states of the two runs are unrelated: what is bound takes no index from them.
  match e with
  | .literal v =>
    obtain ⟨w, rfl, hvw⟩ := Expr.same_literal.1 hsame
    obtain ⟨rfl, -⟩ := Expr.bind_literal.1 ha
    obtain ⟨rfl, -⟩ := Expr.bind_literal.1 hb
    exact hsame
  | .param p =>
    obtain ⟨rfl, -⟩ := Expr.bind_param.1 ha
    cases hplain
  | .field f =>
    obtain rfl := (Expr.same_reference rfl).1 hsame
    obtain ⟨-, g, hg, rfl⟩ := Expr.bind_field.1 ha
    obtain ⟨-, g', hg', rfl⟩ := Expr.bind_field.1 hb
    rw [hctx.scopes, hg] at hg'
    cases hg'
    exact (Expr.same_reference rfl).2 rfl
  | .binding r =>
    obtain rfl := (Expr.same_reference rfl).1 hsame
    obtain ⟨-, _, _, hslot, rfl⟩ := Expr.bind_binding.1 ha
    obtain ⟨-, _, _, hslot', rfl⟩ := Expr.bind_binding.1 hb
    rw [hctx.scopes, hslot] at hslot'
    cases hslot'
    exact (Expr.same_reference rfl).2 rfl
  | .parentBinding r =>
    obtain rfl := (Expr.same_reference rfl).1 hsame
    obtain ⟨-, _, _, hslot, rfl⟩ := Expr.bind_parentBinding.1 ha
    obtain ⟨-, _, _, hslot', rfl⟩ := Expr.bind_parentBinding.1 hb
    rw [hctx.scopes, hslot] at hslot'
    cases hslot'
    exact (Expr.same_reference rfl).2 rfl
  | .operator op operands =>
    obtain ⟨_, rfl, hoperands⟩ := Expr.same_operator.1 hsame
    obtain ⟨-, _, hbind, rfl⟩ := Expr.bind_operator.1 ha
    obtain ⟨-, _, hbind', rfl⟩ := Expr.bind_operator.1 hb
    have hplain := carriers_of_propagateTypes hplain
    have hbound := same_bindAll hctx operands hoperands hbind hbind' hplain
    exact Expr.same_operator.2 ⟨_, rfl, same_propagateTypes hbound hplain op⟩
  | .aggregate kind args distinct filter =>
    obtain ⟨_, _, rfl, hargs, hfilter⟩ := Expr.same_aggregate.1 hsame
    obtain ⟨-, _, _, _, hbindArgs, hbindFilter, rfl⟩ := Expr.bind_aggregate.1 ha
    obtain ⟨-, _, _, _, hbindArgs', hbindFilter', rfl⟩ := Expr.bind_aggregate.1 hb
    obtain ⟨hplainArgs, hplainFilter⟩ := List.append_eq_nil_iff.1 hplain
    exact Expr.same_aggregate.2 ⟨_, _, rfl,
      same_bindAll hctx args hargs hbindArgs hbindArgs' hplainArgs,
      same_bindOption hctx filter hfilter hbindFilter hbindFilter' hplainFilter⟩
  | .fragment text parts args =>
    obtain ⟨_, rfl, hargs⟩ := Expr.same_fragment.1 hsame
    obtain ⟨_, _, hprocess, hbind, rfl⟩ := Expr.bind_fragment.1 ha
    obtain ⟨_, _, hprocess', hbind', rfl⟩ := Expr.bind_fragment.1 hb
    obtain ⟨-, hfault, rfl⟩ := process_eq_ok.1 hprocess
    obtain ⟨-, -, rfl⟩ := process_eq_ok.1 hprocess'
    have hfaults := firstFault_eq_none.1 hfault
    exact Expr.same_fragment.2
      ⟨_, rfl, same_bindArgs hctx args hfaults hargs hbind hbind' hplain⟩
  | .cast value target resolved =>
    obtain ⟨_, rfl, hvalue⟩ := Expr.same_cast.1 hsame
    obtain ⟨_, _, _, hbind, -, htarget, rfl⟩ := Expr.bind_cast.1 ha
    obtain ⟨_, _, _, hbind', -, htarget', rfl⟩ := Expr.bind_cast.1 hb
    rw [hctx.scopes, htarget] at htarget'
    cases htarget'
    have hplain := carriers_of_withCastType hplain
    have hbound := Expr.same_bind hctx value hvalue hbind hbind' hplain
    exact Expr.same_cast.2 ⟨_, rfl, same_withCastType hbound hplain _⟩
  | .subquery kind query =>
    obtain ⟨_, rfl, hquery⟩ := Expr.same_subquery.1 hsame
    obtain ⟨_, hbind, rfl⟩ := Expr.bind_subquery.1 ha
    obtain ⟨_, hbind', rfl⟩ := Expr.bind_subquery.1 hb
    exact Expr.same_subquery.2 ⟨_, rfl, Query.same_bind hctx query hquery hbind hbind' hplain⟩
  | .values table =>
    obtain ⟨_, -, rfl, -⟩ := Expr.bind_values.1 ha
    cases hplain
  | .projection kind p =>
    obtain rfl := (Expr.same_reference rfl).1 hsame
    obtain ⟨_, hbind, rfl⟩ := Expr.bind_projection.1 ha
    obtain ⟨_, hbind', rfl⟩ := Expr.bind_projection.1 hb
    obtain ⟨-, _, _, hslot, -, rfl⟩ := Projection.bind_eq_ok hbind
    obtain ⟨-, _, _, hslot', -, rfl⟩ := Projection.bind_eq_ok hbind'
    rw [hctx.scopes, hslot] at hslot'
    cases hslot'
    exact (Expr.same_reference rfl).2 rfl
  | .merge left right =>
    obtain ⟨_, _, rfl, hleft, hright⟩ := Expr.same_merge.1 hsame
    obtain ⟨_, _, _, hbindLeft, hbindRight, rfl⟩ := Expr.bind_merge.1 ha
    obtain ⟨_, _, _, hbindLeft', hbindRight', rfl⟩ := Expr.bind_merge.1 hb
    obtain ⟨hplainLeft, hplainRight⟩ := List.append_eq_nil_iff.1 hplain
    exact Expr.same_merge.2 ⟨_, _, rfl,
      Expr.same_bind hctx left hleft hbindLeft hbindLeft' hplainLeft,
      Expr.same_bind hctx right hright hbindRight hbindRight' hplainRight⟩
  | .aliased value name =>
    obtain ⟨_, rfl, hvalue⟩ := Expr.same_aliased.1 hsame
    obtain ⟨-, _, hbind, rfl⟩ := Expr.bind_aliased.1 ha
    obtain ⟨-, _, hbind', rfl⟩ := Expr.bind_aliased.1 hb
    exact Expr.same_aliased.2 ⟨_, rfl, Expr.same_bind hctx value hvalue hbind hbind' hplain⟩
  | .aliasRef name =>
    obtain rfl := (Expr.same_reference rfl).1 hsame
    obtain ⟨-, rfl, -⟩ := Expr.bind_aliasRef.1 ha
    obtain ⟨-, rfl, -⟩ := Expr.bind_aliasRef.1 hb
    exact hsame
  | .jsonPath base path =>
    obtain ⟨_, _, rfl, hbase, hpath⟩ := Expr.same_jsonPath.1 hsame
    obtain ⟨_, _, _, _, hbindBase, hbindPath, rfl⟩ := Expr.bind_jsonPath.1 ha
    obtain ⟨_, _, _, _, hbindBase', hbindPath', rfl⟩ := Expr.bind_jsonPath.1 hb
    obtain ⟨-, hplainPath⟩ := List.append_eq_nil_iff.1 hplain
    rw [carriersPath_append, List.append_eq_nil_iff] at hplainPath
    obtain ⟨hsameBase, hsameSteps⟩ :=
      Expr.same_bindAccess hctx base hbase hbindBase hbindBase' hplainPath.1
    exact Expr.same_jsonPath.2 ⟨_, _, rfl, hsameBase, samePath_append hsameSteps
      (same_bindPath hctx path hpath hbindPath hbindPath' hplainPath.2)⟩
  | .interval count unit =>
    obtain ⟨_, rfl, hcount⟩ := Expr.same_interval.1 hsame
    obtain ⟨_, hbind, rfl⟩ := Expr.bind_interval.1 ha
    obtain ⟨_, hbind', rfl⟩ := Expr.bind_interval.1 hb
    have hplain := carriers_of_withType hplain
    have hbound := Expr.same_bind hctx count hcount hbind hbind' hplain
    exact Expr.same_interval.2 ⟨_, rfl, same_withType hbound hplain _⟩
  | .tuple items =>
    obtain ⟨_, rfl, hitems⟩ := Expr.same_tuple.1 hsame
    obtain ⟨_, hbind, rfl⟩ := Expr.bind_tuple.1 ha
    obtain ⟨_, hbind', rfl⟩ := Expr.bind_tuple.1 hb
    exact Expr.same_tuple.2 ⟨_, rfl, same_bindAll hctx items hitems hbind hbind' hplain⟩
  | .mapping entries =>
    obtain ⟨_, rfl, hentries⟩ := Expr.same_mapping.1 hsame
    obtain ⟨_, hbind, rfl⟩ := Expr.bind_mapping.1 ha
    obtain ⟨_, hbind', rfl⟩ := Expr.bind_mapping.1 hb
    exact Expr.same_mapping.2 ⟨_, rfl, same_bindEntries hctx entries hentries hbind hbind' hplain⟩
termination_by structural e

theorem Expr.same_bindAccess {ctx ctx' : Context} (hctx : ctx.Agrees ctx') (e : Expr)
    {f a b : Expr} {steps steps' : List PathStep} {s s' t t' : BindState}
    (hsame : e.same f = true) (ha : e.bindAccess ctx s = .ok (a, steps) t)
    (hb : f.bindAccess ctx' s' = .ok (b, steps') t') (hplain : carriersPath steps = []) :
    a.same b = true ∧ samePath steps steps' = true := by
  match e with
  | .field f =>
    obtain rfl := (Expr.same_reference rfl).1 hsame
    obtain ⟨-, g, hg, heq⟩ := Expr.bindAccess_field.1 ha
    obtain ⟨-, g', hg', heq'⟩ := Expr.bindAccess_field.1 hb
    rw [hctx.scopes, hg] at hg'
    cases hg'
    cases heq
    cases heq'
    exact ⟨(Expr.same_reference rfl).2 rfl, samePath_nil.2 rfl⟩
  | .jsonPath base path =>
    obtain ⟨_, _, rfl, hbase, hpath⟩ := Expr.same_jsonPath.1 hsame
    obtain ⟨_, _, _, _, hbindBase, hbindPath, heq⟩ := Expr.bindAccess_jsonPath.1 ha
    obtain ⟨_, _, _, _, hbindBase', hbindPath', heq'⟩ := Expr.bindAccess_jsonPath.1 hb
    cases heq
    cases heq'
    rw [carriersPath_append, List.append_eq_nil_iff] at hplain
    obtain ⟨hsameBase, hsameSteps⟩ :=
      Expr.same_bindAccess hctx base hbase hbindBase hbindBase' hplain.1
    exact ⟨hsameBase, samePath_append hsameSteps
      (same_bindPath hctx path hpath hbindPath hbindPath' hplain.2)⟩
  | .literal _ | .param _ | .binding _ | .parentBinding _ | .operator _ _ | .aggregate _ _ _ _
  | .fragment _ _ _ | .cast _ _ _ | .subquery _ _ | .values _ | .projection _ _ | .merge _ _
  | .aliased _ _ | .aliasRef _ | .interval _ _ | .tuple _ | .mapping _ =>
    simp [Expr.bindAccess] at ha
termination_by structural e

theorem same_bindAll {ctx ctx' : Context} (hctx : ctx.Agrees ctx') {o : Bool} (es : List Expr)
    {fs as bs : List Expr} {s s' t t' : BindState} (hsame : sameExprs es fs = true)
    (ha : bindAll ctx o es s = .ok as t) (hb : bindAll ctx' o fs s' = .ok bs t')
    (hplain : carriersAll as = []) : sameExprs as bs = true := by
  match es with
  | [] =>
    obtain rfl := sameExprs_nil.1 hsame
    obtain ⟨rfl, -⟩ := bindAll_nil.1 ha
    obtain ⟨rfl, -⟩ := bindAll_nil.1 hb
    exact hsame
  | e :: rest =>
    obtain ⟨_, _, rfl, he, hrest⟩ := sameExprs_cons.1 hsame
    obtain ⟨_, _, _, hbind, hbindRest, rfl⟩ := bindAll_cons.1 ha
    obtain ⟨_, _, _, hbind', hbindRest', rfl⟩ := bindAll_cons.1 hb
    obtain ⟨hplainFirst, hplainRest⟩ := List.append_eq_nil_iff.1 hplain
    exact sameExprs_cons.2 ⟨_, _, rfl, Expr.same_bind hctx e he hbind hbind' hplainFirst,
      same_bindAll hctx rest hrest hbindRest hbindRest' hplainRest⟩
termination_by structural es

theorem same_bindEntries {ctx ctx' : Context} (hctx : ctx.Agrees ctx') {o : Bool}
    (entries : List (String × Expr)) {fs as bs : List (String × Expr)} {s s' t t' : BindState}
    (hsame : sameMapping entries fs = true) (ha : bindEntries ctx o entries s = .ok as t)
    (hb : bindEntries ctx' o fs s' = .ok bs t') (hplain : carriersEntries as = []) :
    sameMapping as bs = true := by
  match entries with
  | [] =>
    obtain rfl := sameMapping_nil.1 hsame
    obtain ⟨rfl, -⟩ := bindEntries_nil.1 ha
    obtain ⟨rfl, -⟩ := bindEntries_nil.1 hb
    exact hsame
  | (key, e) :: rest =>
    obtain ⟨_, _, rfl, he, hrest⟩ := sameMapping_cons.1 hsame
    obtain ⟨_, _, _, hbind, hbindRest, rfl⟩ := bindEntries_cons.1 ha
    obtain ⟨_, _, _, hbind', hbindRest', rfl⟩ := bindEntries_cons.1 hb
    obtain ⟨hplainFirst, hplainRest⟩ := List.append_eq_nil_iff.1 hplain
    exact sameMapping_cons.2 ⟨_, _, rfl, Expr.same_bind hctx e he hbind hbind' hplainFirst,
      same_bindEntries hctx rest hrest hbindRest hbindRest' hplainRest⟩
termination_by structural entries

theorem same_bindOption {ctx ctx' : Context} (hctx : ctx.Agrees ctx') {o : Bool}
    (e : Option Expr) {f a b : Option Expr} {s s' t t' : BindState}
    (hsame : sameOption e f = true) (ha : bindOption ctx o e s = .ok a t)
    (hb : bindOption ctx' o f s' = .ok b t') (hplain : carriersOption a = []) :
    sameOption a b = true := by
  match e with
  | none =>
    obtain rfl := sameOption_none.1 hsame
    obtain ⟨rfl, -⟩ := bindOption_none.1 ha
    obtain ⟨rfl, -⟩ := bindOption_none.1 hb
    exact hsame
  | some e =>
    obtain ⟨_, rfl, he⟩ := sameOption_some.1 hsame
    obtain ⟨_, hbind, rfl⟩ := bindOption_some.1 ha
    obtain ⟨_, hbind', rfl⟩ := bindOption_some.1 hb
    exact sameOption_some.2 ⟨_, rfl, Expr.same_bind hctx e he hbind hbind' hplain⟩
termination_by structural e

theorem same_bindArgs {ctx ctx' : Context} (hctx : ctx.Agrees ctx') (args : List FragmentArg)
    {fs as bs : List FragmentArg} {s s' t t' : BindState}
    (hfaults : ∀ arg ∈ args, arg.fault? = none) (hsame : sameArgs args fs = true)
    (ha : bindArgs ctx args s = .ok as t) (hb : bindArgs ctx' fs s' = .ok bs t')
    (hplain : carriersArgs as = []) : sameArgs as bs = true := by
  match args with
  | [] =>
    obtain rfl := sameArgs_nil.1 hsame
    obtain ⟨rfl, -⟩ := bindArgs_nil.1 ha
    obtain ⟨rfl, -⟩ := bindArgs_nil.1 hb
    exact hsame
  | .mk role e :: rest =>
    rw [List.forall_mem_cons] at hfaults
    obtain ⟨_, _, rfl, he, hrest⟩ := sameArgs_cons.1 hsame
    by_cases hrole : role = .parameter
    · obtain rfl := hrole
      obtain ⟨_, _, _, hbind, hbindRest, rfl⟩ := bindArgs_parameter.1 ha
      obtain ⟨_, _, _, hbind', hbindRest', rfl⟩ := bindArgs_parameter.1 hb
      obtain ⟨hplainFirst, hplainRest⟩ := List.append_eq_nil_iff.1 hplain
      exact sameArgs_cons.2 ⟨_, _, rfl, Expr.same_bind hctx e he hbind hbind' hplainFirst,
        same_bindArgs hctx rest hfaults.2 hrest hbindRest hbindRest' hplainRest⟩
    · obtain ⟨_, _, _, hassign, hbindRest, rfl⟩ := (bindArgs_other hrole).1 ha
      obtain ⟨_, _, _, hassign', hbindRest', rfl⟩ := (bindArgs_other hrole).1 hb
      rw [carriersArgs_cons, List.append_eq_nil_iff] at hplain
      obtain ⟨v, w, rfl, rfl, hvw⟩ :=
        same_assign hrole he hfaults.1 hassign hassign' hplain.1
      exact sameArgs_cons.2 ⟨_, _, rfl, Expr.same_literal.2 ⟨w, rfl, hvw⟩,
        same_bindArgs hctx rest hfaults.2 hrest hbindRest hbindRest' hplain.2⟩
termination_by structural args

theorem same_bindPath {ctx ctx' : Context} (hctx : ctx.Agrees ctx') (path : List PathStep)
    {fs as bs : List PathStep} {s s' t t' : BindState} (hsame : samePath path fs = true)
    (ha : bindPath ctx path s = .ok as t) (hb : bindPath ctx' fs s' = .ok bs t')
    (hplain : carriersPath as = []) : samePath as bs = true := by
  match path with
  | [] =>
    obtain rfl := samePath_nil.1 hsame
    obtain ⟨rfl, -⟩ := bindPath_nil.1 ha
    obtain ⟨rfl, -⟩ := bindPath_nil.1 hb
    exact hsame
  | .computed e :: rest =>
    obtain ⟨_, _, rfl, he, hrest⟩ := samePath_computed.1 hsame
    obtain ⟨_, _, _, hbind, hbindRest, rfl⟩ := bindPath_computed.1 ha
    obtain ⟨_, _, _, hbind', hbindRest', rfl⟩ := bindPath_computed.1 hb
    obtain ⟨hplainFirst, hplainRest⟩ := List.append_eq_nil_iff.1 hplain
    exact samePath_computed.2 ⟨_, _, rfl, Expr.same_bind hctx e he hbind hbind' hplainFirst,
      same_bindPath hctx rest hrest hbindRest hbindRest' hplainRest⟩
  | .key name :: rest =>
    obtain ⟨_, rfl, hrest⟩ := samePath_key.1 hsame
    obtain ⟨_, hbindRest, rfl⟩ := bindPath_key.1 ha
    obtain ⟨_, hbindRest', rfl⟩ := bindPath_key.1 hb
    exact samePath_key.2 ⟨_, rfl, same_bindPath hctx rest hrest hbindRest hbindRest' hplain⟩
  | .index i :: rest =>
    obtain ⟨_, rfl, hrest⟩ := samePath_index.1 hsame
    obtain ⟨_, hbindRest, rfl⟩ := bindPath_index.1 ha
    obtain ⟨_, hbindRest', rfl⟩ := bindPath_index.1 hb
    exact samePath_index.2 ⟨_, rfl, same_bindPath hctx rest hrest hbindRest hbindRest' hplain⟩
termination_by structural path

theorem same_bindWheres {ctx ctx' : Context} (hctx : ctx.Agrees ctx') (wheres : List Expr)
    {fs as bs : List Expr} {s s' t t' : BindState} (hsame : sameExprs wheres fs = true)
    (ha : bindWheres ctx wheres s = .ok as t) (hb : bindWheres ctx' fs s' = .ok bs t')
    (hplain : carriersAll as = []) : sameExprs as bs = true := by
  match wheres with
  | [] =>
    obtain rfl := sameExprs_nil.1 hsame
    obtain ⟨rfl, -⟩ := bindWheres_nil.1 ha
    obtain ⟨rfl, -⟩ := bindWheres_nil.1 hb
    exact hsame
  | e :: rest =>
    obtain ⟨_, _, rfl, he, hrest⟩ := sameExprs_cons.1 hsame
    obtain ⟨-, _, _, _, hbind, hbindRest, rfl⟩ := bindWheres_cons.1 ha
    obtain ⟨-, _, _, _, hbind', hbindRest', rfl⟩ := bindWheres_cons.1 hb
    obtain ⟨hplainFirst, hplainRest⟩ := List.append_eq_nil_iff.1 hplain
    exact sameExprs_cons.2 ⟨_, _, rfl, Expr.same_bind hctx e he hbind hbind' hplainFirst,
      same_bindWheres hctx rest hrest hbindRest hbindRest' hplainRest⟩
termination_by structural wheres

theorem same_bindTerms {ctx ctx' : Context} (hctx : ctx.Agrees ctx') (terms : List OrderTerm)
    {fs as bs : List OrderTerm} {s s' t t' : BindState} (hsame : sameTerms terms fs = true)
    (ha : bindTerms ctx terms s = .ok as t) (hb : bindTerms ctx' fs s' = .ok bs t')
    (hplain : carriersTerms as = []) : sameTerms as bs = true := by
  match terms with
  | [] =>
    obtain rfl := sameTerms_nil.1 hsame
    obtain ⟨rfl, -⟩ := bindTerms_nil.1 ha
    obtain ⟨rfl, -⟩ := bindTerms_nil.1 hb
    exact hsame
  | .mk e direction :: rest =>
    obtain ⟨_, _, rfl, he, hrest⟩ := sameTerms_cons.1 hsame
    obtain ⟨_, _, _, hbind, hbindRest, rfl⟩ := bindTerms_cons.1 ha
    obtain ⟨_, _, _, hbind', hbindRest', rfl⟩ := bindTerms_cons.1 hb
    obtain ⟨hplainFirst, hplainRest⟩ := List.append_eq_nil_iff.1 hplain
    exact sameTerms_cons.2 ⟨_, _, rfl, Expr.same_bind hctx e he hbind hbind' hplainFirst,
      same_bindTerms hctx rest hrest hbindRest hbindRest' hplainRest⟩
termination_by structural terms

theorem Source.same_bind {ctx ctx' : Context} (hctx : ctx.Agrees ctx')
    {table table' : Option ValuesTable} (source : Source) {other a b : Source}
    {s s' t t' : BindState} (hsame : source.same other = true)
    (ha : source.bind ctx table s = .ok a t) (hb : other.bind ctx' table' s' = .ok b t')
    (hplain : a.carriers = []) : a.same b = true := by
  match source with
  | .mk (.schema schema) name =>
    obtain ⟨_, rfl, horigin⟩ := Source.same_mk.1 hsame
    obtain rfl := Origin.same_schema.1 horigin
    obtain ⟨rfl, -⟩ := Source.bind_schema.1 ha
    obtain ⟨rfl, -⟩ := Source.bind_schema.1 hb
    exact hsame
  | .mk (.table table) name =>
    obtain ⟨_, rfl, horigin⟩ := Source.same_mk.1 hsame
    obtain rfl := Origin.same_table.1 horigin
    obtain ⟨rfl, -⟩ := Source.bind_table.1 ha
    obtain ⟨rfl, -⟩ := Source.bind_table.1 hb
    exact hsame
  | .mk (.values declared) name =>
    obtain ⟨rfl, -⟩ := Source.bind_values.1 ha
    cases hplain
  | .mk (.subquery query) name =>
    obtain ⟨_, rfl, horigin⟩ := Source.same_mk.1 hsame
    obtain ⟨_, rfl, hquery⟩ := Origin.same_subquery.1 horigin
    obtain ⟨_, hbind, rfl⟩ := Source.bind_subquery.1 ha
    obtain ⟨_, hbind', rfl⟩ := Source.bind_subquery.1 hb
    have hbound := Query.same_bind hctx query hquery hbind hbind' hplain
    exact Source.same_mk.2 ⟨_, rfl, Origin.same_subquery.2 ⟨_, rfl, hbound⟩⟩
  | .mk (.fragment e) name =>
    obtain ⟨_, rfl, horigin⟩ := Source.same_mk.1 hsame
    obtain ⟨_, rfl, he⟩ := Origin.same_fragment.1 horigin
    obtain ⟨-, _, hbind, rfl⟩ := Source.bind_fragment.1 ha
    obtain ⟨-, _, hbind', rfl⟩ := Source.bind_fragment.1 hb
    have hbound := Expr.same_bind hctx e he hbind hbind' hplain
    exact Source.same_mk.2 ⟨_, rfl, Origin.same_fragment.2 ⟨_, rfl, hbound⟩⟩
termination_by structural source

theorem same_bindJoins {ctx ctx' : Context} (hctx : ctx.Agrees ctx')
    {tables tables' : List (Option ValuesTable)} (joins : List Join) {fs as bs : List Join}
    {s s' t t' : BindState} (hsame : sameJoins joins fs = true)
    (ha : bindJoins ctx tables joins s = .ok as t) (hb : bindJoins ctx' tables' fs s' = .ok bs t')
    (hplain : carriersJoins as = []) : sameJoins as bs = true := by
  match joins with
  | [] =>
    obtain rfl := sameJoins_nil.1 hsame
    obtain ⟨rfl, -⟩ := bindJoins_nil.1 ha
    obtain ⟨rfl, -⟩ := bindJoins_nil.1 hb
    exact hsame
  | .mk kind source on :: rest =>
    obtain ⟨_, _, _, rfl, hsource, hon, hrest⟩ := sameJoins_cons.1 hsame
    obtain ⟨_, _, _, _, _, hbindSource, hbindOn, hbindRest, rfl⟩ := bindJoins_cons.1 ha
    obtain ⟨_, _, _, _, _, hbindSource', hbindOn', hbindRest', rfl⟩ := bindJoins_cons.1 hb
    simp only [carriersJoins, List.append_eq_nil_iff] at hplain
    exact sameJoins_cons.2 ⟨_, _, _, rfl,
      Source.same_bind hctx source hsource hbindSource hbindSource' hplain.1.1,
      same_bindOption hctx on hon hbindOn hbindOn' hplain.1.2,
      same_bindJoins hctx rest hrest hbindRest hbindRest' hplain.2⟩
termination_by structural joins

theorem Query.same_bind {ctx ctx' : Context} (hctx : ctx.Agrees ctx') (query : Query)
    {other a b : Query} {s s' t t' : BindState} (hsame : query.same other = true)
    (ha : query.bind ctx s = .ok a t) (hb : other.bind ctx' s' = .ok b t')
    (hplain : a.carriers = []) : a.same b = true := by
  obtain ⟨-, tables, scope, aliases, _, _, hdeclared, -, hclauses, -, -⟩ := Query.bind_eq_ok ha
  obtain ⟨-, tables', scope', aliases', _, _, hdeclared', -, hclauses', -, -⟩ :=
    Query.bind_eq_ok hb
  match query, other with
  | .mk source joins wheres select groupBy having orderBy limit offset distinct, .mk .. =>
    simp only [Query.same, Bool.and_eq_true, beq_iff_eq] at hsame
    obtain ⟨⟨⟨⟨⟨⟨⟨⟨⟨hsource, hjoins⟩, hwheres⟩, hselect⟩, hgroupBy⟩, hhaving⟩, horderBy⟩, hlimit⟩,
      hoffset⟩, rfl⟩ := hsame
    cases hclauses with
    | mk hbindSelect hbindSource hbindJoins hbindWheres hbindGroupBy hbindHaving hbindOrderBy
        hbindLimit hbindOffset =>
      cases hclauses' with
      | mk hbindSelect' hbindSource' hbindJoins' hbindWheres' hbindGroupBy' hbindHaving'
          hbindOrderBy' hbindLimit' hbindOffset' =>
        simp only [Query.carriers, List.append_eq_nil_iff] at hplain
        obtain ⟨⟨⟨⟨⟨⟨⟨⟨hplainSelect, hplainSource⟩, hplainJoins⟩, hplainWheres⟩, hplainGroupBy⟩,
          hplainHaving⟩, hplainOrderBy⟩, hplainLimit⟩, hplainOffset⟩ := hplain
        have hplainSelect := carriersOption_of_normalize hplainSelect
        have hplainLimit := carriersOption_of_withType hplainLimit
        have hplainOffset := carriersOption_of_withType hplainOffset
        -- without values tables among the sources, both queries have the same scope
        have hscope : scope' = scope := by
          have heq := declareSources_of_same ctx.catalog ctx.scopes .empty
            (.cons hsource (sources_of_sameJoins hjoins))
            (List.forall_mem_cons.2 ⟨table?_of_bind hbindSource hplainSource,
              table?_of_bindJoins hbindJoins hplainJoins⟩)
          rw [hctx.catalog, hctx.scopes] at hdeclared'
          have hpair := hdeclared'.symm.trans (heq.trans hdeclared)
          exact (Prod.mk.inj hpair).2
        obtain rfl := hscope
        have hinside : (ctx.inside scope' aliases).Agrees (ctx'.inside scope' aliases') :=
          ⟨hctx.catalog, congrArg (scope' :: ·) hctx.scopes⟩
        have hsource := Source.same_bind hinside source hsource hbindSource hbindSource'
          hplainSource
        have hselect := same_bindOption hinside select hselect hbindSelect hbindSelect' hplainSelect
        have hlimit := same_bindOption hinside limit hlimit hbindLimit hbindLimit' hplainLimit
        have hoffset := same_bindOption hinside offset hoffset hbindOffset hbindOffset' hplainOffset
        simp only [Query.same, Bool.and_eq_true, beq_iff_eq]
        exact ⟨⟨⟨⟨⟨⟨⟨⟨⟨hsource,
          same_bindJoins hinside joins hjoins hbindJoins hbindJoins' hplainJoins⟩,
          same_bindWheres hinside wheres hwheres hbindWheres hbindWheres' hplainWheres⟩,
          sameOption_normalize hselect⟩,
          same_bindAll hinside groupBy hgroupBy hbindGroupBy hbindGroupBy' hplainGroupBy⟩,
          same_bindAll hinside having hhaving hbindHaving hbindHaving' hplainHaving⟩,
          same_bindTerms hinside orderBy horderBy hbindOrderBy hbindOrderBy' hplainOrderBy⟩,
          sameOption_withType hlimit hplainLimit _⟩, sameOption_withType hoffset hplainOffset _⟩,
          trivial⟩
termination_by structural query

end

end QueryCompiler
