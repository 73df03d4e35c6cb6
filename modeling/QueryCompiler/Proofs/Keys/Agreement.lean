import QueryCompiler.Proofs.Binding.Scopes
import QueryCompiler.Proofs.Keys.Alike

/-!
# Alike trees at one place

Trees that are alike and settled at one place from one index on are the same up to erasure, and take
equally many indices. What shapes leave out is determined by the place: slots and storage by the
scopes, the indices of values tables by the order of binding, and the kind of an aggregate by the
number of its arguments.
-/

namespace QueryCompiler

/-- Places with the same catalog and the same scopes. -/
structure Place.Agrees (place place' : Place) : Prop where
  catalog : place.catalog = place'.catalog
  scopes : place.scopes = place'.scopes

theorem Place.Agrees.inside {place place' : Place} (h : place.Agrees place') (scope : Scope)
    (select select' : Option Expr) :
    (place.inside scope select).Agrees (place'.inside scope select') :=
  ⟨h.catalog, congrArg (scope :: ·) h.scopes⟩

/-! ### References -/

/-- A bound field is determined by its source and its name. -/
theorem field_eq_of_bindField {scopes : ScopeStack} {f g : FieldRef}
    (hf : scopes.bindField f = .ok f) (hg : scopes.bindField g = .ok g)
    (hsource : f.source = g.source) (hname : f.name = g.name) : f = g := by
  have hbind : scopes.bindField f = scopes.bindField g := by
    rw [ScopeStack.bindField, ScopeStack.bindField, hsource, hname]
  rw [hf, hg] at hbind
  exact Except.ok.inj hbind

/-! ### Values tables -/

/-- An erased row is determined by its fields. -/
theorem Row.erase_eq {row row' : Row} (h : row.keys = row'.keys) : row.erase = row'.erase := by
  have hentries (row : Row) : row.erase.entries = row.keys.map fun key => (key, .null) := by
    rw [SortedMap.keys, List.map_map]
    rfl
  refine SortedMap.ext ?_
  rw [hentries, hentries, h]

theorem ValuesTable.Alike.erase_eq {table table' : ValuesTable} (h : table.Alike table')
    (hregular : table.Regular) (hregular' : table'.Regular) {k : Nat}
    (hindex : table.firstParam = some k) (hindex' : table'.firstParam = some k) :
    table.erase = table'.erase ∧ table.paramCount = table'.paramCount := by
  have hrows : table.rows.map Row.erase = table'.rows.map Row.erase := by
    refine List.ext_getElem (by rw [List.length_map, List.length_map, h.rows]) ?_
    intro i hi hi'
    rw [List.getElem_map, List.getElem_map]
    refine Row.erase_eq ?_
    rw [hregular.2 _ (List.getElem_mem _), hregular'.2 _ (List.getElem_mem _), h.resolved]
  refine ⟨?_, ?_⟩
  · rw [ValuesTable.erase, ValuesTable.erase, hrows, h.resolved, hindex, hindex']
  · rw [ValuesTable.paramCount, ValuesTable.paramCount, hregular.fieldNames_eq,
      hregular'.fieldNames_eq, h.rows, h.resolved]

/-! ### Sources -/

section Declaration

variable {catalog : Catalog} {outer scopes : ScopeStack}

/-- A table that declaring leaves as it is shows the types that it has. -/
theorem shape_of_declare_values {table : ValuesTable} {name : Option String} {shape : SourceShape}
    (h : (Source.mk (.values table) name).declare catalog scopes = .ok (shape, some table)) :
    shape = .values table.resolved := by
  rw [Source.declare] at h
  split at h
  · cases h
    rfl
  · cases h

/-- Sources that are alike show the same. -/
theorem Source.Alike.declare_eq {source source' : Source}
    (h : source.Alike source') {shape shape' : SourceShape}
    (hdeclare : source.declare catalog scopes = .ok (shape, source.table?))
    (hdeclare' : source'.declare catalog scopes = .ok (shape', source'.table?)) :
    source.name = source'.name ∧ shape = shape' := by
  obtain ⟨origin⟩ := h
  refine ⟨rfl, ?_⟩
  cases origin with
  | schema =>
    rw [hdeclare] at hdeclare'
    cases hdeclare'
    rfl
  | table =>
    cases hdeclare
    cases hdeclare'
    rfl
  | values htable =>
    rw [shape_of_declare_values hdeclare, shape_of_declare_values hdeclare', htable.resolved]
  | subquery _ =>
    cases hdeclare
    cases hdeclare'
    rfl
  | fragment _ =>
    cases hdeclare
    cases hdeclare'
    rfl

/-- Declaring sources that are alike leads to the same scope for what comes after them. -/
theorem Source.Alike.declared {source source' : Source} (h : source.Alike source')
    {rest rest' : List Source} {scope scope₁ scope₂ : Scope}
    (h₁ : declareSources catalog outer scope (source :: rest) =
      (.ok ((source :: rest).map Source.table?), scope₁))
    (h₂ : declareSources catalog outer scope (source' :: rest') =
      (.ok ((source' :: rest').map Source.table?), scope₂)) :
    ∃ next, declareSources catalog outer next rest = (.ok (rest.map Source.table?), scope₁) ∧
      declareSources catalog outer next rest' = (.ok (rest'.map Source.table?), scope₂) := by
  obtain ⟨shape, table, next, tables, hdeclare, hadd, hrest, heq⟩ := declareSources_cons_eq_ok.1 h₁
  obtain ⟨shape', table', next', tables', hdeclare', hadd', hrest', heq'⟩ :=
    declareSources_cons_eq_ok.1 h₂
  cases heq
  cases heq'
  obtain ⟨hname, rfl⟩ := h.declare_eq hdeclare hdeclare'
  rw [hname] at hadd
  rw [hadd] at hadd'
  cases hadd'
  exact ⟨next, hrest, hrest'⟩

theorem AlikeJoins.scope_eq {joins joins' : List Join} (h : AlikeJoins joins joins')
    {scope scope₁ scope₂ : Scope}
    (h₁ : declareSources catalog outer scope (joins.map Join.source) =
      (.ok ((joins.map Join.source).map Source.table?), scope₁))
    (h₂ : declareSources catalog outer scope (joins'.map Join.source) =
      (.ok ((joins'.map Join.source).map Source.table?), scope₂)) : scope₁ = scope₂ := by
  match joins, joins', h with
  | [], [], .nil =>
    cases h₁
    cases h₂
    rfl
  | .mk kind source on :: rest, .mk _ source' on' :: rest', .cons hsource _ hrest =>
    obtain ⟨next, hnext, hnext'⟩ := hsource.declared h₁ h₂
    exact hrest.scope_eq hnext hnext'

end Declaration

/-! ### The induction -/

theorem AlikeAll.length_eq {es es' : List Expr} (h : AlikeAll es es') : es.length = es'.length := by
  match es, es', h with
  | [], [], .nil => rfl
  | _ :: _, _ :: _, .cons _ hrest => rw [List.length_cons, List.length_cons, hrest.length_eq]

/-- Aggregates of one name with equally many arguments are of one kind. -/
theorem aggregateKind_eq {kind kind' : AggregateKind} (hname : kind.name = kind'.name)
    {args args' : List Expr} (hargs : args.length = args'.length)
    (hcheck : checkArguments kind args = .ok ()) (hcheck' : checkArguments kind' args' = .ok ()) :
    kind = kind' := by
  have hcount {kind : AggregateKind} {args : List Expr}
      (hcheck : checkArguments kind args = .ok ()) : args.length = kind.arity := by
    rw [checkArguments] at hcheck
    split at hcheck
    · cases hcheck
    · rename_i heq
      exact Decidable.not_not.1 heq
  have hinj : ∀ kind kind' : AggregateKind, kind.name = kind'.name → kind.arity = kind'.arity →
      kind = kind' := by
    intro kind kind'
    cases kind <;> cases kind' <;> decide
  refine hinj kind kind' hname ?_
  rw [← hcount hcheck, ← hcount hcheck', hargs]

mutual

theorem Expr.Alike.erase_eq {place place' : Place} (hagrees : place.Agrees place') {o o' : Bool}
    {k l l' : Nat} {e e' : Expr} (h : e.Alike e') (he : e.Settled place o k l)
    (he' : e'.Settled place' o' k l') : e.erase = e'.erase ∧ l = l' := by
  match e with
  | .literal v =>
    cases h with
    | literal =>
      cases he
      cases he'
      exact ⟨rfl, rfl⟩
  | .param p =>
    cases h with
    | param herase =>
      cases he
      cases he'
      rw [Expr.erase, Expr.erase, herase]
      exact ⟨rfl, rfl⟩
  | .field f =>
    cases h with
    | field hsource hname =>
      cases he with
      | field hfield =>
        cases he' with
        | field hfield' =>
          rw [← hagrees.scopes] at hfield'
          rw [field_eq_of_bindField hfield hfield' hsource hname]
          exact ⟨rfl, rfl⟩
  | .binding ref =>
    cases h with
    | binding hname =>
      cases he with
      | binding hslot =>
        cases he' with
        | binding hslot' =>
          obtain rfl : _ = _ := hname
          rw [← hagrees.scopes, hslot] at hslot'
          cases hslot'
          exact ⟨rfl, rfl⟩
  | .parentBinding ref =>
    cases h with
    | parentBinding hname =>
      cases he with
      | parentBinding hslot =>
        cases he' with
        | parentBinding hslot' =>
          obtain rfl : _ = _ := hname
          rw [← hagrees.scopes, hslot] at hslot'
          cases hslot'
          exact ⟨rfl, rfl⟩
  | .operator op operands =>
    cases h with
    | operator hoperands =>
      cases he with
      | operator _ _ hsettled =>
        cases he' with
        | operator _ _ hsettled' =>
          obtain ⟨heq, rfl⟩ := hoperands.erase_eq hagrees hsettled hsettled'
          rw [Expr.erase, Expr.erase, heq]
          exact ⟨rfl, rfl⟩
  | .aggregate kind args distinct filter =>
    cases h with
    | aggregate hname hargs hfilter =>
      cases he with
      | aggregate hcheck hsettled hsettledFilter =>
        cases he' with
        | aggregate hcheck' hsettled' hsettledFilter' =>
          obtain rfl := aggregateKind_eq hname hargs.length_eq hcheck hcheck'
          obtain ⟨heq, rfl⟩ := hargs.erase_eq hagrees hsettled hsettled'
          obtain ⟨heqFilter, rfl⟩ := hfilter.erase_eq hagrees hsettledFilter hsettledFilter'
          rw [Expr.erase, Expr.erase, heq, heqFilter]
          exact ⟨rfl, rfl⟩
  | .fragment text parts args =>
    cases h with
    | fragment hargs =>
      cases he with
      | fragment _ _ hsettled =>
        cases he' with
        | fragment _ _ hsettled' =>
          obtain ⟨heq, rfl⟩ := hargs.erase_eq hagrees hsettled hsettled'
          rw [Expr.erase, Expr.erase, heq]
          exact ⟨rfl, rfl⟩
  | .cast value target _ =>
    cases h with
    | cast hvalue =>
      cases he with
      | cast hsettled _ _ _ =>
        cases he' with
        | cast hsettled' _ _ _ =>
          obtain ⟨heq, rfl⟩ := hvalue.erase_eq hagrees hsettled hsettled'
          rw [Expr.erase, Expr.erase, heq]
          exact ⟨rfl, rfl⟩
  | .subquery kind query =>
    cases h with
    | subquery hquery =>
      cases he with
      | subquery hsettled =>
        cases he' with
        | subquery hsettled' =>
          obtain ⟨heq, rfl⟩ := hquery.erase_eq hagrees hsettled hsettled'
          rw [Expr.erase, Expr.erase, heq]
          exact ⟨rfl, rfl⟩
  | .values table =>
    cases h with
    | values htable =>
      cases he with
      | values hcheck hindex =>
        cases he' with
        | values hcheck' hindex' =>
          obtain ⟨heq, hcount⟩ := htable.erase_eq (regular_of_validate hcheck)
            (regular_of_validate hcheck') hindex hindex'
          rw [Expr.erase, Expr.erase, heq, hcount]
          exact ⟨rfl, rfl⟩
  | .projection kind p =>
    cases h with
    | projection hsource hset =>
      cases he with
      | projection hslot _ =>
        cases he' with
        | projection hslot' _ =>
          obtain rfl : _ = _ := hsource
          obtain rfl : _ = _ := hset
          rw [← hagrees.scopes, hslot] at hslot'
          cases hslot'
          exact ⟨rfl, rfl⟩
  | .merge left right =>
    cases h with
    | merge hleft hright =>
      cases he with
      | merge hsettledLeft hsettledRight =>
        cases he' with
        | merge hsettledLeft' hsettledRight' =>
          obtain ⟨heqLeft, rfl⟩ := hleft.erase_eq hagrees hsettledLeft hsettledLeft'
          obtain ⟨heqRight, rfl⟩ := hright.erase_eq hagrees hsettledRight hsettledRight'
          rw [Expr.erase, Expr.erase, heqLeft, heqRight]
          exact ⟨rfl, rfl⟩
  | .aliased value name =>
    cases h with
    | aliased hvalue =>
      cases he with
      | aliased hsettled =>
        cases he' with
        | aliased hsettled' =>
          obtain ⟨heq, rfl⟩ := hvalue.erase_eq hagrees hsettled hsettled'
          rw [Expr.erase, Expr.erase, heq]
          exact ⟨rfl, rfl⟩
  | .aliasRef name =>
    cases h with
    | aliasRef =>
      cases he
      cases he'
      exact ⟨rfl, rfl⟩
  | .jsonPath base path =>
    cases h with
    | jsonPath hbase hpath =>
      cases he with
      | jsonPath hfield hsettled =>
        cases he' with
        | jsonPath hfield' hsettled' =>
          rw [← hagrees.scopes] at hfield'
          cases hbase with
          | field hsource hname =>
            obtain rfl := field_eq_of_bindField hfield hfield' hsource hname
            obtain ⟨heq, rfl⟩ := hpath.erase_eq hagrees hsettled hsettled'
            rw [Expr.erase, Expr.erase, heq]
            exact ⟨rfl, rfl⟩
  | .interval count unit =>
    cases h with
    | interval hcount =>
      cases he with
      | interval hsettled _ =>
        cases he' with
        | interval hsettled' _ =>
          obtain ⟨heq, rfl⟩ := hcount.erase_eq hagrees hsettled hsettled'
          rw [Expr.erase, Expr.erase, heq]
          exact ⟨rfl, rfl⟩
  | .tuple items =>
    cases h with
    | tuple hitems =>
      cases he with
      | tuple hsettled =>
        cases he' with
        | tuple hsettled' =>
          obtain ⟨heq, rfl⟩ := hitems.erase_eq hagrees hsettled hsettled'
          rw [Expr.erase, Expr.erase, heq]
          exact ⟨rfl, rfl⟩
  | .mapping entries =>
    cases h with
    | mapping hentries =>
      cases he with
      | mapping hsettled =>
        cases he' with
        | mapping hsettled' =>
          obtain ⟨heq, rfl⟩ := hentries.erase_eq hagrees hsettled hsettled'
          rw [Expr.erase, Expr.erase, heq]
          exact ⟨rfl, rfl⟩
termination_by structural e

theorem AlikeAll.erase_eq {place place' : Place} (hagrees : place.Agrees place') {o o' : Bool}
    {k l l' : Nat} {es es' : List Expr} (h : AlikeAll es es') (hes : SettledAll place o k es l)
    (hes' : SettledAll place' o' k es' l') : eraseAll es = eraseAll es' ∧ l = l' := by
  match es, es', h with
  | [], [], .nil =>
    cases hes
    cases hes'
    exact ⟨rfl, rfl⟩
  | e :: rest, e' :: rest', .cons he hrest =>
    cases hes with
    | cons hsettled hsettledRest =>
      cases hes' with
      | cons hsettled' hsettledRest' =>
        obtain ⟨heq, rfl⟩ := he.erase_eq hagrees hsettled hsettled'
        obtain ⟨heqRest, rfl⟩ := hrest.erase_eq hagrees hsettledRest hsettledRest'
        rw [eraseAll, eraseAll, heq, heqRest]
        exact ⟨rfl, rfl⟩
termination_by structural es

theorem AlikeEntries.erase_eq {place place' : Place} (hagrees : place.Agrees place')
    {o o' : Bool} {k l l' : Nat} {es es' : List (String × Expr)} (h : AlikeEntries es es')
    (hes : SettledEntries place o k es l) (hes' : SettledEntries place' o' k es' l') :
    eraseEntries es = eraseEntries es' ∧ l = l' := by
  match es, es', h with
  | [], [], .nil =>
    cases hes
    cases hes'
    exact ⟨rfl, rfl⟩
  | (key, e) :: rest, (_, e') :: rest', .cons he hrest =>
    cases hes with
    | cons hsettled hsettledRest =>
      cases hes' with
      | cons hsettled' hsettledRest' =>
        obtain ⟨heq, rfl⟩ := he.erase_eq hagrees hsettled hsettled'
        obtain ⟨heqRest, rfl⟩ := hrest.erase_eq hagrees hsettledRest hsettledRest'
        rw [eraseEntries, eraseEntries, heq, heqRest]
        exact ⟨rfl, rfl⟩
termination_by structural es

theorem AlikeOption.erase_eq {place place' : Place} (hagrees : place.Agrees place') {o o' : Bool}
    {k l l' : Nat} {clause clause' : Option Expr} (h : AlikeOption clause clause')
    (hclause : SettledOption place o k clause l)
    (hclause' : SettledOption place' o' k clause' l') :
    eraseOption clause = eraseOption clause' ∧ l = l' := by
  match clause, clause', h with
  | none, none, .none =>
    cases hclause
    cases hclause'
    exact ⟨rfl, rfl⟩
  | some e, some e', .some he =>
    cases hclause with
    | some hsettled =>
      cases hclause' with
      | some hsettled' =>
        obtain ⟨heq, rfl⟩ := he.erase_eq hagrees hsettled hsettled'
        rw [eraseOption, eraseOption, heq]
        exact ⟨rfl, rfl⟩
termination_by structural clause

theorem AlikeArgs.erase_eq {place place' : Place} (hagrees : place.Agrees place') {k l l' : Nat}
    {args args' : List FragmentArg} (h : AlikeArgs args args')
    (hargs : SettledArgs place k args l) (hargs' : SettledArgs place' k args' l') :
    eraseArgs args = eraseArgs args' ∧ l = l' := by
  match args, args', h with
  | [], [], .nil =>
    cases hargs
    cases hargs'
    exact ⟨rfl, rfl⟩
  | .mk role e :: rest, .mk _ e' :: rest', .cons he hrest =>
    obtain ⟨_, hsettled, hsettledRest⟩ := hargs.of_cons
    obtain ⟨_, hsettled', hsettledRest'⟩ := hargs'.of_cons
    obtain ⟨heq, rfl⟩ := he.erase_eq hagrees hsettled hsettled'
    obtain ⟨heqRest, rfl⟩ := hrest.erase_eq hagrees hsettledRest hsettledRest'
    rw [eraseArgs, eraseArgs, heq, heqRest]
    exact ⟨rfl, rfl⟩
termination_by structural args

theorem AlikePath.erase_eq {place place' : Place} (hagrees : place.Agrees place') {k l l' : Nat}
    {path path' : List PathStep} (h : AlikePath path path') (hpath : SettledPath place k path l)
    (hpath' : SettledPath place' k path' l') : erasePath path = erasePath path' ∧ l = l' := by
  match path, path', h with
  | [], [], .nil =>
    cases hpath
    cases hpath'
    exact ⟨rfl, rfl⟩
  | .key name :: rest, .key name' :: rest', .key hrest =>
    cases hpath with
    | key hsettled =>
      cases hpath' with
      | key hsettled' =>
        obtain ⟨heq, rfl⟩ := hrest.erase_eq hagrees hsettled hsettled'
        rw [erasePath, erasePath, heq]
        exact ⟨rfl, rfl⟩
  | .index i :: rest, .index i' :: rest', .index hrest =>
    cases hpath with
    | index hsettled =>
      cases hpath' with
      | index hsettled' =>
        obtain ⟨heq, rfl⟩ := hrest.erase_eq hagrees hsettled hsettled'
        rw [erasePath, erasePath, heq]
        exact ⟨rfl, rfl⟩
  | .computed e :: rest, .computed e' :: rest', .computed he hrest =>
    cases hpath with
    | computed hsettled hsettledRest =>
      cases hpath' with
      | computed hsettled' hsettledRest' =>
        obtain ⟨heq, rfl⟩ := he.erase_eq hagrees hsettled hsettled'
        obtain ⟨heqRest, rfl⟩ := hrest.erase_eq hagrees hsettledRest hsettledRest'
        rw [erasePath, erasePath, heq, heqRest]
        exact ⟨rfl, rfl⟩
termination_by structural path

theorem AlikeTerms.erase_eq {place place' : Place} (hagrees : place.Agrees place') {k l l' : Nat}
    {terms terms' : List OrderTerm} (h : AlikeTerms terms terms')
    (hterms : SettledTerms place k terms l) (hterms' : SettledTerms place' k terms' l') :
    eraseTerms terms = eraseTerms terms' ∧ l = l' := by
  match terms, terms', h with
  | [], [], .nil =>
    cases hterms
    cases hterms'
    exact ⟨rfl, rfl⟩
  | .mk e direction :: rest, .mk e' _ :: rest', .cons he hrest =>
    cases hterms with
    | cons hsettled hsettledRest =>
      cases hterms' with
      | cons hsettled' hsettledRest' =>
        obtain ⟨heq, rfl⟩ := he.erase_eq hagrees hsettled hsettled'
        obtain ⟨heqRest, rfl⟩ := hrest.erase_eq hagrees hsettledRest hsettledRest'
        rw [eraseTerms, eraseTerms, heq, heqRest]
        exact ⟨rfl, rfl⟩
termination_by structural terms

theorem Source.Alike.erase_eq {place place' : Place} (hagrees : place.Agrees place')
    {k l l' : Nat} {source source' : Source} (h : source.Alike source')
    (hregular : ∀ table, source.table? = some table → table.Regular)
    (hregular' : ∀ table, source'.table? = some table → table.Regular)
    (hsource : source.Settled place k l) (hsource' : source'.Settled place' k l') :
    source.erase = source'.erase ∧ l = l' := by
  match source with
  | .mk (.schema schema) name =>
    obtain ⟨⟨⟩⟩ := h
    cases hsource
    cases hsource'
    exact ⟨rfl, rfl⟩
  | .mk (.table table) name =>
    obtain ⟨⟨⟩⟩ := h
    cases hsource
    cases hsource'
    exact ⟨rfl, rfl⟩
  | .mk (.values table) name =>
    obtain ⟨htable⟩ := h
    cases htable with
    | values htable =>
      cases hsource with
      | values hindex =>
        cases hsource' with
        | values hindex' =>
          obtain ⟨heq, hcount⟩ :=
            htable.erase_eq (hregular _ rfl) (hregular' _ rfl) hindex hindex'
          rw [Source.erase, Source.erase, Origin.erase, Origin.erase, heq, hcount]
          exact ⟨rfl, rfl⟩
  | .mk (.subquery query) name =>
    obtain ⟨horigin⟩ := h
    cases horigin with
    | subquery hquery =>
      cases hsource with
      | subquery hsettled =>
        cases hsource' with
        | subquery hsettled' =>
          obtain ⟨heq, rfl⟩ := hquery.erase_eq hagrees hsettled hsettled'
          rw [Source.erase, Source.erase, Origin.erase, Origin.erase, heq]
          exact ⟨rfl, rfl⟩
  | .mk (.fragment e) name =>
    obtain ⟨horigin⟩ := h
    cases horigin with
    | fragment he =>
      cases hsource with
      | fragment _ hsettled =>
        cases hsource' with
        | fragment _ hsettled' =>
          obtain ⟨heq, rfl⟩ := he.erase_eq hagrees hsettled hsettled'
          rw [Source.erase, Source.erase, Origin.erase, Origin.erase, heq]
          exact ⟨rfl, rfl⟩
termination_by structural source

theorem AlikeJoins.erase_eq {place place' : Place} (hagrees : place.Agrees place') {k l l' : Nat}
    {joins joins' : List Join} (h : AlikeJoins joins joins')
    (hregular : ∀ source ∈ joins.map Join.source, ∀ table, source.table? = some table →
      table.Regular)
    (hregular' : ∀ source ∈ joins'.map Join.source, ∀ table, source.table? = some table →
      table.Regular)
    (hjoins : SettledJoins place k joins l) (hjoins' : SettledJoins place' k joins' l') :
    eraseJoins joins = eraseJoins joins' ∧ l = l' := by
  match joins, joins', h with
  | [], [], .nil =>
    cases hjoins
    cases hjoins'
    exact ⟨rfl, rfl⟩
  | .mk kind source on :: rest, .mk _ source' on' :: rest', .cons hsource hon hrest =>
    rw [List.map_cons, List.forall_mem_cons] at hregular hregular'
    cases hjoins with
    | cons hsettled hsettledOn hsettledRest =>
      cases hjoins' with
      | cons hsettled' hsettledOn' hsettledRest' =>
        obtain ⟨heq, rfl⟩ := hsource.erase_eq hagrees hregular.1 hregular'.1 hsettled hsettled'
        obtain ⟨heqOn, rfl⟩ := hon.erase_eq hagrees hsettledOn hsettledOn'
        obtain ⟨heqRest, rfl⟩ :=
          hrest.erase_eq hagrees hregular.2 hregular'.2 hsettledRest hsettledRest'
        rw [eraseJoins, eraseJoins, heq, heqOn, heqRest]
        exact ⟨rfl, rfl⟩
termination_by structural joins

/-- The sources of alike queries declare one scope, so that all the rest stands at one place. -/
theorem Query.Alike.erase_eq {place place' : Place} (hagrees : place.Agrees place') {k l l' : Nat}
    {query query' : Query} (h : query.Alike query') (hquery : query.Settled place k l)
    (hquery' : query'.Settled place' k l') : query.erase = query'.erase ∧ l = l' := by
  match query with
  | .mk source joins wheres select groupBy having orderBy limit offset distinct =>
    obtain ⟨hsource, hjoins, hwheres, hselect, hgroupBy, hhaving, horderBy, hlimit, hoffset⟩ := h
    cases hquery with
    | mk _ hdeclared _ sselect _ ssource sjoins swheres _ sgroupBy shaving sorderBy slimit _
        soffset _ =>
      cases hquery' with
      | mk _ hdeclared' _ sselect' _ ssource' sjoins' swheres' _ sgroupBy' shaving' sorderBy'
          slimit' _ soffset' _ =>
        rw [← hagrees.catalog, ← hagrees.scopes] at hdeclared'
        have hregular := regular_of_declareSources hdeclared
        have hregular' := regular_of_declareSources hdeclared'
        rw [List.forall_mem_cons] at hregular hregular'
        obtain ⟨next, hnext, hnext'⟩ := hsource.declared hdeclared hdeclared'
        obtain rfl := hjoins.scope_eq hnext hnext'
        obtain ⟨eselect, rfl⟩ := hselect.erase_eq (hagrees.inside ..) sselect sselect'
        obtain ⟨esource, rfl⟩ :=
          hsource.erase_eq (hagrees.inside ..) hregular.1 hregular'.1 ssource ssource'
        obtain ⟨ejoins, rfl⟩ :=
          hjoins.erase_eq (hagrees.inside ..) hregular.2 hregular'.2 sjoins sjoins'
        obtain ⟨ewheres, rfl⟩ := hwheres.erase_eq (hagrees.inside ..) swheres swheres'
        obtain ⟨egroupBy, rfl⟩ := hgroupBy.erase_eq (hagrees.inside ..) sgroupBy sgroupBy'
        obtain ⟨ehaving, rfl⟩ := hhaving.erase_eq (hagrees.inside ..) shaving shaving'
        obtain ⟨eorderBy, rfl⟩ := horderBy.erase_eq (hagrees.inside ..) sorderBy sorderBy'
        obtain ⟨elimit, rfl⟩ := hlimit.erase_eq (hagrees.inside ..) slimit slimit'
        obtain ⟨eoffset, rfl⟩ := hoffset.erase_eq (hagrees.inside ..) soffset soffset'
        rw [Query.erase, Query.erase, esource, ejoins, ewheres, eselect, egroupBy, ehaving,
          eorderBy, elimit, eoffset]
        exact ⟨rfl, rfl⟩
termination_by structural query

end

end QueryCompiler
