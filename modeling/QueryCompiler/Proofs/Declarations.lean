import QueryCompiler.Proofs.Naming
import QueryCompiler.Proofs.OwnParts
import QueryCompiler.Proofs.Validity.Written

/-!
# What names mean while sources are declared

The sources of a query are declared one after another, and the types of a values table are resolved
when its turn comes, against the sources before it. Everything else in the query is resolved when
all sources are declared. A reference in the types of a table therefore means what it means in the
filters of the query, unless it is a name that the query gives to the table itself or to a source
after it: then it is looked up in the enclosing queries only.
-/

namespace QueryCompiler

variable {catalog : Catalog}

/-! ### Own expressions and their sites -/

theorem mem_append_of_imp {α β : Type} {a : α} {b : β} {xs xs' : List α} {ys ys' : List β}
    (h : a ∈ xs → b ∈ ys) (h' : a ∈ xs' → b ∈ ys') (hmem : a ∈ xs ++ xs') : b ∈ ys ++ ys' :=
  List.mem_append.2 ((List.mem_append.1 hmem).imp h h')

mutual

/-- The own expressions of an expression stand at sites of the same queries. -/
theorem Expr.site_of_mem_own (queries : List Query) (e : Expr) {f : Expr} (h : f ∈ e.own) :
    (queries, .expr f) ∈ e.sites queries := by
  rw [Expr.own.eq_def] at h
  rw [Expr.sites.eq_def]
  rcases List.mem_cons.1 h with rfl | h
  · exact List.mem_cons_self ..
  refine List.mem_cons_of_mem _ ?_
  match e with
  | .literal _ | .param _ | .field _ | .binding _ | .parentBinding _ | .subquery _ _ | .values _
  | .projection _ _ | .aliasRef _ => cases h
  | .operator op operands => exact site_of_mem_ownAll queries operands h
  | .aggregate kind args distinct filter =>
    exact mem_append_of_imp (site_of_mem_ownAll queries args)
      (site_of_mem_ownOption queries filter) h
  | .fragment text parts args => exact site_of_mem_ownArgs queries args h
  | .cast value target resolved => exact Expr.site_of_mem_own queries value h
  | .merge left right =>
    exact mem_append_of_imp (Expr.site_of_mem_own queries left)
      (Expr.site_of_mem_own queries right) h
  | .aliased value name => exact Expr.site_of_mem_own queries value h
  | .jsonPath base path =>
    exact mem_append_of_imp (Expr.site_of_mem_own queries base)
      (site_of_mem_ownPath queries path) h
  | .interval count unit => exact Expr.site_of_mem_own queries count h
  | .tuple items => exact site_of_mem_ownAll queries items h
  | .mapping entries => exact site_of_mem_ownEntries queries entries h
termination_by structural e

theorem site_of_mem_ownAll (queries : List Query) (es : List Expr) {f : Expr} (h : f ∈ ownAll es) :
    (queries, .expr f) ∈ sitesAll queries es := by
  match es with
  | [] => cases h
  | e :: rest =>
    exact mem_append_of_imp (Expr.site_of_mem_own queries e) (site_of_mem_ownAll queries rest) h
termination_by structural es

theorem site_of_mem_ownOption (queries : List Query) (e : Option Expr) {f : Expr}
    (h : f ∈ ownOption e) : (queries, .expr f) ∈ sitesOption queries e := by
  match e with
  | none => cases h
  | some e => exact Expr.site_of_mem_own queries e h
termination_by structural e

theorem site_of_mem_ownArgs (queries : List Query) (args : List FragmentArg) {f : Expr}
    (h : f ∈ ownArgs args) : (queries, .expr f) ∈ sitesArgs queries args := by
  match args with
  | [] => cases h
  | .mk role e :: rest =>
    exact mem_append_of_imp (Expr.site_of_mem_own queries e) (site_of_mem_ownArgs queries rest) h
termination_by structural args

theorem site_of_mem_ownPath (queries : List Query) (path : List PathStep) {f : Expr}
    (h : f ∈ ownPath path) : (queries, .expr f) ∈ sitesPath queries path := by
  match path with
  | [] => cases h
  | .computed e :: rest =>
    exact mem_append_of_imp (Expr.site_of_mem_own queries e) (site_of_mem_ownPath queries rest) h
  | .key _ :: rest => exact site_of_mem_ownPath queries rest h
  | .index _ :: rest => exact site_of_mem_ownPath queries rest h
termination_by structural path

theorem site_of_mem_ownEntries (queries : List Query) (entries : List (String × Expr)) {f : Expr}
    (h : f ∈ ownEntries entries) : (queries, .expr f) ∈ sitesEntries queries entries := by
  match entries with
  | [] => cases h
  | (key, e) :: rest =>
    exact mem_append_of_imp (Expr.site_of_mem_own queries e)
      (site_of_mem_ownEntries queries rest) h
termination_by structural entries

end

theorem site_of_mem_wheres (outer : List Query) (query : Query) {f : Expr}
    (h : f ∈ ownAll query.wheres) : (query :: outer, .expr f) ∈ query.sites outer := by
  obtain ⟨source, joins, wheres, select, groupBy, having, orderBy, limit, offset, distinct⟩ := query
  have hsite := site_of_mem_ownAll (.mk source joins wheres select groupBy having orderBy limit
    offset distinct :: outer) wheres h
  simp only [Query.sites, List.mem_cons, List.mem_append, hsite, true_or, or_true]

/-! ### Scopes that grow -/

section

variable {early late : Scope} {outer : ScopeStack}

/-- A name that the first sources of a scope have is that of the same source in the whole scope. -/
theorem Scope.lookup_of_earlier (h : early.sources <+: late.sources) {name : String}
    {bound : BoundSource} (hlookup : early.lookup name = some bound) :
    late.lookup name = some bound :=
  h.find?_eq_some hlookup

/-- A name is missing among the first sources exactly if the source that has it comes after them. -/
theorem Scope.lookup_eq_none_of_earlier (hplaced : late.Placed) (h : early.sources <+: late.sources)
    {name : String} {bound : BoundSource} (hlookup : late.lookup name = some bound) :
    early.lookup name = none ↔ early.sources.length ≤ bound.position := by
  obtain ⟨hbound, hname⟩ := hplaced.lookup hlookup
  constructor
  · intro hnone
    by_contra hle
    have hlt : bound.position < early.sources.length := Nat.lt_of_not_le hle
    have hearly : early.sources[bound.position] = bound := by
      rw [h.getElem]
      exact (List.getElem?_eq_some_iff.1 hbound).2
    exact Scope.lookup_eq_none.1 hnone bound (hearly ▸ List.getElem_mem hlt) hname
  · intro hle
    cases hearly : early.lookup name with
    | none => rfl
    | some other =>
      obtain rfl := Option.some.inj ((Scope.lookup_of_earlier h hearly).symm.trans hlookup)
      obtain ⟨i, hi⟩ := List.mem_iff_getElem?.1 (List.mem_of_find?_eq_some hearly)
      obtain ⟨hlt, rfl⟩ := List.getElem?_eq_some_iff.1 hi
      rw [hplaced i _ (List.getElem?_eq_some_iff.2 ⟨_, (h.getElem hlt).symm⟩)] at hle
      omega

/--
Sources that are added to the innermost scope change what a reference means only if they have its
name and no source was there by that name.
-/
theorem resolve_of_earlier (h : early.sources <+: late.sources) {ref : SourceRef}
    {found : Slot × BoundSource}
    (hresolve : ScopeStack.resolve (early :: outer) ref = .ok found) :
    ScopeStack.resolve (late :: outer) ref = .ok found ∨
      ∃ name, ref = .binding name ∧ early.lookup name = none ∧ (late.lookup name).isSome ∧
        ScopeStack.findBinding name 1 outer = some found := by
  cases ref with
  | position index =>
    left
    rw [ScopeStack.resolve, ScopeStack.lookupPosition, Scope.source?] at hresolve ⊢
    split at hresolve
    · rename_i bound hbound
      obtain ⟨hlt, rfl⟩ := List.getElem?_eq_some_iff.1 hbound
      rw [List.getElem?_eq_some_iff.2 ⟨_, (h.getElem hlt).symm⟩]
      exact hresolve
    · cases hresolve
  | parentBinding name =>
    left
    cases outer with
    | nil => cases hresolve
    | cons parent rest => exact hresolve
  | binding name =>
    rw [ScopeStack.resolve, ScopeStack.lookupBinding, ScopeStack.findBinding] at hresolve ⊢
    cases hearly : early.lookup name with
    | some bound =>
      left
      rw [hearly] at hresolve
      rw [Scope.lookup_of_earlier h hearly]
      exact hresolve
    | none =>
      rw [hearly] at hresolve
      cases hlate : late.lookup name with
      | none => exact Or.inl hresolve
      | some bound =>
        refine Or.inr ⟨name, rfl, hearly, by rw [hlate, Option.isSome_some], ?_⟩
        dsimp only at hresolve
        split at hresolve
        · rename_i hfound
          cases hresolve
          exact hfound
        · cases hresolve

end

/-- A source is declared in a scope with the sources before it; the whole scope begins with them. -/
theorem declare_of_declareSources {outer : ScopeStack} {start scope : Scope} {sources : List Source}
    {tables : List (Option ValuesTable)}
    (h : declareSources catalog outer start sources = (.ok tables, scope)) {index : Nat}
    {source : Source} (hsource : sources[index]? = some source) :
    ∃ early shape table, early.sources <+: scope.sources ∧
      early.sources.length = start.sources.length + index ∧ tables[index]? = some table ∧
      source.declare catalog (early :: outer) = .ok (shape, table) := by
  induction sources generalizing start tables index with
  | nil => cases hsource
  | cons first rest ih =>
    obtain ⟨shape, table, next, tables', hdeclare, hadd, hrest, rfl⟩ :=
      declareSources_cons_eq_ok.1 h
    obtain ⟨-, rfl⟩ := add_eq_ok.1 hadd
    cases index with
    | zero =>
      cases hsource
      obtain ⟨added, hadded, -⟩ := shows_added_of_declareSources h
      exact ⟨start, shape, table, hadded ▸ List.prefix_append .., rfl, rfl, hdeclare⟩
    | succ index =>
      obtain ⟨early, shape', table', hearlier, hlength, htable, hdeclare'⟩ := ih hrest hsource
      refine ⟨early, shape', table', hearlier, ?_, htable, hdeclare'⟩
      rw [hlength, List.length_append, List.length_singleton]
      omega

/-- A values table that is declared and comes out as it is has been checked. -/
theorem check_of_declare {scopes : ScopeStack} {source : Source} {table : ValuesTable}
    (horigin : source.origin = .values table) {shape : SourceShape}
    (h : source.declare catalog scopes = .ok (shape, source.table?)) :
    table.check catalog scopes = .ok table := by
  obtain ⟨origin, name⟩ := source
  cases horigin
  rw [Source.declare] at h
  split at h
  · rename_i found hcheck
    cases h
    exact hcheck
  · cases h

/-! ### References of types and of filters -/

/-- The query gives the name of a reference to a source at a position or after it. -/
def Query.NamesFrom (query : Query) (index : Nat) : SourceRef → Prop
  | .binding name => ∃ position, query.position? name = some position ∧ index ≤ position
  | .position _ | .parentBinding _ => False

theorem le_level_of_nearest? {name : String} {level : Nat} {queries : List Query} {slot : Slot}
    (h : nearest? name level queries = some slot) : level ≤ slot.level := by
  induction queries generalizing level with
  | nil => cases h
  | cons query outer ih =>
    rw [nearest?] at h
    split at h
    · cases h
      exact Nat.le_refl _
    · exact Nat.le_of_succ_le (ih h)

section

variable {early late : Scope} {outer : ScopeStack} {query : Query} {queries : List Query}
  {ref : SourceRef} {slot : Slot} {bound : BoundSource}

/-- A name is given further on if the whole scope has it and its beginning does not. -/
theorem namesFrom_iff_of_earlier (hplaced : late.Placed)
    (hmirrors : late.Mirrors catalog query.sources) (hearlier : early.sources <+: late.sources)
    {name : String} :
    query.NamesFrom early.sources.length (.binding name) ↔
      early.lookup name = none ∧ (late.lookup name).isSome := by
  rw [Query.NamesFrom, hmirrors.position?_of_lookup hplaced]
  cases hlookup : late.lookup name with
  | none => simp
  | some found => simp [Scope.lookup_eq_none_of_earlier hplaced hearlier hlookup]

/-- A reference that resolves at the beginning of a scope names the same slot in the whole query,
unless the query gives its name further on. -/
theorem names?_of_earlier (hmirror : ScopesMirror catalog (late :: outer) (query :: queries))
    (hearlier : early.sources <+: late.sources)
    (hresolve : ScopeStack.resolve (early :: outer) ref = .ok (slot, bound))
    (hnot : ¬ query.NamesFrom early.sources.length ref) :
    ref.names? (query :: queries) = some slot := by
  rcases resolve_of_earlier hearlier hresolve with hlate | ⟨name, rfl, hnone, hsome, -⟩
  · exact hmirror.names?_of_resolve ref hlate
  · cases hmirror with
    | cons hplaced hmirrors _ =>
      exact absurd ((namesFrom_iff_of_earlier hplaced hmirrors hearlier).2 ⟨hnone, hsome⟩) hnot

/-- A name that the query gives further on is the one of an enclosing query at the beginning of the
scope, and that of a source of the query in the whole scope. -/
theorem nearest?_of_earlier (hmirror : ScopesMirror catalog (late :: outer) (query :: queries))
    (hearlier : early.sources <+: late.sources)
    (hresolve : ScopeStack.resolve (early :: outer) ref = .ok (slot, bound))
    (hfrom : query.NamesFrom early.sources.length ref) :
    ∃ name, ref = .binding name ∧ nearest? name 1 queries = some slot ∧
      ∃ position, ref.names? (query :: queries) = some ⟨0, position⟩ := by
  cases ref with
  | position index => cases hfrom
  | parentBinding name => cases hfrom
  | binding name =>
    have ⟨position, hposition, _⟩ := hfrom
    cases hmirror with
    | cons hplaced hmirrors houter =>
      obtain ⟨hnone, -⟩ := (namesFrom_iff_of_earlier hplaced hmirrors hearlier).1 hfrom
      refine ⟨name, rfl, ?_, position, ?_⟩
      · rw [houter.nearest?_of_findBinding]
        rw [ScopeStack.resolve, ScopeStack.lookupBinding, ScopeStack.findBinding, hnone] at hresolve
        dsimp only at hresolve
        split at hresolve
        · rename_i hfound
          cases hresolve
          rw [hfound]
          rfl
        · cases hresolve
      · rw [SourceRef.names?, nearest?, hposition]

end

/-! ### Compiled queries -/

/-- The types of a values table have been resolved with the sources before it in scope. -/
theorem Part.Settled.columns {outer : List Query} {query : Query}
    (h : (Part.query query).Settled catalog outer) {index : Nat} {source : Source}
    {table : ValuesTable} (hsource : query.sources[index]? = some source)
    (horigin : source.origin = .values table) :
    ∃ (early late : Scope) (scopes : ScopeStack), early.sources <+: late.sources ∧
      early.sources.length = index ∧ ScopesMirror catalog (late :: scopes) (query :: outer) ∧
      ∀ reference ∈ table.types.references, reference.Resolves (early :: scopes) := by
  obtain ⟨place, _, _, rfl, hmirror, hsettled⟩ := h
  cases hsettled with
  | mk _ hdeclared =>
    obtain ⟨early, shape, table', hearlier, hlength, htable, hdeclare⟩ :=
      declare_of_declareSources hdeclared hsource
    rw [List.getElem?_map] at htable
    obtain rfl : source.table? = table' :=
      Option.some.inj ((congrArg (Option.map Source.table?) hsource).symm.trans htable)
    refine ⟨early, _, place.scopes, hearlier, hlength.trans (Nat.zero_add index),
      .cons (declareSources_placed Scope.empty_placed hdeclared)
        (mirrors_of_declareSources hdeclared) hmirror, ?_⟩
    exact resolves_of_check (check_of_declare horigin hdeclare)

/-- A field in a filter of a query has the slot that it names there. -/
theorem Part.Settled.filtered {outer : List Query} {query : Query}
    (h : (Part.query query).Settled catalog outer) {f : FieldRef}
    (hf : .field f ∈ ownAll query.wheres) : (Reference.field f).Named (query :: outer) := by
  obtain ⟨place, _, _, rfl, hmirror, hsettled⟩ := h
  have hsite := hsettled.sites hmirror _ (site_of_mem_wheres outer query hf)
  exact hsite.named _ (List.mem_singleton_self _)

/--
A reference in the types of a values table and a field with the same reference in a filter of the
same query, at whatever level of a compiled query, have the same slot exactly if the reference is
not a name that the query gives to the table or to a source after it. If it is, the field has the
slot of that source, and the type the slot that the name has in the enclosing queries.
-/
theorem compile_declarations (catalog : Catalog) (config : Config) (query : Query)
    (c : CompiledQuery) (h : query.compile catalog config = .ok c) :
    ∀ outer inner, (outer, .query inner) ∈ c.query.sites [] →
      ∀ (index : Nat) (source : Source) (table : ValuesTable),
      inner.sources[index]? = some source → source.origin = .values table →
      ∀ column : FieldRef, .field column ∈ table.types.references →
      ∀ f : FieldRef, .field f ∈ ownAll inner.wheres → f.source = column.source →
      ∃ declared bound, (Reference.field column).slot? = some declared ∧
        (Reference.field f).slot? = some bound ∧
        (declared = bound ↔ ¬ inner.NamesFrom index column.source) ∧
        (inner.NamesFrom index column.source → bound.level = 0 ∧
          ∃ name, column.source = .binding name ∧ nearest? name 1 outer = some declared) := by
  intro outer inner hsite index source table hsource horigin column hcolumn f hf hsame
  have hsettled := sites_of_compile h _ hsite
  obtain ⟨early, late, scopes, hearlier, rfl, hmirror, hresolves⟩ :=
    hsettled.columns hsource horigin
  obtain ⟨declared, found, hdeclared, hresolve⟩ := hresolves _ hcolumn
  obtain ⟨bound, hbound, hnames⟩ := hsettled.filtered hf
  change f.source.names? _ = _ at hnames
  rw [hsame] at hnames
  refine ⟨declared, bound, hdeclared, hbound, ?_⟩
  by_cases hfrom : inner.NamesFrom early.sources.length column.source
  · obtain ⟨name, hname, hnearest, position, hlate⟩ :=
      nearest?_of_earlier hmirror hearlier hresolve hfrom
    obtain rfl := Option.some.inj (hnames.symm.trans hlate)
    refine ⟨iff_of_false ?_ (not_not_intro hfrom), fun _ => ⟨rfl, name, hname, hnearest⟩⟩
    rintro rfl
    exact absurd (le_level_of_nearest? hnearest) (Nat.not_succ_le_zero 0)
  · have hlate := names?_of_earlier hmirror hearlier hresolve hfrom
    exact ⟨iff_of_true (Option.some.inj (hlate.symm.trans hnames)) hfrom,
      fun hlater => absurd hlater hfrom⟩

/--
The posts for which there are posts by the same name, joined with a table of two identifiers: the
type of the first is that of a field of the outer posts, the type of the second that of a field of
the source before the table.
-/
def namesakes : Query :=
  .mk (.mk (.schema "posts") (some "p")) []
    [.subquery .existence
      (.mk (.mk (.schema "posts") (some "q"))
        [.mk .inner
          (.mk (.values (.ofRows [.ofList [("one", .integer 3), ("two", .integer 5)]]
            (.map (.ofList [("one", .column ⟨.binding "p", .schema "id", none⟩),
              ("two", .column ⟨.binding "q", .schema "id", none⟩)])))) none) none,
          .mk .inner (.mk (.schema "posts") (some "p")) none]
        [.operator .equal [.field ⟨.binding "p", .schema "id", none⟩,
          .field ⟨.binding "q", .schema "id", none⟩]]
        none [] [] [] none none false)]
    none [] [] [] none none false

/-- The inner posts have the name of the outer ones, and come after the table. -/
theorem compile_declarations_namesakes :
    ∃ (c : CompiledQuery) (inner : Query) (source : Source) (table : ValuesTable)
      (column f : FieldRef), namesakes.compile postCatalog .default = .ok c ∧
      ([c.query], .query inner) ∈ c.query.sites [] ∧ inner.sources[1]? = some source ∧
      source.origin = .values table ∧ .field column ∈ table.types.references ∧
      .field f ∈ ownAll inner.wheres ∧ f.source = column.source ∧
      inner.NamesFrom 1 column.source ∧
      ∃ declared bound, (Reference.field column).slot? = some declared ∧
        (Reference.field f).slot? = some bound ∧
        (declared = bound ↔ ¬ inner.NamesFrom 1 column.source) ∧
        (inner.NamesFrom 1 column.source → bound.level = 0 ∧
          ∃ name, column.source = .binding name ∧ nearest? name 1 [c.query] = some declared) :=
  ⟨_, _, _, _, ⟨.binding "p", .schema "id", _⟩, ⟨.binding "p", .schema "id", _⟩, rfl,
    List.mem_of_getElem? (i := 2) rfl, rfl, rfl, List.mem_cons_self ..,
    .tail _ (List.mem_cons_self ..), rfl, ⟨2, rfl, by decide⟩,
    compile_declarations postCatalog .default namesakes _ rfl _ _
      (List.mem_of_getElem? (i := 2) rfl) 1 _ _ rfl rfl _ (List.mem_cons_self ..) _
      (.tail _ (List.mem_cons_self ..)) rfl⟩

/-- A name may mean one source in the types of a values table and another in the filters. -/
theorem exists_declared_apart :
    ¬ ∀ (catalog : Catalog) (config : Config) (query : Query) (c : CompiledQuery),
      query.compile catalog config = .ok c →
      ∀ outer inner, (outer, .query inner) ∈ c.query.sites [] →
      ∀ (index : Nat) (source : Source) (table : ValuesTable),
      inner.sources[index]? = some source → source.origin = .values table →
      ∀ column : FieldRef, .field column ∈ table.types.references →
      ∀ f : FieldRef, .field f ∈ ownAll inner.wheres → f.source = column.source →
        (Reference.field column).slot? = (Reference.field f).slot? := by
  intro h
  have hslots := h postCatalog .default namesakes _ rfl _ _ (List.mem_of_getElem? (i := 2) rfl) 1
    _ _ rfl rfl ⟨.binding "p", .schema "id", _⟩ (List.mem_cons_self ..)
    ⟨.binding "p", .schema "id", _⟩ (.tail _ (List.mem_cons_self ..)) rfl
  exact absurd hslots (by decide)

end QueryCompiler
