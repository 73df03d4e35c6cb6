import QueryCompiler.Proofs.Recompilation
import QueryCompiler.Proofs.Resolution.References

/-!
# Soundness of resolution

The scopes in which a settled tree is resolved mirror the queries that enclose it: source by source
they agree on the names, and each shape is what the source declares. Whatever resolves in the scopes
is therefore right when it is read against the queries.
-/

namespace QueryCompiler

variable {catalog : Catalog}

/-! ### Declared types -/

theorem declared?_of_resolveType {scopes : ScopeStack} {target target' : TypeRef}
    {type : ResolvedType} (h : scopes.resolveType target = .ok (target', type)) :
    target'.declared? = some type := by
  match target with
  | .builtin name =>
    rw [ScopeStack.resolveType, resolveBuiltin] at h
    cases hname : DataType.ofName? name with
    | none => simp [hname] at h
    | some t =>
      simp only [hname] at h
      cases h
      simp [TypeRef.declared?, hname]
  | .parameterized descriptor =>
    cases h
    rfl
  | .column f =>
    rw [ScopeStack.resolveType] at h
    split at h
    · cases h
    · split at h
      · rename_i t ht
        cases h
        rw [TypeRef.declared?, ht]
        rfl
      · cases h

/-- The types that validation finds are the declared ones. -/
theorem declared?_of_resolveTypes {scopes : ScopeStack} {keys : List String}
    (hkeys : keys.Pairwise (· < ·)) {types types' : ValuesTypes} {resolved : SortedMap ResolvedType}
    (h : resolveTypes catalog scopes.resolveType keys types = .ok (types', resolved))
    {name : String} {type : ResolvedType} (htype : resolved.get? name = some type) :
    types'.declared? catalog name = some type := by
  match types with
  | .schema reference =>
    rw [resolveTypes] at h
    split at h
    · cases h
    · rename_i schema hschema
      split at h
      · cases h
      · rename_i columns hcolumns
        cases h
        rw [SortedMap.get?, entries_ofList (by rwa [keys_of_schemaColumns hcolumns])] at htype
        obtain ⟨field, hfield, heq⟩ :=
          field?_of_mem_schemaColumns hcolumns _ (mem_of_findEntry htype)
        simp [ValuesTypes.declared?, hschema, hfield, ← heq]
  | .map types =>
    rw [resolveTypes] at h
    split at h
    · cases h
    · rename_i columns hcolumns
      split at h
      · cases h
      · cases h
        have hfst := keys_of_resolveColumns hcolumns
        rw [← hfst] at hkeys
        have hascending (f : TypeRef × ResolvedType → TypeRef) :
            ((columns.map fun c => (c.1, f c.2)).map Prod.fst).Pairwise (· < ·) := by
          rw [List.map_map]
          exact hkeys
        have hascending' (f : TypeRef × ResolvedType → ResolvedType) :
            ((columns.map fun c => (c.1, f c.2)).map Prod.fst).Pairwise (· < ·) := by
          rw [List.map_map]
          exact hkeys
        rw [SortedMap.get?, entries_ofList (hascending' Prod.snd), findEntry_map Prod.snd] at htype
        cases hfound : findEntry name columns with
        | none => simp [hfound] at htype
        | some found =>
          obtain ⟨target, -, htarget⟩ :=
            resolve_of_mem_resolveColumns hcolumns _ (mem_of_findEntry hfound)
          rw [hfound] at htype
          cases htype
          rw [ValuesTypes.declared?, SortedMap.get?, entries_ofList (hascending Prod.fst),
            findEntry_map Prod.fst, hfound]
          exact declared?_of_resolveType htarget

theorem declared?_of_check {scopes : ScopeStack} {table table' : ValuesTable}
    (h : table.check catalog scopes = .ok table') {name : String} {type : ResolvedType}
    (htype : table'.resolved.get? name = some type) :
    table'.types.declared? catalog name = some type := by
  obtain ⟨first, _, types, resolved, -, -, -, htypes, -, rfl⟩ := validate_eq_ok.1 h
  exact declared?_of_resolveTypes first.ascending htypes htype

/-- A field that the shape of a declared source has is one that the source gives. -/
theorem gives_of_declare {scopes : ScopeStack} {source : Source} {shape : SourceShape}
    (h : source.declare catalog scopes = .ok (shape, source.table?)) {name : FieldName}
    {storage : String} {type : Option DataType} (hfield : shape.field name = .ok (storage, type)) :
    source.Gives catalog name storage type := by
  cases name with
  | raw name =>
    cases hfield
    exact .raw _
  | schema name =>
    obtain ⟨origin, sourceName⟩ := source
    cases origin with
    | schema reference =>
      rw [Source.declare] at h
      split at h
      · rename_i schema hschema
        cases h
        rw [SourceShape.field] at hfield
        split at hfield
        · rename_i field hfound
          cases hfield
          exact .schema rfl hschema hfound
        · cases hfield
      · cases h
    | table table =>
      cases h
      cases hfield
      exact .table rfl
    | values table =>
      rw [Source.declare] at h
      split at h
      · rename_i found hcheck
        cases h
        rw [SourceShape.field] at hfield
        split at hfield
        · rename_i t ht
          cases hfield
          exact .values rfl (declared?_of_check hcheck ht)
        · cases hfield
      · cases h
    | subquery query =>
      cases h
      cases hfield
      exact .subquery rfl
    | fragment e =>
      cases h
      cases hfield
      exact .fragment rfl

/-! ### Scopes that mirror queries -/

/-- A source of a scope that stands for a source of a query. -/
def BoundSource.Mirrors (catalog : Catalog) (bound : BoundSource) (source : Source) : Prop :=
  bound.name = source.name ∧
    ∃ scopes, source.declare catalog scopes = .ok (bound.shape, source.table?)

/-- A scope with a source for every source of a query, in the same order. -/
def Scope.Mirrors (catalog : Catalog) (scope : Scope) (sources : List Source) : Prop :=
  scope.sources.length = sources.length ∧
    ∀ (i : Nat) bound source, scope.sources[i]? = some bound → sources[i]? = some source →
      bound.Mirrors catalog source

theorem Scope.Mirrors.source {scope : Scope} {sources : List Source}
    (h : scope.Mirrors catalog sources) {i : Nat} {bound : BoundSource}
    (hbound : scope.sources[i]? = some bound) :
    ∃ source, sources[i]? = some source ∧ bound.Mirrors catalog source := by
  have hlt : i < sources.length := by
    rw [← h.1]
    exact (List.getElem?_eq_some_iff.1 hbound).1
  exact ⟨sources[i], List.getElem?_eq_getElem hlt,
    h.2 i bound _ hbound (List.getElem?_eq_getElem hlt)⟩

theorem Scope.Mirrors.exists_bound {scope : Scope} {sources : List Source}
    (h : scope.Mirrors catalog sources) {source : Source} (hmem : source ∈ sources) :
    ∃ bound ∈ scope.sources, bound.Mirrors catalog source := by
  obtain ⟨i, hi⟩ := List.mem_iff_getElem?.1 hmem
  have hlt : i < scope.sources.length := by
    rw [h.1]
    exact (List.getElem?_eq_some_iff.1 hi).1
  exact ⟨scope.sources[i], List.getElem_mem hlt,
    h.2 i _ source (List.getElem?_eq_getElem hlt) hi⟩

/-- Declaring sources adds one source to the scope for each of them. -/
theorem exists_added_of_declareSources {outer : ScopeStack} {scope scope' : Scope}
    {sources : List Source}
    (h : declareSources catalog outer scope sources = (.ok (sources.map Source.table?), scope')) :
    ∃ added : Scope, scope'.sources = scope.sources ++ added.sources ∧
      added.Mirrors catalog sources := by
  induction sources generalizing scope with
  | nil =>
    cases h
    exact ⟨.empty, (List.append_nil _).symm, rfl, by simp⟩
  | cons source rest ih =>
    obtain ⟨shape, table, next, tables, hdeclare, hadd, hrest, heq⟩ :=
      declareSources_cons_eq_ok.1 h
    rw [List.map_cons] at heq
    cases heq
    obtain ⟨-, rfl⟩ := add_eq_ok.1 hadd
    obtain ⟨added, hsources, hlength, hmirrors⟩ := ih hrest
    refine ⟨⟨⟨scope.sources.length, source.name, shape⟩ :: added.sources⟩, ?_, ?_, ?_⟩
    · rw [hsources, List.append_assoc, List.singleton_append]
    · rw [List.length_cons, List.length_cons, hlength]
    · intro i bound other hbound hother
      cases i with
      | zero =>
        cases hbound
        cases hother
        exact ⟨rfl, _, hdeclare⟩
      | succ i => exact hmirrors i bound other hbound hother

theorem mirrors_of_declareSources {outer : ScopeStack} {scope : Scope} {sources : List Source}
    (h : declareSources catalog outer .empty sources = (.ok (sources.map Source.table?), scope)) :
    scope.Mirrors catalog sources := by
  obtain ⟨added, hsources, hmirrors⟩ := exists_added_of_declareSources h
  obtain rfl : scope = added := by
    cases scope
    cases added
    exact congrArg Scope.mk hsources
  exact hmirrors

/-- The scopes of nested queries, the innermost first. -/
inductive ScopesMirror (catalog : Catalog) : ScopeStack → List Query → Prop where
  | nil : ScopesMirror catalog [] []
  | cons {scope : Scope} {scopes : ScopeStack} {query : Query} {queries : List Query}
      (hplaced : scope.Placed) (hscope : scope.Mirrors catalog query.sources)
      (hscopes : ScopesMirror catalog scopes queries) :
      ScopesMirror catalog (scope :: scopes) (query :: queries)

namespace ScopesMirror

variable {scopes : ScopeStack} {queries : List Query}

theorem placed (h : ScopesMirror catalog scopes queries) : ∀ scope ∈ scopes, scope.Placed := by
  induction h with
  | nil => simp
  | cons hplaced _ _ ih => exact List.forall_mem_cons.2 ⟨hplaced, ih⟩

theorem query (h : ScopesMirror catalog scopes queries) {level : Nat} {scope : Scope}
    (hscope : scopes[level]? = some scope) :
    ∃ query, queries[level]? = some query ∧ scope.Mirrors catalog query.sources := by
  induction h generalizing level with
  | nil => simp at hscope
  | cons hplaced hmirrors hrest ih =>
    cases level with
    | zero =>
      cases hscope
      exact ⟨_, rfl, hmirrors⟩
    | succ level => exact ih (by simpa using hscope)

theorem scope (h : ScopesMirror catalog scopes queries) {level : Nat} {query : Query}
    (hquery : queries[level]? = some query) :
    ∃ scope, scopes[level]? = some scope ∧ scope.Mirrors catalog query.sources := by
  induction h generalizing level with
  | nil => simp at hquery
  | cons hplaced hmirrors hrest ih =>
    cases level with
    | zero =>
      cases hquery
      exact ⟨_, rfl, hmirrors⟩
    | succ level => exact ih (by simpa using hquery)

/-- What a reference resolves to in the scopes is a source of the queries that it means. -/
theorem resolve (h : ScopesMirror catalog scopes queries) {ref : SourceRef} {slot : Slot}
    {bound : BoundSource} (hresolve : scopes.resolve ref = .ok (slot, bound)) :
    ∃ source, slot.Reaches queries source ∧ ref.Means queries slot source ∧
      bound.Mirrors catalog source := by
  obtain ⟨⟨scope, hscope, hbound⟩, hdesignates⟩ := ScopeStack.resolve_eq_ok h.placed hresolve
  obtain ⟨query, hquery, hmirrors⟩ := h.query hscope
  obtain ⟨source, hsource, hname, hdeclare⟩ := hmirrors.source hbound
  refine ⟨source, ⟨query, hquery, hsource⟩, ?_, hname, hdeclare⟩
  cases hdesignates with
  | position hlevel => exact ⟨hlevel, rfl⟩
  | binding hfound hnearest =>
    refine ⟨hname ▸ hfound, ?_⟩
    intro level hlevel nearer hnearer other hother heq
    obtain ⟨scope', hscope', hmirrors'⟩ := h.scope hnearer
    obtain ⟨bound', hmem, hname', -⟩ := hmirrors'.exists_bound hother
    exact hnearest level hlevel scope' hscope' bound' hmem (hname'.trans heq)
  | parentBinding hlevel hfound => exact ⟨hlevel, hname ▸ hfound⟩

theorem source_sound (h : ScopesMirror catalog scopes queries) {ref : SourceRef} {slot : Slot}
    {bound : BoundSource} (hresolve : scopes.resolve ref = .ok (slot, bound)) :
    (Reference.source ref (some slot)).Sound catalog queries := by
  obtain ⟨source, hreaches, hmeans, -⟩ := h.resolve hresolve
  exact ⟨slot, source, rfl, hreaches, hmeans⟩

theorem field_sound (h : ScopesMirror catalog scopes queries) {f : FieldRef}
    (hbind : scopes.bindField f = .ok f) : (Reference.field f).Sound catalog queries := by
  obtain ⟨slot, bound, storage, type, hresolve, hfield, heq⟩ := bindField_eq_ok.1 hbind
  obtain ⟨source, hreaches, hmeans, -, _, hdeclare⟩ := h.resolve hresolve
  exact ⟨⟨slot, storage, type⟩, source, congrArg FieldRef.resolved heq, hreaches, hmeans,
    gives_of_declare hdeclare hfield⟩

end ScopesMirror

/-! ### References of settled trees -/

/-- A target that stands for a type has its own reference resolved. -/
theorem target_sound {scopes : ScopeStack} {queries : List Query}
    (h : ScopesMirror catalog scopes queries) {target : TypeRef} {type : ResolvedType}
    (htarget : scopes.resolveType target = .ok (target, type)) :
    ∀ reference ∈ target.references, reference.Sound catalog queries := by
  cases target with
  | builtin name => simp [TypeRef.references]
  | parameterized descriptor => simp [TypeRef.references]
  | column f =>
    rw [ScopeStack.resolveType] at htarget
    split at htarget
    · cases htarget
    · rename_i bound hbind
      split at htarget
      · cases htarget
        rw [TypeRef.references, List.forall_mem_singleton]
        exact h.field_sound hbind
      · cases htarget

/-- The references that were found in the tree, with the queries around each, are right. -/
def AllSound (catalog : Catalog) (found : List (List Query × Reference)) : Prop :=
  ∀ reference ∈ found, reference.2.Sound catalog reference.1

namespace AllSound

variable {found found' : List (List Query × Reference)}

theorem nil : AllSound catalog [] := by
  simp [AllSound]

theorem append (h : AllSound catalog found) (h' : AllSound catalog found') :
    AllSound catalog (found ++ found') :=
  List.forall_mem_append.2 ⟨h, h'⟩

theorem singleton {queries : List Query} {reference : Reference}
    (h : reference.Sound catalog queries) : AllSound catalog [(queries, reference)] :=
  List.forall_mem_singleton.2 h

end AllSound

mutual

theorem Expr.Settled.references_sound {place : Place} {queries : List Query}
    (hmirror : ScopesMirror place.catalog place.scopes queries) {o : Bool} {k k' : Nat} {e : Expr}
    (h : e.Settled place o k k') : AllSound place.catalog (e.references queries) := by
  match e with
  | .literal _ | .param _ | .values _ | .aliasRef _ => exact .nil
  | .field f =>
    cases h with
    | field hfield => exact .singleton (hmirror.field_sound hfield)
  | .binding r =>
    cases h with
    | binding hslot => exact .singleton (hmirror.source_sound hslot)
  | .parentBinding r =>
    cases h with
    | parentBinding hslot => exact .singleton (hmirror.source_sound hslot)
  | .projection kind p =>
    cases h with
    | projection hslot => exact .singleton (hmirror.source_sound hslot)
  | .operator op operands =>
    cases h with
    | operator _ _ hoperands => exact hoperands.references_sound hmirror
  | .aggregate kind args distinct filter =>
    cases h with
    | aggregate _ hargs hfilter =>
      exact (hargs.references_sound hmirror).append (hfilter.references_sound hmirror)
  | .fragment text parts args =>
    cases h with
    | fragment _ _ hargs => exact hargs.references_sound hmirror
  | .cast value target resolved =>
    cases h with
    | cast hvalue _ _ htarget =>
      refine (hvalue.references_sound hmirror).append ?_
      intro reference hmem
      obtain ⟨own, hown, rfl⟩ := List.mem_map.1 hmem
      exact target_sound hmirror htarget own hown
  | .subquery kind query =>
    cases h with
    | subquery hquery => exact hquery.references_sound hmirror
  | .merge left right =>
    cases h with
    | merge hleft hright =>
      exact (hleft.references_sound hmirror).append (hright.references_sound hmirror)
  | .aliased value name =>
    cases h with
    | aliased hvalue => exact hvalue.references_sound hmirror
  | .jsonPath base path =>
    cases h with
    | jsonPath hfield hpath =>
      exact AllSound.append (.singleton (hmirror.field_sound hfield))
        (hpath.references_sound hmirror)
  | .interval count unit =>
    cases h with
    | interval hcount => exact hcount.references_sound hmirror
  | .tuple items =>
    cases h with
    | tuple hitems => exact hitems.references_sound hmirror
  | .mapping entries =>
    cases h with
    | mapping hentries => exact hentries.references_sound hmirror
termination_by structural e

theorem SettledAll.references_sound {place : Place} {queries : List Query}
    (hmirror : ScopesMirror place.catalog place.scopes queries) {o : Bool} {k k' : Nat}
    {es : List Expr} (h : SettledAll place o k es k') :
    AllSound place.catalog (referencesAll queries es) := by
  match es with
  | [] => exact .nil
  | e :: rest =>
    cases h with
    | cons he hrest =>
      exact (he.references_sound hmirror).append (hrest.references_sound hmirror)
termination_by structural es

theorem SettledEntries.references_sound {place : Place} {queries : List Query}
    (hmirror : ScopesMirror place.catalog place.scopes queries) {o : Bool} {k k' : Nat}
    {entries : List (String × Expr)} (h : SettledEntries place o k entries k') :
    AllSound place.catalog (referencesEntries queries entries) := by
  match entries with
  | [] => exact .nil
  | (key, e) :: rest =>
    cases h with
    | cons he hrest =>
      exact (he.references_sound hmirror).append (hrest.references_sound hmirror)
termination_by structural entries

theorem SettledOption.references_sound {place : Place} {queries : List Query}
    (hmirror : ScopesMirror place.catalog place.scopes queries) {o : Bool} {k k' : Nat}
    {e : Option Expr} (h : SettledOption place o k e k') :
    AllSound place.catalog (referencesOption queries e) := by
  match e with
  | none => exact .nil
  | some e =>
    cases h with
    | some he => exact he.references_sound hmirror
termination_by structural e

theorem SettledArgs.references_sound {place : Place} {queries : List Query}
    (hmirror : ScopesMirror place.catalog place.scopes queries) {k k' : Nat}
    {args : List FragmentArg} (h : SettledArgs place k args k') :
    AllSound place.catalog (referencesArgs queries args) := by
  match args with
  | [] => exact .nil
  | .mk role e :: rest =>
    cases h with
    | parameter he hrest =>
      exact (he.references_sound hmirror).append (hrest.references_sound hmirror)
    | inline _ hrest => exact hrest.references_sound hmirror
    | splice _ _ hrest => exact hrest.references_sound hmirror
termination_by structural args

theorem SettledPath.references_sound {place : Place} {queries : List Query}
    (hmirror : ScopesMirror place.catalog place.scopes queries) {k k' : Nat} {path : List PathStep}
    (h : SettledPath place k path k') : AllSound place.catalog (referencesPath queries path) := by
  match path with
  | [] => exact .nil
  | .computed e :: rest =>
    cases h with
    | computed he hrest =>
      exact (he.references_sound hmirror).append (hrest.references_sound hmirror)
  | .key name :: rest =>
    cases h with
    | key hrest => exact hrest.references_sound hmirror
  | .index i :: rest =>
    cases h with
    | index hrest => exact hrest.references_sound hmirror
termination_by structural path

theorem SettledTerms.references_sound {place : Place} {queries : List Query}
    (hmirror : ScopesMirror place.catalog place.scopes queries) {k k' : Nat}
    {terms : List OrderTerm} (h : SettledTerms place k terms k') :
    AllSound place.catalog (referencesTerms queries terms) := by
  match terms with
  | [] => exact .nil
  | .mk e direction :: rest =>
    cases h with
    | cons he hrest =>
      exact (he.references_sound hmirror).append (hrest.references_sound hmirror)
termination_by structural terms

theorem Source.Settled.references_sound {place : Place} {queries : List Query}
    (hmirror : ScopesMirror place.catalog place.scopes queries) {k k' : Nat} {source : Source}
    (h : source.Settled place k k') : AllSound place.catalog (source.references queries) := by
  match source with
  | .mk (.schema _) _ | .mk (.table _) _ | .mk (.values _) _ => exact .nil
  | .mk (.subquery query) name =>
    cases h with
    | subquery hquery => exact hquery.references_sound hmirror
  | .mk (.fragment e) name =>
    cases h with
    | fragment _ he => exact he.references_sound hmirror
termination_by structural source

theorem SettledJoins.references_sound {place : Place} {queries : List Query}
    (hmirror : ScopesMirror place.catalog place.scopes queries) {k k' : Nat} {joins : List Join}
    (h : SettledJoins place k joins k') :
    AllSound place.catalog (referencesJoins queries joins) := by
  match joins with
  | [] => exact .nil
  | .mk kind source on :: rest =>
    cases h with
    | cons hsource hon hrest =>
      exact ((hsource.references_sound hmirror).append (hon.references_sound hmirror)).append
        (hrest.references_sound hmirror)
termination_by structural joins

theorem Query.Settled.references_sound {place : Place} {queries : List Query}
    (hmirror : ScopesMirror place.catalog place.scopes queries) {k k' : Nat} {query : Query}
    (h : query.Settled place k k') : AllSound place.catalog (query.references queries) := by
  match query with
  | .mk source joins wheres select groupBy having orderBy limit offset distinct =>
    cases h with
    | mk _ hdeclared _ hselect _ hsource hjoins hwheres _ hgroupBy hhaving horderBy hlimit _
        hoffset =>
      have hinside : ScopesMirror place.catalog (_ :: place.scopes)
          (.mk source joins wheres select groupBy having orderBy limit offset distinct ::
            queries) :=
        .cons (declareSources_placed Scope.empty_placed hdeclared)
          (mirrors_of_declareSources hdeclared) hmirror
      have hsources := ((hsource.references_sound hinside).append
        (hjoins.references_sound hinside)).append (hwheres.references_sound hinside)
      have hgroups := ((hsources.append (hselect.references_sound hinside)).append
        (hgroupBy.references_sound hinside)).append (hhaving.references_sound hinside)
      exact ((hgroups.append (horderBy.references_sound hinside)).append
        (hlimit.references_sound hinside)).append (hoffset.references_sound hinside)
termination_by structural query

end

/--
Every reference in a compiled query, at whatever depth, has a slot that reaches the source it means
through the queries that enclose it, and every field has the storage name and the type that this
source gives it.
-/
theorem compile_references (catalog : Catalog) (config : Config) (query : Query) (c : CompiledQuery)
    (h : query.compile catalog config = .ok c) :
    ∀ reference ∈ c.query.references [], reference.2.Sound catalog reference.1 := by
  obtain ⟨count, hsettled, -⟩ := Query.settled_of_compile h
  have hmirror : ScopesMirror catalog (Place.top catalog config).scopes [] := .nil
  exact hsettled.references_sound hmirror

/-- Of the references, the two in the filter of the comments stand inside two queries. -/
theorem compile_references_commentedPosts :
    ∃ c, commentedPosts.compile postCatalog .default = .ok c ∧
      ((c.query.references []).map fun reference => reference.1.length) = [1, 1, 1, 2, 2, 1] ∧
      ∀ reference ∈ c.query.references [], reference.2.Sound postCatalog reference.1 :=
  ⟨_, rfl, rfl, compile_references postCatalog .default commentedPosts _ rfl⟩

end QueryCompiler
