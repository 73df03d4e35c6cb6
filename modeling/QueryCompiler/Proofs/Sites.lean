import QueryCompiler.Proofs.Parts
import QueryCompiler.Proofs.Resolution

/-!
# Sites

A site is a part of a query together with the queries that enclose it, the innermost first. What a
settled query requires of its parts is said here once for every site, so that a statement about all
parts of a compiled query needs no induction of its own.
-/

namespace QueryCompiler

/-! ### Collection -/

mutual

/-- An expression that stands in the first of some nested queries, and what it consists of. -/
def Expr.sites (queries : List Query) (e : Expr) : List (List Query × Part) :=
  (queries, .expr e) :: match e with
    | .operator _ operands => sitesAll queries operands
    | .aggregate _ args _ filter => sitesAll queries args ++ sitesOption queries filter
    | .fragment _ _ args => sitesArgs queries args
    | .cast value _ _ => value.sites queries
    | .subquery _ query => query.sites queries
    | .values table => [(queries, .table table)]
    | .merge left right => left.sites queries ++ right.sites queries
    | .aliased value _ => value.sites queries
    | .jsonPath base path => base.sites queries ++ sitesPath queries path
    | .interval count _ => count.sites queries
    | .tuple items => sitesAll queries items
    | .mapping entries => sitesEntries queries entries
    | .literal _ | .param _ | .field _ | .binding _ | .parentBinding _ | .projection _ _
    | .aliasRef _ => []

def sitesAll (queries : List Query) : List Expr → List (List Query × Part)
  | [] => []
  | e :: rest => e.sites queries ++ sitesAll queries rest

def sitesOption (queries : List Query) : Option Expr → List (List Query × Part)
  | none => []
  | some e => e.sites queries

def sitesArgs (queries : List Query) : List FragmentArg → List (List Query × Part)
  | [] => []
  | .mk _ e :: rest => e.sites queries ++ sitesArgs queries rest

def sitesPath (queries : List Query) : List PathStep → List (List Query × Part)
  | [] => []
  | .computed e :: rest => e.sites queries ++ sitesPath queries rest
  | .key _ :: rest => sitesPath queries rest
  | .index _ :: rest => sitesPath queries rest

def sitesEntries (queries : List Query) : List (String × Expr) → List (List Query × Part)
  | [] => []
  | (_, e) :: rest => e.sites queries ++ sitesEntries queries rest

def sitesTerms (queries : List Query) : List OrderTerm → List (List Query × Part)
  | [] => []
  | .mk e _ :: rest => e.sites queries ++ sitesTerms queries rest

def Source.sites (queries : List Query) : Source → List (List Query × Part)
  | .mk (.schema _) _ => []
  | .mk (.table _) _ => []
  | .mk (.values table) _ => [(queries, .table table)]
  | .mk (.subquery query) _ => query.sites queries
  | .mk (.fragment e) _ => e.sites queries

def sitesJoins (queries : List Query) : List Join → List (List Query × Part)
  | [] => []
  | .mk _ source on :: rest =>
    source.sites queries ++ sitesOption queries on ++ sitesJoins queries rest

/-- A query that other queries enclose, and what it consists of. -/
def Query.sites (outer : List Query) (query : Query) : List (List Query × Part) :=
  (outer, .query query) :: match query with
    | .mk source joins wheres select groupBy having orderBy limit offset distinct =>
      let queries :=
        .mk source joins wheres select groupBy having orderBy limit offset distinct :: outer
      source.sites queries ++ sitesJoins queries joins ++ sitesAll queries wheres ++
        sitesOption queries select ++ sitesAll queries groupBy ++ sitesAll queries having ++
        sitesTerms queries orderBy ++ sitesOption queries limit ++ sitesOption queries offset

end

/-! ### Sites and parts -/

mutual

/-- The parts at the sites of an expression are its parts, in the same order. -/
theorem Expr.map_snd_sites (queries : List Query) (level : Nat) (e : Expr) :
    (e.sites queries).map Prod.snd = (e.parts level).map Prod.snd := by
  rw [Expr.sites.eq_def, Expr.parts.eq_def, List.map_cons, List.map_cons]
  congr 1
  match e with
  | .literal _ | .param _ | .field _ | .binding _ | .parentBinding _ | .projection _ _
  | .aliasRef _ | .values _ => rfl
  | .operator op operands => exact map_snd_sitesAll queries level operands
  | .aggregate kind args distinct filter =>
    simp only [List.map_append, map_snd_sitesAll queries level args,
      map_snd_sitesOption queries level filter]
  | .fragment text parts args => exact map_snd_sitesArgs queries level args
  | .cast value target resolved => exact Expr.map_snd_sites queries level value
  | .subquery kind query => exact Query.map_snd_sites queries (level + 1) query
  | .merge left right =>
    simp only [List.map_append, Expr.map_snd_sites queries level left,
      Expr.map_snd_sites queries level right]
  | .aliased value name => exact Expr.map_snd_sites queries level value
  | .jsonPath base path =>
    simp only [List.map_append, Expr.map_snd_sites queries level base,
      map_snd_sitesPath queries level path]
  | .interval count unit => exact Expr.map_snd_sites queries level count
  | .tuple items => exact map_snd_sitesAll queries level items
  | .mapping entries => exact map_snd_sitesEntries queries level entries
termination_by structural e

theorem map_snd_sitesAll (queries : List Query) (level : Nat) (es : List Expr) :
    (sitesAll queries es).map Prod.snd = (partsAll level es).map Prod.snd := by
  match es with
  | [] => rfl
  | e :: rest =>
    rw [sitesAll, partsAll, List.map_append, List.map_append, Expr.map_snd_sites queries level e,
      map_snd_sitesAll queries level rest]
termination_by structural es

theorem map_snd_sitesOption (queries : List Query) (level : Nat) (e : Option Expr) :
    (sitesOption queries e).map Prod.snd = (partsOption level e).map Prod.snd := by
  match e with
  | none => rfl
  | some e => exact Expr.map_snd_sites queries level e
termination_by structural e

theorem map_snd_sitesArgs (queries : List Query) (level : Nat) (args : List FragmentArg) :
    (sitesArgs queries args).map Prod.snd = (partsArgs level args).map Prod.snd := by
  match args with
  | [] => rfl
  | .mk role e :: rest =>
    rw [sitesArgs, partsArgs, List.map_append, List.map_append, Expr.map_snd_sites queries level e,
      map_snd_sitesArgs queries level rest]
termination_by structural args

theorem map_snd_sitesPath (queries : List Query) (level : Nat) (path : List PathStep) :
    (sitesPath queries path).map Prod.snd = (partsPath level path).map Prod.snd := by
  match path with
  | [] => rfl
  | .computed e :: rest =>
    rw [sitesPath, partsPath, List.map_append, List.map_append, Expr.map_snd_sites queries level e,
      map_snd_sitesPath queries level rest]
  | .key _ :: rest => exact (map_snd_sitesPath queries level rest :)
  | .index _ :: rest => exact (map_snd_sitesPath queries level rest :)
termination_by structural path

theorem map_snd_sitesEntries (queries : List Query) (level : Nat)
    (entries : List (String × Expr)) :
    (sitesEntries queries entries).map Prod.snd = (partsEntries level entries).map Prod.snd := by
  match entries with
  | [] => rfl
  | (key, e) :: rest =>
    rw [sitesEntries, partsEntries, List.map_append, List.map_append,
      Expr.map_snd_sites queries level e, map_snd_sitesEntries queries level rest]
termination_by structural entries

theorem map_snd_sitesTerms (queries : List Query) (level : Nat) (terms : List OrderTerm) :
    (sitesTerms queries terms).map Prod.snd = (partsTerms level terms).map Prod.snd := by
  match terms with
  | [] => rfl
  | .mk e direction :: rest =>
    rw [sitesTerms, partsTerms, List.map_append, List.map_append,
      Expr.map_snd_sites queries level e, map_snd_sitesTerms queries level rest]
termination_by structural terms

theorem Source.map_snd_sites (queries : List Query) (level : Nat) (source : Source) :
    (source.sites queries).map Prod.snd = (source.parts level).map Prod.snd := by
  match source with
  | .mk (.schema _) _ | .mk (.table _) _ | .mk (.values _) _ => rfl
  | .mk (.subquery query) name => exact Query.map_snd_sites queries (level + 1) query
  | .mk (.fragment e) name => exact Expr.map_snd_sites queries level e
termination_by structural source

theorem map_snd_sitesJoins (queries : List Query) (level : Nat) (joins : List Join) :
    (sitesJoins queries joins).map Prod.snd = (partsJoins level joins).map Prod.snd := by
  match joins with
  | [] => rfl
  | .mk kind source on :: rest =>
    simp only [sitesJoins, partsJoins, List.map_append, Source.map_snd_sites queries level source,
      map_snd_sitesOption queries level on, map_snd_sitesJoins queries level rest]
termination_by structural joins

theorem Query.map_snd_sites (outer : List Query) (level : Nat) (query : Query) :
    (query.sites outer).map Prod.snd = (query.parts level).map Prod.snd := by
  match query with
  | .mk source joins wheres select groupBy having orderBy limit offset distinct =>
    simp only [Query.sites, Query.parts, List.map_cons, List.map_append,
      Source.map_snd_sites _ level source, map_snd_sitesJoins _ level joins,
      map_snd_sitesAll _ level wheres, map_snd_sitesOption _ level select,
      map_snd_sitesAll _ level groupBy, map_snd_sitesAll _ level having,
      map_snd_sitesTerms _ level orderBy, map_snd_sitesOption _ level limit,
      map_snd_sitesOption _ level offset]
termination_by structural query

end

/-- Every part of a query stands at some site. -/
theorem exists_site_of_mem_parts {query : Query} {part : Nat × Part} (h : part ∈ query.parts 0) :
    ∃ queries, (queries, part.2) ∈ query.sites [] := by
  have hmem : part.2 ∈ (query.sites []).map Prod.snd := by
    rw [Query.map_snd_sites [] 0]
    exact List.mem_map_of_mem h
  obtain ⟨⟨queries, _⟩, hsite, rfl⟩ := List.mem_map.1 hmem
  exact ⟨queries, hsite⟩

/-! ### The queries around a site -/

/-- Everything that was found stands in some queries, of which these are the outermost. -/
def AllWithin (queries : List Query) (found : List (List Query × Part)) : Prop :=
  ∀ site ∈ found, queries <:+ site.1

namespace AllWithin

variable {queries : List Query} {found found' : List (List Query × Part)}

theorem nil : AllWithin queries [] := by
  simp [AllWithin]

theorem append (h : AllWithin queries found) (h' : AllWithin queries found') :
    AllWithin queries (found ++ found') :=
  List.forall_mem_append.2 ⟨h, h'⟩

theorem cons {part : Part} (h : AllWithin queries found) :
    AllWithin queries ((queries, part) :: found) :=
  List.forall_mem_cons.2 ⟨List.suffix_refl queries, h⟩

theorem outward {query : Query} (h : AllWithin (query :: queries) found) :
    AllWithin queries found :=
  fun site hsite => (List.suffix_cons query queries).trans (h site hsite)

end AllWithin

mutual

theorem Expr.sites_within (queries : List Query) (e : Expr) :
    AllWithin queries (e.sites queries) := by
  rw [Expr.sites.eq_def]
  refine .cons ?_
  match e with
  | .literal _ | .param _ | .field _ | .binding _ | .parentBinding _ | .projection _ _
  | .aliasRef _ => exact .nil
  | .values table => exact .cons .nil
  | .operator op operands => exact sitesAll_within queries operands
  | .aggregate kind args distinct filter =>
    exact (sitesAll_within queries args).append (sitesOption_within queries filter)
  | .fragment text parts args => exact sitesArgs_within queries args
  | .cast value target resolved => exact Expr.sites_within queries value
  | .subquery kind query => exact Query.sites_within queries query
  | .merge left right =>
    exact (Expr.sites_within queries left).append (Expr.sites_within queries right)
  | .aliased value name => exact Expr.sites_within queries value
  | .jsonPath base path =>
    exact (Expr.sites_within queries base).append (sitesPath_within queries path)
  | .interval count unit => exact Expr.sites_within queries count
  | .tuple items => exact sitesAll_within queries items
  | .mapping entries => exact sitesEntries_within queries entries
termination_by structural e

theorem sitesAll_within (queries : List Query) (es : List Expr) :
    AllWithin queries (sitesAll queries es) := by
  match es with
  | [] => exact .nil
  | e :: rest => exact (Expr.sites_within queries e).append (sitesAll_within queries rest)
termination_by structural es

theorem sitesOption_within (queries : List Query) (e : Option Expr) :
    AllWithin queries (sitesOption queries e) := by
  match e with
  | none => exact .nil
  | some e => exact Expr.sites_within queries e
termination_by structural e

theorem sitesArgs_within (queries : List Query) (args : List FragmentArg) :
    AllWithin queries (sitesArgs queries args) := by
  match args with
  | [] => exact .nil
  | .mk role e :: rest =>
    exact (Expr.sites_within queries e).append (sitesArgs_within queries rest)
termination_by structural args

theorem sitesPath_within (queries : List Query) (path : List PathStep) :
    AllWithin queries (sitesPath queries path) := by
  match path with
  | [] => exact .nil
  | .computed e :: rest =>
    exact (Expr.sites_within queries e).append (sitesPath_within queries rest)
  | .key _ :: rest => exact sitesPath_within queries rest
  | .index _ :: rest => exact sitesPath_within queries rest
termination_by structural path

theorem sitesEntries_within (queries : List Query) (entries : List (String × Expr)) :
    AllWithin queries (sitesEntries queries entries) := by
  match entries with
  | [] => exact .nil
  | (key, e) :: rest =>
    exact (Expr.sites_within queries e).append (sitesEntries_within queries rest)
termination_by structural entries

theorem sitesTerms_within (queries : List Query) (terms : List OrderTerm) :
    AllWithin queries (sitesTerms queries terms) := by
  match terms with
  | [] => exact .nil
  | .mk e direction :: rest =>
    exact (Expr.sites_within queries e).append (sitesTerms_within queries rest)
termination_by structural terms

theorem Source.sites_within (queries : List Query) (source : Source) :
    AllWithin queries (source.sites queries) := by
  match source with
  | .mk (.schema _) _ | .mk (.table _) _ => exact .nil
  | .mk (.values _) _ => exact .cons .nil
  | .mk (.subquery query) name => exact Query.sites_within queries query
  | .mk (.fragment e) name => exact Expr.sites_within queries e
termination_by structural source

theorem sitesJoins_within (queries : List Query) (joins : List Join) :
    AllWithin queries (sitesJoins queries joins) := by
  match joins with
  | [] => exact .nil
  | .mk kind source on :: rest =>
    exact ((Source.sites_within queries source).append (sitesOption_within queries on)).append
      (sitesJoins_within queries rest)
termination_by structural joins

theorem Query.sites_within (outer : List Query) (query : Query) :
    AllWithin outer (query.sites outer) := by
  rw [Query.sites.eq_def]
  refine .cons ?_
  match query with
  | .mk source joins wheres select groupBy having orderBy limit offset distinct =>
    let queries : List Query :=
      .mk source joins wheres select groupBy having orderBy limit offset distinct :: outer
    have hsources := ((Source.sites_within queries source).append
      (sitesJoins_within queries joins)).append (sitesAll_within queries wheres)
    have hgroups := ((hsources.append (sitesOption_within queries select)).append
      (sitesAll_within queries groupBy)).append (sitesAll_within queries having)
    exact (((hgroups.append (sitesTerms_within queries orderBy)).append
      (sitesOption_within queries limit)).append (sitesOption_within queries offset)).outward
termination_by structural query

end

/-! ### Sites of settled queries -/

/-- What a settled query requires of a part, seen from the queries that enclose the part. -/
def Part.Settled (catalog : Catalog) (queries : List Query) : Part → Prop
  | .expr e => ∃ place outermost k k', place.catalog = catalog ∧
      ScopesMirror catalog place.scopes queries ∧ e.Settled place outermost k k'
  | .table t => t.firstParam.isSome ∧ ∃ scopes, t.check catalog scopes = .ok t
  | .query q => ∃ place k k', place.catalog = catalog ∧
      ScopesMirror catalog place.scopes queries ∧ q.Settled place k k'

/-- All parts that were found are settled, each where it stands. -/
def AllSettled (catalog : Catalog) (found : List (List Query × Part)) : Prop :=
  ∀ site ∈ found, site.2.Settled catalog site.1

namespace AllSettled

variable {catalog : Catalog} {found found' : List (List Query × Part)}

theorem nil : AllSettled catalog [] := by
  simp [AllSettled]

theorem append (h : AllSettled catalog found) (h' : AllSettled catalog found') :
    AllSettled catalog (found ++ found') :=
  List.forall_mem_append.2 ⟨h, h'⟩

theorem expr {place : Place} {queries : List Query}
    (hmirror : ScopesMirror place.catalog place.scopes queries) {o : Bool} {k k' : Nat} {e : Expr}
    (he : e.Settled place o k k') (h : AllSettled place.catalog found) :
    AllSettled place.catalog ((queries, .expr e) :: found) :=
  List.forall_mem_cons.2 ⟨⟨place, o, k, k', rfl, hmirror, he⟩, h⟩

theorem table {queries : List Query} {k : Nat} {table : ValuesTable} {scopes : ScopeStack}
    (hcheck : table.check catalog scopes = .ok table) (hindex : table.firstParam = some k) :
    AllSettled catalog [(queries, .table table)] :=
  List.forall_mem_singleton.2 ⟨Option.isSome_of_eq_some hindex, scopes, hcheck⟩

end AllSettled

/-- The values table of a declared source has been checked. -/
theorem check_of_declareSources {catalog : Catalog} {outer : ScopeStack} {scope : Scope}
    {sources : List Source}
    (h : declareSources catalog outer .empty sources = (.ok (sources.map Source.table?), scope)) :
    ∀ source ∈ sources, ∀ table, source.table? = some table →
      ∃ scopes, table.check catalog scopes = .ok table := by
  intro source hmem table htable
  obtain ⟨⟨_, _, shape⟩, -, -, scopes, hdeclare⟩ :=
    (mirrors_of_declareSources h).exists_bound hmem
  obtain ⟨origin, name⟩ := source
  cases origin with
  | values declared =>
    cases htable
    rw [Source.declare] at hdeclare
    split at hdeclare
    · rename_i found hcheck
      cases hdeclare
      exact ⟨scopes, hcheck⟩
    · cases hdeclare
  | schema _ | table _ | subquery _ | fragment _ => cases htable

mutual

theorem Expr.Settled.sites {place : Place} {queries : List Query}
    (hmirror : ScopesMirror place.catalog place.scopes queries) {o : Bool} {k k' : Nat} {e : Expr}
    (h : e.Settled place o k k') : AllSettled place.catalog (e.sites queries) := by
  rw [Expr.sites.eq_def]
  refine .expr hmirror h ?_
  match e with
  | .literal _ | .param _ | .field _ | .binding _ | .parentBinding _ | .projection _ _
  | .aliasRef _ => exact .nil
  | .values table =>
    cases h with
    | values hcheck hindex => exact .table hcheck hindex
  | .operator op operands =>
    cases h with
    | operator _ _ hoperands => exact hoperands.sites hmirror
  | .aggregate kind args distinct filter =>
    cases h with
    | aggregate _ hargs hfilter => exact (hargs.sites hmirror).append (hfilter.sites hmirror)
  | .fragment text parts args =>
    cases h with
    | fragment _ _ hargs => exact hargs.sites hmirror
  | .cast value target resolved =>
    cases h with
    | cast hvalue => exact hvalue.sites hmirror
  | .subquery kind query =>
    cases h with
    | subquery hquery => exact hquery.sites hmirror
  | .merge left right =>
    cases h with
    | merge hleft hright => exact (hleft.sites hmirror).append (hright.sites hmirror)
  | .aliased value name =>
    cases h with
    | aliased hvalue => exact hvalue.sites hmirror
  | .jsonPath base path =>
    cases h with
    | jsonPath hfield hpath =>
      have hbase : (Expr.field _).Settled place false k k := .field hfield
      exact AllSettled.append (.expr hmirror hbase .nil) (hpath.sites hmirror)
  | .interval count unit =>
    cases h with
    | interval hcount => exact hcount.sites hmirror
  | .tuple items =>
    cases h with
    | tuple hitems => exact hitems.sites hmirror
  | .mapping entries =>
    cases h with
    | mapping hentries => exact hentries.sites hmirror
termination_by structural e

theorem SettledAll.sites {place : Place} {queries : List Query}
    (hmirror : ScopesMirror place.catalog place.scopes queries) {o : Bool} {k k' : Nat}
    {es : List Expr} (h : SettledAll place o k es k') :
    AllSettled place.catalog (sitesAll queries es) := by
  match es with
  | [] => exact .nil
  | e :: rest =>
    cases h with
    | cons he hrest => exact (he.sites hmirror).append (hrest.sites hmirror)
termination_by structural es

theorem SettledEntries.sites {place : Place} {queries : List Query}
    (hmirror : ScopesMirror place.catalog place.scopes queries) {o : Bool} {k k' : Nat}
    {entries : List (String × Expr)} (h : SettledEntries place o k entries k') :
    AllSettled place.catalog (sitesEntries queries entries) := by
  match entries with
  | [] => exact .nil
  | (key, e) :: rest =>
    cases h with
    | cons he hrest => exact (he.sites hmirror).append (hrest.sites hmirror)
termination_by structural entries

theorem SettledOption.sites {place : Place} {queries : List Query}
    (hmirror : ScopesMirror place.catalog place.scopes queries) {o : Bool} {k k' : Nat}
    {e : Option Expr} (h : SettledOption place o k e k') :
    AllSettled place.catalog (sitesOption queries e) := by
  match e with
  | none => exact .nil
  | some e =>
    cases h with
    | some he => exact he.sites hmirror
termination_by structural e

theorem SettledArgs.sites {place : Place} {queries : List Query}
    (hmirror : ScopesMirror place.catalog place.scopes queries) {k k' : Nat}
    {args : List FragmentArg} (h : SettledArgs place k args k') :
    AllSettled place.catalog (sitesArgs queries args) := by
  match args with
  | [] => exact .nil
  | .mk role e :: rest =>
    obtain ⟨_, he, hrest⟩ := h.of_cons
    exact (he.sites hmirror).append (hrest.sites hmirror)
termination_by structural args

theorem SettledPath.sites {place : Place} {queries : List Query}
    (hmirror : ScopesMirror place.catalog place.scopes queries) {k k' : Nat} {path : List PathStep}
    (h : SettledPath place k path k') : AllSettled place.catalog (sitesPath queries path) := by
  match path with
  | [] => exact .nil
  | .computed e :: rest =>
    cases h with
    | computed he hrest => exact (he.sites hmirror).append (hrest.sites hmirror)
  | .key name :: rest =>
    cases h with
    | key hrest => exact hrest.sites hmirror
  | .index i :: rest =>
    cases h with
    | index hrest => exact hrest.sites hmirror
termination_by structural path

theorem SettledTerms.sites {place : Place} {queries : List Query}
    (hmirror : ScopesMirror place.catalog place.scopes queries) {k k' : Nat}
    {terms : List OrderTerm} (h : SettledTerms place k terms k') :
    AllSettled place.catalog (sitesTerms queries terms) := by
  match terms with
  | [] => exact .nil
  | .mk e direction :: rest =>
    cases h with
    | cons he hrest => exact (he.sites hmirror).append (hrest.sites hmirror)
termination_by structural terms

/-- That the table of a source has been checked is known from the declaration of the sources. -/
theorem Source.Settled.sites {place : Place} {queries : List Query}
    (hmirror : ScopesMirror place.catalog place.scopes queries) {k k' : Nat} {source : Source}
    (h : source.Settled place k k')
    (hcheck : ∀ table, source.table? = some table →
      ∃ scopes, table.check place.catalog scopes = .ok table) :
    AllSettled place.catalog (source.sites queries) := by
  match source with
  | .mk (.schema _) _ | .mk (.table _) _ => exact .nil
  | .mk (.values table) name =>
    cases h with
    | values hindex =>
      obtain ⟨scopes, hcheck⟩ := hcheck table rfl
      exact .table hcheck hindex
  | .mk (.subquery query) name =>
    cases h with
    | subquery hquery => exact hquery.sites hmirror
  | .mk (.fragment e) name =>
    cases h with
    | fragment _ he => exact he.sites hmirror
termination_by structural source

theorem SettledJoins.sites {place : Place} {queries : List Query}
    (hmirror : ScopesMirror place.catalog place.scopes queries) {k k' : Nat} {joins : List Join}
    (h : SettledJoins place k joins k')
    (hcheck : ∀ source ∈ joins.map Join.source, ∀ table, source.table? = some table →
      ∃ scopes, table.check place.catalog scopes = .ok table) :
    AllSettled place.catalog (sitesJoins queries joins) := by
  match joins with
  | [] => exact .nil
  | .mk kind source on :: rest =>
    rw [List.map_cons, List.forall_mem_cons] at hcheck
    cases h with
    | cons hsource hon hrest =>
      exact ((hsource.sites hmirror hcheck.1).append (hon.sites hmirror)).append
        (hrest.sites hmirror hcheck.2)
termination_by structural joins

/-- Every part of a settled query is settled where it stands. -/
theorem Query.Settled.sites {place : Place} {queries : List Query}
    (hmirror : ScopesMirror place.catalog place.scopes queries) {k k' : Nat} {query : Query}
    (h : query.Settled place k k') : AllSettled place.catalog (query.sites queries) := by
  rw [Query.sites.eq_def]
  refine List.forall_mem_cons.2 ⟨⟨place, k, k', rfl, hmirror, h⟩, ?_⟩
  match query with
  | .mk source joins wheres select groupBy having orderBy limit offset distinct =>
    cases h with
    | mk _ hdeclared _ hselect _ hsource hjoins hwheres _ hgroupBy hhaving horderBy hlimit _
        hoffset =>
      have hcheck := check_of_declareSources hdeclared
      rw [List.forall_mem_cons] at hcheck
      have hinside : ScopesMirror place.catalog (_ :: place.scopes)
          (.mk source joins wheres select groupBy having orderBy limit offset distinct ::
            queries) :=
        .cons (declareSources_placed Scope.empty_placed hdeclared)
          (mirrors_of_declareSources hdeclared) hmirror
      have hsources := ((hsource.sites hinside hcheck.1).append
        (hjoins.sites hinside hcheck.2)).append (hwheres.sites hinside)
      have hgroups := ((hsources.append (hselect.sites hinside)).append
        (hgroupBy.sites hinside)).append (hhaving.sites hinside)
      exact ((hgroups.append (horderBy.sites hinside)).append
        (hlimit.sites hinside)).append (hoffset.sites hinside)
termination_by structural query

end

/-- Every part of a compiled query is settled where it stands. -/
theorem sites_of_compile {catalog : Catalog} {config : Config} {query : Query} {c : CompiledQuery}
    (h : query.compile catalog config = .ok c) : AllSettled catalog (c.query.sites []) := by
  obtain ⟨count, hsettled, -⟩ := Query.settled_of_compile h
  have hmirror : ScopesMirror catalog (Place.top catalog config).scopes [] := .nil
  exact hsettled.sites hmirror

end QueryCompiler
