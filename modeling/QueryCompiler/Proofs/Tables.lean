import Mathlib.Data.List.Nodup
import QueryCompiler.Proofs.ParamTypes
import QueryCompiler.Proofs.Sites

/-!
# Values tables of compiled queries

The cells of a values table are numbered when it is bound, and read back when the parameters are
collected. They are found row by row from the first index of the table on, each with the type of its
field, and no other table or parameter has one of their indices.
-/

namespace QueryCompiler

variable {catalog : Catalog}

/-! ### Cells -/

/-- What binding makes of a values table, given the parameters of the query. -/
structure ValuesTable.BoundIn (table : ValuesTable) (params : List BoundParam) : Prop where
  rows : table.rows ≠ []
  fields : table.fieldNames ≠ []
  sorted : table.fieldNames.Pairwise (· < ·)
  keys : ∀ row ∈ table.rows, row.keys = table.fieldNames
  resolved : table.resolved.keys = table.fieldNames
  cells : ∃ first, table.firstParam = some first ∧
    ∀ (r c : Nat) row field, table.rows[r]? = some row → table.fieldNames[c]? = some field →
      ∃ value type, row.get? field = some value ∧ table.resolved.get? field = some type ∧
        params[first + r * table.fieldNames.length + c]? = some ⟨value, some type, false⟩ ∧
        ∀ t, type = .builtin t → t.accepts value = true

/-- In lists of one length, joined one after another, an item stands row by row. -/
theorem getElem?_flatMap_of_length {α β : Type} {f : α → List β} {width : Nat} {xs : List α}
    (h : ∀ x ∈ xs, (f x).length = width) {i j : Nat} {x : α} (hi : xs[i]? = some x)
    (hj : j < width) : (xs.flatMap f)[i * width + j]? = (f x)[j]? := by
  induction xs generalizing i with
  | nil => cases hi
  | cons first rest ih =>
    rw [List.forall_mem_cons] at h
    cases i with
    | zero =>
      cases hi
      rw [List.flatMap_cons, Nat.zero_mul, Nat.zero_add,
        List.getElem?_append_left (h.1.symm ▸ hj)]
    | succ i =>
      rw [List.getElem?_cons_succ] at hi
      rw [← ih h.2 hi, List.flatMap_cons, Nat.succ_mul, List.getElem?_append_right (by omega), h.1]
      congr 1
      omega

/-- A cell of a regular table stands in the order of binding at its row and field. -/
theorem ValuesTable.Regular.getElem?_cells {table : ValuesTable} (h : table.Regular) {r c : Nat}
    {row : Row} {field : String} (hrow : table.rows[r]? = some row)
    (hfield : table.fieldNames[c]? = some field) :
    ∃ value, (field, value) ∈ row.entries ∧
      table.cells[r * table.fieldNames.length + c]? =
        some (value, table.resolved.get? field) := by
  have hlength : ∀ row ∈ table.rows,
      (row.entries.map fun e => (e.2, table.resolved.get? e.1)).length =
        table.fieldNames.length := by
    intro row hmem
    rw [List.length_map, h.fieldNames_eq, ← h.2 row hmem, SortedMap.keys, List.length_map]
  have hlt := (List.getElem?_eq_some_iff.1 hfield).1
  have hkeys : row.keys = table.fieldNames := by
    rw [h.2 row (List.mem_of_getElem? hrow), h.fieldNames_eq]
  rw [← hkeys, SortedMap.keys, List.getElem?_map, Option.map_eq_some_iff] at hfield
  obtain ⟨⟨_, value⟩, hentry, rfl⟩ := hfield
  refine ⟨value, List.mem_of_getElem? hentry, ?_⟩
  rw [ValuesTable.cells, getElem?_flatMap_of_length hlength hrow hlt, List.getElem?_map, hentry]
  rfl

/-- A table that has been checked is bound where its cells stand among the parameters. -/
theorem boundIn_of_check {scopes : ScopeStack} {table : ValuesTable} {params : List BoundParam}
    {first : Nat} (hcheck : table.check catalog scopes = .ok table)
    (hfirst : table.firstParam = some first)
    (hparams : ∀ j < (Carrier.values table).width,
      params[first + j]? = (Carrier.values table).bound[j]?) : table.BoundIn params := by
  have hregular : table.Regular := regular_of_validate hcheck
  obtain ⟨row, rest, types, resolved, hrows, hempty, -, -, hmatch, htable⟩ :=
    validate_eq_ok.1 hcheck
  have hresolved : table.resolved = resolved := congrArg ValuesTable.resolved htable
  have hnames : table.fieldNames = row.keys := by
    rw [ValuesTable.fieldNames, hrows]
  have hkeys : ∀ row ∈ table.rows, row.keys = table.fieldNames := by
    rw [hregular.fieldNames_eq]
    exact hregular.2
  refine ⟨hregular.1, ?_, ?_, hkeys, hregular.fieldNames_eq.symm, first, hfirst, ?_⟩
  · rw [hnames, SortedMap.keys, Ne, List.map_eq_nil_iff]
    simpa [SortedMap.isEmpty] using hempty
  · rw [hnames]
    exact row.ascending
  · intro r c row field hrow hfield
    have hmem := List.mem_of_getElem? hrow
    obtain ⟨value, hentry, hcell⟩ := hregular.getElem?_cells hrow hfield
    obtain ⟨type, htype⟩ : ∃ type, table.resolved.get? field = some type := by
      apply get?_isSome_of_mem_keys
      rw [← hregular.fieldNames_eq]
      exact List.mem_of_getElem? hfield
    have hlt : r * table.fieldNames.length + c < (Carrier.values table).width := by
      rw [Carrier.width, ← ValuesTable.paramCount, ← hregular.length_cells]
      exact (List.getElem?_eq_some_iff.1 hcell).1
    refine ⟨value, type, get?_of_mem hentry, htype, ?_, ?_⟩
    · rw [Nat.add_assoc, hparams _ hlt, Carrier.bound, List.getElem?_map, hcell, htype]
      rfl
    · rintro t rfl
      refine accepts_of_firstMismatchIn hmatch row hmem _ hentry t ?_
      rw [← hresolved]
      exact htype

/-! ### Carriers among the parts -/

def Part.carrier? : Part → Option Carrier
  | .expr (.param p) => some (.param p)
  | .table t => some (.values t)
  | _ => none

/-- The parameters and values tables among some parts. -/
def carriersIn (sites : List (List Query × Part)) : List Carrier :=
  sites.filterMap fun site => site.2.carrier?

@[simp] theorem carriersIn_append (sites more : List (List Query × Part)) :
    carriersIn (sites ++ more) = carriersIn sites ++ carriersIn more :=
  List.filterMap_append

mutual

theorem Expr.carriersIn_sites (queries : List Query) (e : Expr) :
    (carriersIn (e.sites queries)).Perm e.carriers := by
  match e with
  | .literal _ | .field _ | .binding _ | .parentBinding _ | .projection _ _ | .aliasRef _ =>
    exact .nil
  | .param p => exact .refl _
  | .values table => exact .refl _
  | .operator op operands => exact carriersIn_sitesAll queries operands
  | .aggregate kind args distinct filter =>
    have hsites : carriersIn ((Expr.aggregate kind args distinct filter).sites queries) =
        carriersIn (sitesAll queries args) ++ carriersIn (sitesOption queries filter) :=
      carriersIn_append _ _
    rw [hsites]
    exact (carriersIn_sitesAll queries args).append (carriersIn_sitesOption queries filter)
  | .fragment text parts args => exact carriersIn_sitesArgs queries args
  | .cast value target resolved => exact Expr.carriersIn_sites queries value
  | .subquery kind query => exact Query.carriersIn_sites queries query
  | .merge left right =>
    have hsites : carriersIn ((Expr.merge left right).sites queries) =
        carriersIn (left.sites queries) ++ carriersIn (right.sites queries) :=
      carriersIn_append _ _
    rw [hsites]
    exact (Expr.carriersIn_sites queries left).append (Expr.carriersIn_sites queries right)
  | .aliased value name => exact Expr.carriersIn_sites queries value
  | .jsonPath base path =>
    have hsites : carriersIn ((Expr.jsonPath base path).sites queries) =
        carriersIn (base.sites queries) ++ carriersIn (sitesPath queries path) :=
      carriersIn_append _ _
    rw [hsites]
    exact (Expr.carriersIn_sites queries base).append (carriersIn_sitesPath queries path)
  | .interval count unit => exact Expr.carriersIn_sites queries count
  | .tuple items => exact carriersIn_sitesAll queries items
  | .mapping entries => exact carriersIn_sitesEntries queries entries
termination_by structural e

theorem carriersIn_sitesAll (queries : List Query) (es : List Expr) :
    (carriersIn (sitesAll queries es)).Perm (carriersAll es) := by
  match es with
  | [] => exact .nil
  | e :: rest =>
    rw [sitesAll, carriersAll, carriersIn_append]
    exact (Expr.carriersIn_sites queries e).append (carriersIn_sitesAll queries rest)
termination_by structural es

theorem carriersIn_sitesOption (queries : List Query) (e : Option Expr) :
    (carriersIn (sitesOption queries e)).Perm (carriersOption e) := by
  match e with
  | none => exact .nil
  | some e => exact Expr.carriersIn_sites queries e
termination_by structural e

theorem carriersIn_sitesArgs (queries : List Query) (args : List FragmentArg) :
    (carriersIn (sitesArgs queries args)).Perm (carriersArgs args) := by
  match args with
  | [] => exact .nil
  | .mk role e :: rest =>
    rw [sitesArgs, carriersArgs, carriersIn_append]
    exact (Expr.carriersIn_sites queries e).append (carriersIn_sitesArgs queries rest)
termination_by structural args

theorem carriersIn_sitesPath (queries : List Query) (path : List PathStep) :
    (carriersIn (sitesPath queries path)).Perm (carriersPath path) := by
  match path with
  | [] => exact .nil
  | .computed e :: rest =>
    rw [sitesPath, carriersPath, carriersIn_append]
    exact (Expr.carriersIn_sites queries e).append (carriersIn_sitesPath queries rest)
  | .key name :: rest => exact carriersIn_sitesPath queries rest
  | .index i :: rest => exact carriersIn_sitesPath queries rest
termination_by structural path

theorem carriersIn_sitesEntries (queries : List Query) (entries : List (String × Expr)) :
    (carriersIn (sitesEntries queries entries)).Perm (carriersEntries entries) := by
  match entries with
  | [] => exact .nil
  | (key, e) :: rest =>
    rw [sitesEntries, carriersEntries, carriersIn_append]
    exact (Expr.carriersIn_sites queries e).append (carriersIn_sitesEntries queries rest)
termination_by structural entries

theorem carriersIn_sitesTerms (queries : List Query) (terms : List OrderTerm) :
    (carriersIn (sitesTerms queries terms)).Perm (carriersTerms terms) := by
  match terms with
  | [] => exact .nil
  | .mk e direction :: rest =>
    rw [sitesTerms, carriersTerms, carriersIn_append]
    exact (Expr.carriersIn_sites queries e).append (carriersIn_sitesTerms queries rest)
termination_by structural terms

theorem Source.carriersIn_sites (queries : List Query) (source : Source) :
    (carriersIn (source.sites queries)).Perm source.carriers := by
  match source with
  | .mk (.schema _) _ | .mk (.table _) _ => exact .nil
  | .mk (.values table) name => exact .refl _
  | .mk (.subquery query) name => exact Query.carriersIn_sites queries query
  | .mk (.fragment e) name => exact Expr.carriersIn_sites queries e
termination_by structural source

theorem carriersIn_sitesJoins (queries : List Query) (joins : List Join) :
    (carriersIn (sitesJoins queries joins)).Perm (carriersJoins joins) := by
  match joins with
  | [] => exact .nil
  | .mk kind source on :: rest =>
    rw [sitesJoins, carriersJoins, carriersIn_append, carriersIn_append]
    exact ((Source.carriersIn_sites queries source).append
      (carriersIn_sitesOption queries on)).append (carriersIn_sitesJoins queries rest)
termination_by structural joins

/-- The parameters and tables of a query are its carriers; only the projection stands elsewhere. -/
theorem Query.carriersIn_sites (outer : List Query) (query : Query) :
    (carriersIn (query.sites outer)).Perm query.carriers := by
  match query with
  | .mk source joins wheres select groupBy having orderBy limit offset distinct =>
    let inside :=
      .mk source joins wheres select groupBy having orderBy limit offset distinct :: outer
    have hselect := carriersIn_sitesOption inside select
    have hsources := ((Source.carriersIn_sites inside source).append
      (carriersIn_sitesJoins inside joins)).append (carriersIn_sitesAll inside wheres)
    have hgroups := (carriersIn_sitesAll inside groupBy).append (carriersIn_sitesAll inside having)
    have hlimits := ((carriersIn_sitesTerms inside orderBy).append
      (carriersIn_sitesOption inside limit)).append (carriersIn_sitesOption inside offset)
    have hmoved := (hsources.append hselect).trans List.perm_append_comm
    have hall := (hmoved.append hgroups).append hlimits
    rw [Query.sites, carriersIn, List.filterMap_cons_none rfl]
    simpa only [carriersIn, Query.carriers, List.filterMap_append, List.append_assoc] using hall
termination_by structural query

end

/-! ### Ranges of indices -/

/-- The indices that a carrier takes. -/
def Carrier.indices (carrier : Carrier) : List Nat :=
  match carrier.first? with
  | some first => List.range' first carrier.width
  | none => []

/-- Consecutive blocks hold every index of their range once. -/
theorem Consecutive.indices {k k' : Nat} {carriers : List Carrier}
    (h : Consecutive k carriers k') :
    ∃ count, k' = k + count ∧ carriers.flatMap Carrier.indices = List.range' k count := by
  induction carriers generalizing k with
  | nil => exact ⟨0, h.symm, rfl⟩
  | cons carrier rest ih =>
    obtain ⟨hfirst, -, hrest⟩ := h
    obtain ⟨count, rfl, hcount⟩ := ih hrest
    refine ⟨carrier.width + count, Nat.add_assoc .., ?_⟩
    rw [List.flatMap_cons, hcount, Carrier.indices, hfirst, List.range'_append_1]

theorem Consecutive.disjoint {k k' : Nat} {carriers : List Carrier}
    (h : Consecutive k carriers k') :
    carriers.Pairwise fun carrier other => carrier.indices.Disjoint other.indices := by
  obtain ⟨count, -, hcount⟩ := h.indices
  have hnodup : (carriers.flatMap Carrier.indices).Nodup := by
    rw [hcount]
    exact List.nodup_range'
  exact (List.nodup_flatMap.1 hnodup).2

/-! ### Compiled queries -/

/--
Every values table in a compiled query has rows with the same fields and a type for each of them,
and its cells stand row by row among the parameters, each with the type of its field, which accepts
it if it is builtin. No two tables or parameters share an index, and together they have all indices.
-/
theorem compile_values_tables (catalog : Catalog) (config : Config) (query : Query)
    (c : CompiledQuery) (h : query.compile catalog config = .ok c) :
    (∀ site ∈ c.query.sites [], ∀ table, site.2 = .table table → table.BoundIn c.params) ∧
    ((carriersIn (c.query.sites [])).Pairwise fun carrier other =>
      carrier.indices.Disjoint other.indices) ∧
    ((carriersIn (c.query.sites [])).flatMap Carrier.indices).Perm
      (List.range c.params.length) := by
  obtain ⟨hconsecutive, hparams⟩ := Query.carriers_of_compile h
  -- sites follow the clauses as they are written, carriers the order in which they are bound
  have hperm := Query.carriersIn_sites [] c.query
  refine ⟨?_, (hperm.pairwise_iff List.disjoint_symm).2 hconsecutive.disjoint, ?_⟩
  · rintro ⟨queries, _⟩ hsite table rfl
    obtain ⟨-, scopes, hcheck⟩ := sites_of_compile h _ hsite
    have hmem : .values table ∈ c.query.carriers :=
      hperm.mem_iff.1 (List.mem_filterMap.2 ⟨_, hsite, rfl⟩)
    obtain ⟨first, hfirst, -, hbound⟩ := hconsecutive.getElem? hmem
    rw [Nat.zero_add] at hfirst
    rw [← hparams] at hbound
    exact boundIn_of_check hcheck hfirst hbound
  · obtain ⟨count, hcount, hindices⟩ := hconsecutive.indices
    rw [Nat.zero_add] at hcount
    rw [hcount, List.range_eq_range', ← hindices]
    exact hperm.flatMap_right Carrier.indices

/-- The table of two rows among the posts with comments, and the parameters around it. -/
theorem compile_values_tables_commentedPosts :
    ∃ c, commentedPosts.compile postCatalog .default = .ok c ∧
      (carriersIn (c.query.sites [])).map Carrier.indices = [[1, 2], [3], [0], [4]] ∧
      ∀ site ∈ c.query.sites [], ∀ table, site.2 = .table table → table.BoundIn c.params :=
  ⟨_, rfl, rfl, (compile_values_tables postCatalog .default commentedPosts _ rfl).1⟩

end QueryCompiler
