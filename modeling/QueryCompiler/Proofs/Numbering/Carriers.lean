import QueryCompiler.Compilation.Parameters
import QueryCompiler.Proofs.Binding.Scopes

/-!
# The carriers of parameters

A tree carries values in its parameters and in its values tables. Here they are listed in the order
of binding, which differs from the order of claims: the projection of a query is bound before its
sources and its filters. In a settled tree the carriers have consecutive blocks of indices.
-/

namespace QueryCompiler

inductive Carrier where
  | param (p : Param)
  | values (table : ValuesTable)

namespace Carrier

/-- How many indices a carrier takes: a table takes one for every field of every row. -/
def width : Carrier → Nat
  | param _ => 1
  | values table => table.rows.length * table.fieldNames.length

/-- The first of the indices of a carrier. -/
def first? : Carrier → Option Nat
  | param p => p.index
  | values table => table.firstParam

/-- What a carrier binds, in the order of its indices. -/
def bound : Carrier → List BoundParam
  | param p => [⟨p.value, p.type, p.splice⟩]
  | values table => table.cells.map fun cell => ⟨cell.1, cell.2, false⟩

end Carrier

/-! ### The order of binding -/

mutual

/-- The carriers in an expression, from left to right. -/
def Expr.carriers : Expr → List Carrier
  | .param p => [.param p]
  | .operator _ operands => carriersAll operands
  | .aggregate _ args _ filter => carriersAll args ++ carriersOption filter
  | .fragment _ _ args => carriersArgs args
  | .cast value _ _ => value.carriers
  | .subquery _ query => query.carriers
  | .values table => [.values table]
  | .merge left right => left.carriers ++ right.carriers
  | .aliased value _ => value.carriers
  | .jsonPath base path => base.carriers ++ carriersPath path
  | .interval count _ => count.carriers
  | .tuple items => carriersAll items
  | .mapping entries => carriersEntries entries
  | .literal _ | .field _ | .binding _ | .parentBinding _ | .projection _ _ | .aliasRef _ => []

def carriersAll : List Expr → List Carrier
  | [] => []
  | e :: rest => e.carriers ++ carriersAll rest

def carriersOption : Option Expr → List Carrier
  | none => []
  | some e => e.carriers

def carriersArgs : List FragmentArg → List Carrier
  | [] => []
  | .mk _ e :: rest => e.carriers ++ carriersArgs rest

def carriersPath : List PathStep → List Carrier
  | [] => []
  | .computed e :: rest => e.carriers ++ carriersPath rest
  | .key _ :: rest => carriersPath rest
  | .index _ :: rest => carriersPath rest

def carriersEntries : List (String × Expr) → List Carrier
  | [] => []
  | (_, e) :: rest => e.carriers ++ carriersEntries rest

def carriersTerms : List OrderTerm → List Carrier
  | [] => []
  | .mk e _ :: rest => e.carriers ++ carriersTerms rest

def Source.carriers : Source → List Carrier
  | .mk (.values table) _ => [.values table]
  | .mk (.subquery query) _ => query.carriers
  | .mk (.fragment e) _ => e.carriers
  | .mk (.schema _) _ => []
  | .mk (.table _) _ => []

/-- Of every join first its source and then its condition. -/
def carriersJoins : List Join → List Carrier
  | [] => []
  | .mk _ source on :: rest => source.carriers ++ carriersOption on ++ carriersJoins rest

/-- The carriers in a query: its projection comes first. -/
def Query.carriers : Query → List Carrier
  | .mk source joins wheres select groupBy having orderBy limit offset _ =>
    carriersOption select ++ source.carriers ++ carriersJoins joins ++ carriersAll wheres ++
      carriersAll groupBy ++ carriersAll having ++ carriersTerms orderBy ++ carriersOption limit ++
      carriersOption offset

end

/-! ### Consecutive blocks -/

/--
The carriers take the indices from the first number up to the second, block after block; every
carrier binds one value for each index of its block.
-/
def Consecutive : Nat → List Carrier → Nat → Prop
  | k, [], k' => k = k'
  | k, carrier :: rest, k' => carrier.first? = some k ∧ carrier.bound.length = carrier.width ∧
    Consecutive (k + carrier.width) rest k'

namespace Consecutive

variable {k k₁ k' : Nat} {carriers carriers' : List Carrier}

theorem nil (k : Nat) : Consecutive k [] k := rfl

theorem append (h : Consecutive k carriers k₁) (h' : Consecutive k₁ carriers' k') :
    Consecutive k (carriers ++ carriers') k' := by
  induction carriers generalizing k with
  | nil =>
    obtain rfl := h
    exact h'
  | cons carrier rest ih =>
    obtain ⟨hfirst, hlength, hrest⟩ := h
    exact ⟨hfirst, hlength, ih hrest⟩

theorem param {p : Param} (h : p.index = some k) : Consecutive k [.param p] (k + 1) :=
  ⟨h, rfl, rfl⟩

theorem values {table : ValuesTable} (hregular : table.Regular) (h : table.firstParam = some k) :
    Consecutive k [.values table] (k + table.paramCount) := by
  refine ⟨h, ?_, rfl⟩
  rw [Carrier.bound, List.length_map]
  exact hregular.length_cells

/-- The blocks are as long as the list of all that is bound. -/
theorem eq_add_length (h : Consecutive k carriers k') :
    k' = k + (carriers.flatMap Carrier.bound).length := by
  induction carriers generalizing k with
  | nil =>
    obtain rfl := h
    rfl
  | cons carrier rest ih =>
    obtain ⟨-, hlength, hrest⟩ := h
    rw [ih hrest, List.flatMap_cons, List.length_append, hlength]
    omega

/-- What a carrier binds stands in the list of all that is bound at the indices of its block. -/
theorem getElem? (h : Consecutive k carriers k') {carrier : Carrier} (hmem : carrier ∈ carriers) :
    ∃ first, carrier.first? = some (k + first) ∧ carrier.bound.length = carrier.width ∧
      ∀ j < carrier.width,
        (carriers.flatMap Carrier.bound)[first + j]? = carrier.bound[j]? := by
  induction carriers generalizing k with
  | nil => cases hmem
  | cons head rest ih =>
    obtain ⟨hfirst, hlength, hrest⟩ := h
    rcases List.mem_cons.1 hmem with rfl | hmem
    · refine ⟨0, hfirst, hlength, ?_⟩
      intro j hj
      rw [Nat.zero_add, List.flatMap_cons, List.getElem?_append_left (by omega)]
    · obtain ⟨first, hfirst', hlength', hbound⟩ := ih hrest hmem
      refine ⟨head.width + first, by rw [hfirst', Nat.add_assoc], hlength', ?_⟩
      intro j hj
      rw [List.flatMap_cons, List.getElem?_append_right (by omega), ← hbound j hj, hlength]
      congr 1
      omega

end Consecutive

/-! ### Carriers of settled trees -/

mutual

theorem Expr.Settled.consecutive {place : Place} {o : Bool} {k k' : Nat} {e : Expr}
    (h : e.Settled place o k k') : Consecutive k e.carriers k' := by
  match e with
  | .literal _ | .field _ | .binding _ | .parentBinding _ | .projection _ _ | .aliasRef _ =>
    cases h
    exact .nil _
  | .param p =>
    cases h with
    | param hindex => exact .param hindex
  | .operator op operands =>
    cases h with
    | operator _ _ hoperands => exact hoperands.consecutive
  | .aggregate kind args distinct filter =>
    cases h with
    | aggregate _ hargs hfilter => exact hargs.consecutive.append hfilter.consecutive
  | .fragment text parts args =>
    cases h with
    | fragment _ _ hargs => exact hargs.consecutive
  | .cast value target resolved =>
    cases h with
    | cast hvalue => exact hvalue.consecutive
  | .subquery kind query =>
    cases h with
    | subquery hquery => exact hquery.consecutive
  | .values table =>
    cases h with
    | values hcheck hindex => exact .values (regular_of_validate hcheck) hindex
  | .merge left right =>
    cases h with
    | merge hleft hright => exact hleft.consecutive.append hright.consecutive
  | .aliased value name =>
    cases h with
    | aliased hvalue => exact hvalue.consecutive
  | .jsonPath base path =>
    cases h with
    | jsonPath _ hpath => exact hpath.consecutive
  | .interval count unit =>
    cases h with
    | interval hcount => exact hcount.consecutive
  | .tuple items =>
    cases h with
    | tuple hitems => exact hitems.consecutive
  | .mapping entries =>
    cases h with
    | mapping hentries => exact hentries.consecutive
termination_by structural e

theorem SettledAll.consecutive {place : Place} {o : Bool} {k k' : Nat} {es : List Expr}
    (h : SettledAll place o k es k') : Consecutive k (carriersAll es) k' := by
  match es with
  | [] =>
    cases h
    exact .nil _
  | e :: rest =>
    cases h with
    | cons he hrest => exact he.consecutive.append hrest.consecutive
termination_by structural es

theorem SettledEntries.consecutive {place : Place} {o : Bool} {k k' : Nat}
    {entries : List (String × Expr)} (h : SettledEntries place o k entries k') :
    Consecutive k (carriersEntries entries) k' := by
  match entries with
  | [] =>
    cases h
    exact .nil _
  | (key, e) :: rest =>
    cases h with
    | cons he hrest => exact he.consecutive.append hrest.consecutive
termination_by structural entries

theorem SettledOption.consecutive {place : Place} {o : Bool} {k k' : Nat} {e : Option Expr}
    (h : SettledOption place o k e k') : Consecutive k (carriersOption e) k' := by
  match e with
  | none =>
    cases h
    exact .nil _
  | some e =>
    cases h with
    | some he => exact he.consecutive
termination_by structural e

theorem SettledArgs.consecutive {place : Place} {k k' : Nat} {args : List FragmentArg}
    (h : SettledArgs place k args k') : Consecutive k (carriersArgs args) k' := by
  match args with
  | [] =>
    cases h
    exact .nil _
  | .mk role e :: rest =>
    cases h with
    | parameter he hrest => exact he.consecutive.append hrest.consecutive
    | inline _ hrest => exact hrest.consecutive
    | splice hindex _ hrest => exact (Consecutive.param hindex).append hrest.consecutive
termination_by structural args

theorem SettledPath.consecutive {place : Place} {k k' : Nat} {path : List PathStep}
    (h : SettledPath place k path k') : Consecutive k (carriersPath path) k' := by
  match path with
  | [] =>
    cases h
    exact .nil _
  | .computed e :: rest =>
    cases h with
    | computed he hrest => exact he.consecutive.append hrest.consecutive
  | .key name :: rest =>
    cases h with
    | key hrest => exact hrest.consecutive
  | .index i :: rest =>
    cases h with
    | index hrest => exact hrest.consecutive
termination_by structural path

theorem SettledTerms.consecutive {place : Place} {k k' : Nat} {terms : List OrderTerm}
    (h : SettledTerms place k terms k') : Consecutive k (carriersTerms terms) k' := by
  match terms with
  | [] =>
    cases h
    exact .nil _
  | .mk e direction :: rest =>
    cases h with
    | cons he hrest => exact he.consecutive.append hrest.consecutive
termination_by structural terms

theorem Source.Settled.consecutive {place : Place} {k k' : Nat} {source : Source}
    (hregular : ∀ table, source.table? = some table → table.Regular)
    (h : source.Settled place k k') : Consecutive k source.carriers k' := by
  match source with
  | .mk (.schema _) _ | .mk (.table _) _ =>
    cases h
    exact .nil _
  | .mk (.values table) name =>
    cases h with
    | values hindex => exact .values (hregular table rfl) hindex
  | .mk (.subquery query) name =>
    cases h with
    | subquery hquery => exact hquery.consecutive
  | .mk (.fragment e) name =>
    cases h with
    | fragment _ he => exact he.consecutive
termination_by structural source

theorem SettledJoins.consecutive {place : Place} {k k' : Nat} {joins : List Join}
    (hregular : ∀ source ∈ joins.map Join.source,
      ∀ table, source.table? = some table → table.Regular)
    (h : SettledJoins place k joins k') : Consecutive k (carriersJoins joins) k' := by
  match joins with
  | [] =>
    cases h
    exact .nil _
  | .mk kind source on :: rest =>
    rw [List.map_cons, List.forall_mem_cons] at hregular
    cases h with
    | cons hsource hon hrest =>
      exact ((hsource.consecutive hregular.1).append hon.consecutive).append
        (hrest.consecutive hregular.2)
termination_by structural joins

/-- In a settled query the carriers have consecutive blocks of indices. -/
theorem Query.Settled.consecutive {place : Place} {k k' : Nat} {query : Query}
    (h : query.Settled place k k') : Consecutive k query.carriers k' := by
  match query with
  | .mk source joins wheres select groupBy having orderBy limit offset distinct =>
    cases h with
    | mk _ hdeclared _ hselect _ hsource hjoins hwheres _ hgroupBy hhaving horderBy hlimit _
        hoffset =>
      have hregular := regular_of_declareSources hdeclared
      rw [List.forall_mem_cons] at hregular
      have hsources := (hselect.consecutive.append (hsource.consecutive hregular.1)).append
        (hjoins.consecutive hregular.2)
      have hgroups := ((hsources.append hwheres.consecutive).append hgroupBy.consecutive).append
        hhaving.consecutive
      exact ((hgroups.append horderBy.consecutive).append hlimit.consecutive).append
        hoffset.consecutive
termination_by structural query

end

end QueryCompiler
