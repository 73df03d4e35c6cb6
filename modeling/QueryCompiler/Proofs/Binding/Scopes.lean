import QueryCompiler.Proofs.Binding.Stages

/-!
# Scopes and the sources declared in them

In a scope that is built by declaring sources every source knows its position. A reference therefore
resolves to the source at its slot, so that two references with one slot mean one source.

Declaring the sources of a query once more, after they are bound, gives the same scope.
-/

namespace QueryCompiler

/-! ### Lookups -/

/-- Every source of a scope has the position at which it stands. -/
def Scope.Placed (scope : Scope) : Prop :=
  ∀ (i : Nat) (source : BoundSource), scope.sources[i]? = some source → source.position = i

theorem Scope.empty_placed : Scope.empty.Placed := by
  intro i source h
  simp [Scope.empty] at h

theorem Scope.Placed.lookup {scope : Scope} (h : scope.Placed) {name : String}
    {source : BoundSource} (hlookup : scope.lookup name = some source) :
    scope.sources[source.position]? = some source ∧ source.name = some name := by
  rw [Scope.lookup] at hlookup
  obtain ⟨i, hi⟩ := List.mem_iff_getElem?.1 (List.mem_of_find?_eq_some hlookup)
  rw [h i source hi]
  exact ⟨hi, by simpa using List.find?_some hlookup⟩

theorem Scope.lookup_eq_none {scope : Scope} {name : String} :
    scope.lookup name = none ↔ ∀ source ∈ scope.sources, source.name ≠ some name := by
  rw [Scope.lookup, List.find?_eq_none]
  simp

namespace ScopeStack

/-- A name is found in the first scope that has it. -/
theorem findBinding_eq_some {name : String} {level : Nat} {scopes : ScopeStack} {slot : Slot}
    {source : BoundSource} (h : findBinding name level scopes = some (slot, source)) :
    ∃ i scope, scopes[i]? = some scope ∧ scope.lookup name = some source ∧
      slot = ⟨level + i, source.position⟩ ∧
      ∀ j < i, ∀ nearer, scopes[j]? = some nearer → nearer.lookup name = none := by
  induction scopes generalizing level with
  | nil => cases h
  | cons scope rest ih =>
    rw [findBinding] at h
    split at h
    · rename_i found hlookup
      cases h
      exact ⟨0, scope, rfl, hlookup, rfl, by simp⟩
    · rename_i hlookup
      obtain ⟨i, found, hi, hfound, hslot, hnearer⟩ := ih h
      refine ⟨i + 1, found, by simpa using hi, hfound, ?_, ?_⟩
      · rw [hslot, Nat.add_assoc, Nat.add_comm 1]
      · intro j hj nearer hnear
        cases j with
        | zero =>
          cases hnear
          exact hlookup
        | succ j => exact hnearer j (by omega) nearer (by simpa using hnear)

/-- What the reference of a source says about the slot that it resolves to. -/
inductive Designates (scopes : ScopeStack) (slot : Slot) (source : BoundSource) :
    SourceRef → Prop where
  | position (hlevel : slot.level = 0) : Designates scopes slot source (.position slot.position)
  | binding {name : String} (hname : source.name = some name)
      (hnearest : ∀ level < slot.level, ∀ scope, scopes[level]? = some scope →
        ∀ other ∈ scope.sources, other.name ≠ some name) :
      Designates scopes slot source (.binding name)
  | parentBinding {name : String} (hlevel : slot.level = 1) (hname : source.name = some name) :
      Designates scopes slot source (.parentBinding name)

theorem resolve_eq_ok {scopes : ScopeStack} (hplaced : ∀ scope ∈ scopes, scope.Placed)
    {ref : SourceRef} {slot : Slot} {source : BoundSource}
    (h : scopes.resolve ref = .ok (slot, source)) :
    (∃ scope, scopes[slot.level]? = some scope ∧
      scope.sources[slot.position]? = some source) ∧ Designates scopes slot source ref := by
  cases ref with
  | position position =>
    cases scopes with
    | nil => cases h
    | cons scope rest =>
      rw [resolve, lookupPosition] at h
      split at h
      · rename_i found hfound
        cases h
        exact ⟨⟨scope, rfl, hfound⟩, .position rfl⟩
      · cases h
  | binding name =>
    rw [resolve, lookupBinding] at h
    split at h
    · rename_i found hfound
      cases h
      obtain ⟨i, scope, hi, hlookup, rfl, hnearest⟩ := findBinding_eq_some hfound
      obtain ⟨hsource, hname⟩ := (hplaced scope (List.mem_of_getElem? hi)).lookup hlookup
      rw [Nat.zero_add] at *
      refine ⟨⟨scope, hi, hsource⟩, .binding hname ?_⟩
      intro level hlevel nearer hnearer
      exact Scope.lookup_eq_none.1 (hnearest level hlevel nearer hnearer)
    · cases h
  | parentBinding name =>
    match scopes with
    | [] | [_] => cases h
    | scope :: parent :: rest =>
      rw [resolve, lookupParent] at h
      split at h
      · rename_i found hfound
        cases h
        obtain ⟨hsource, hname⟩ := (hplaced parent (by simp)).lookup hfound
        exact ⟨⟨parent, rfl, hsource⟩, .parentBinding rfl hname⟩
      · cases h

/-- References with one slot mean one source. -/
theorem resolve_unique {scopes : ScopeStack} (hplaced : ∀ scope ∈ scopes, scope.Placed)
    {ref ref' : SourceRef} {slot : Slot} {source source' : BoundSource}
    (h : scopes.resolve ref = .ok (slot, source)) (h' : scopes.resolve ref' = .ok (slot, source')) :
    source = source' := by
  obtain ⟨⟨scope, hscope, hsource⟩, -⟩ := resolve_eq_ok hplaced h
  obtain ⟨⟨scope', hscope', hsource'⟩, -⟩ := resolve_eq_ok hplaced h'
  rw [hscope] at hscope'
  cases hscope'
  rw [hsource] at hsource'
  cases hsource'
  rfl

end ScopeStack

/-! ### Declared sources -/

variable {catalog : Catalog} {outer : ScopeStack}

theorem add_eq_ok {scope scope' : Scope} {name : Option String} {shape : SourceShape} :
    scope.add name shape = .ok scope' ↔
      (∀ n, name = some n → scope.lookup n = none) ∧
      scope' = ⟨scope.sources ++ [⟨scope.sources.length, name, shape⟩]⟩ := by
  cases name with
  | none =>
    rw [Scope.add]
    simp [eq_comm]
  | some n =>
    rw [Scope.add]
    cases hlookup : scope.lookup n with
    | some source => simp [hlookup]
    | none => simp [hlookup, eq_comm]

theorem Scope.Placed.add {scope scope' : Scope} (h : scope.Placed) {name : Option String}
    {shape : SourceShape} (hadd : scope.add name shape = .ok scope') : scope'.Placed := by
  obtain ⟨-, rfl⟩ := add_eq_ok.1 hadd
  intro i source hi
  rw [List.getElem?_append] at hi
  split at hi
  · exact h i source hi
  · rename_i hlt
    cases hoffset : i - scope.sources.length with
    | zero =>
      rw [hoffset] at hi
      cases hi
      change scope.sources.length = i
      omega
    | succ j =>
      rw [hoffset] at hi
      cases hi

/-- What declaring one source and then others does. -/
theorem declareSources_cons_eq_ok {scope scope' : Scope} {source : Source} {rest : List Source}
    {tables : List (Option ValuesTable)} :
    declareSources catalog outer scope (source :: rest) = (.ok tables, scope') ↔
      ∃ shape table next tables', source.declare catalog (scope :: outer) = .ok (shape, table) ∧
        scope.add source.name shape = .ok next ∧
        declareSources catalog outer next rest = (.ok tables', scope') ∧
        tables = table :: tables' := by
  rw [declareSources]
  constructor
  · intro h
    split at h
    · cases h
    · rename_i shape table hdeclare
      split at h
      · cases h
      · rename_i next hadd
        split at h
        · rename_i tables' final hrest
          cases h
          exact ⟨shape, table, next, tables', hdeclare, hadd, hrest, rfl⟩
        · cases h
  · rintro ⟨shape, table, next, tables', hdeclare, hadd, hrest, rfl⟩
    simp only [hdeclare, hadd, hrest]

theorem length_of_declareSources {scope scope' : Scope} {sources : List Source}
    {tables : List (Option ValuesTable)}
    (h : declareSources catalog outer scope sources = (.ok tables, scope')) :
    tables.length = sources.length := by
  induction sources generalizing scope tables with
  | nil =>
    cases h
    rfl
  | cons source rest ih =>
    obtain ⟨shape, table, next, tables', -, -, hrest, rfl⟩ := declareSources_cons_eq_ok.1 h
    rw [List.length_cons, List.length_cons, ih hrest]

theorem declareSources_placed {scope scope' : Scope} (hplaced : scope.Placed)
    {sources : List Source} {tables : List (Option ValuesTable)}
    (h : declareSources catalog outer scope sources = (.ok tables, scope')) : scope'.Placed := by
  induction sources generalizing scope tables with
  | nil =>
    cases h
    exact hplaced
  | cons source rest ih =>
    obtain ⟨shape, table, next, tables', -, hadd, hrest, rfl⟩ := declareSources_cons_eq_ok.1 h
    exact ih (hplaced.add hadd) hrest

/-- The values tables among declared sources have been validated. -/
theorem regular_of_declareSources {scope scope' : Scope} {sources : List Source}
    (h : declareSources catalog outer scope sources = (.ok (sources.map Source.table?), scope')) :
    ∀ source ∈ sources, ∀ table, source.table? = some table → table.Regular := by
  induction sources generalizing scope with
  | nil => simp
  | cons source rest ih =>
    obtain ⟨shape, table, next, tables, hdeclare, -, hrest, heq⟩ := declareSources_cons_eq_ok.1 h
    rw [List.map_cons] at heq
    cases heq
    rw [List.forall_mem_cons]
    refine ⟨?_, ih hrest⟩
    intro table htable
    obtain ⟨origin, name⟩ := source
    cases origin with
    | values declared =>
      cases htable
      rw [Source.declare] at hdeclare
      split at hdeclare
      · rename_i found hcheck
        cases hdeclare
        exact regular_of_validate hcheck
      · cases hdeclare
    | schema _ | table _ | subquery _ | fragment _ => cases htable

/-- A source that declares what another one does, and holds the validated table of that one. -/
def Source.Redeclares (catalog : Catalog) (table : Option ValuesTable) (source source' : Source) :
    Prop :=
  source'.name = source.name ∧ ∀ scopes shape, source.declare catalog scopes = .ok (shape, table) →
    source'.declare catalog scopes = .ok (shape, source'.table?)

/-- Sources that declare, one by one, what others do. -/
def RedeclaresAll (catalog : Catalog) :
    List (Option ValuesTable) → List Source → List Source → Prop
  | [], [], [] => True
  | table :: tables, source :: sources, source' :: sources' =>
    source.Redeclares catalog table source' ∧ RedeclaresAll catalog tables sources sources'
  | _, _, _ => False

/-- Sources that declare what others do give the same scope. -/
theorem declareSources_redeclared {scope scope' : Scope} {sources sources' : List Source}
    {tables : List (Option ValuesTable)}
    (hredeclares : RedeclaresAll catalog tables sources sources')
    (h : declareSources catalog outer scope sources = (.ok tables, scope')) :
    declareSources catalog outer scope sources' = (.ok (sources'.map Source.table?), scope') := by
  match tables, sources, sources' with
  | [], [], [] =>
    cases h
    rfl
  | _ :: _, source :: rest, source' :: rest' =>
    obtain ⟨⟨hname, hdeclares⟩, hrest⟩ := hredeclares
    obtain ⟨shape, table, next, tables, hdeclare, hadd, hsources, ⟨⟩⟩ :=
      declareSources_cons_eq_ok.1 h
    refine declareSources_cons_eq_ok.2 ⟨shape, source'.table?, next, rest'.map Source.table?,
      hdeclares _ _ hdeclare, ?_, declareSources_redeclared hrest hsources, rfl⟩
    rw [hname]
    exact hadd
  | [], [], _ :: _ | [], _ :: _, _ | _ :: _, [], _ | _ :: _, _ :: _, [] =>
    simp [RedeclaresAll] at hredeclares

/-- A validated table declares what it did before, with whatever indices it is given. -/
theorem redeclares_values (table table' : ValuesTable) (name : Option String)
    (firstParam : Option Nat) :
    (Source.mk (.values table) name).Redeclares catalog (some table')
      (.mk (.values { table' with firstParam := firstParam }) name) := by
  refine ⟨rfl, ?_⟩
  intro scopes shape h
  rw [Source.declare] at h
  split at h
  · rename_i found hfound
    cases h
    have hstable := validate_stable (resolveType_stable scopes) hfound firstParam
    rw [Source.declare, ValuesTable.check, hstable]
    rfl
  · cases h

end QueryCompiler
