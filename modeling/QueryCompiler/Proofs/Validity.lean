import QueryCompiler.Proofs.Numbering
import QueryCompiler.Proofs.Validity.Faults
import QueryCompiler.Proofs.Validity.Written

/-!
# Field sets of compiled queries

The projections of a compiled query, merged from those that were written, ask schemas only for what
they have, along all associations. A query in which some projection asks a schema for more does not
compile, and it is this that the error speaks of unless something else is wrong with the query.
-/

namespace QueryCompiler

variable {catalog : Catalog} {config : Config}

/-- A slot reaches one source only. -/
theorem Slot.Reaches.unique {queries : List Query} {slot : Slot} {source source' : Source}
    (h : slot.Reaches queries source) (h' : slot.Reaches queries source') : source = source' := by
  obtain ⟨query, hquery, hsource⟩ := h
  obtain ⟨query', hquery', hsource'⟩ := h'
  rw [hquery] at hquery'
  cases hquery'
  rw [hsource] at hsource'
  cases hsource'
  rfl

/-- The field set of a settled projection is one that the source at its slot admits. -/
theorem admits_of_settled {queries : List Query} {kind : ProjectionKind} {p : Projection}
    (h : (Part.expr (.projection kind p)).Settled catalog queries) {slot : Slot} {source : Source}
    (hslot : p.slot = some slot) (hreaches : slot.Reaches queries source) :
    source.Admits catalog p.set := by
  obtain ⟨place, outermost, k, k', rfl, hmirror, hsettled⟩ := h
  cases hsettled with
  | projection hresolve hset =>
    cases hslot
    obtain ⟨source', hreaches', -, -, scopes, hdeclare⟩ := hmirror.resolve hresolve
    rw [hreaches.unique hreaches']
    exact admits_of_declare hdeclare hset

/-- An error of a query is excused or one of its bare form. -/
theorem error_of_compile {query : Query} {e : CompileError}
    (h : query.compile catalog config = .error e) :
    config.Excuses e ∨ query.bare.compile catalog config = .error e := by
  obtain ⟨s', hbind⟩ := start_error_of_compile h
  have hbeside : (Context.top catalog config).Beside (.top catalog config) :=
    ⟨rfl, rfl, rfl, fun _ => rfl⟩
  let start := BindState.start.note
    (.compileStarted query.bare.sources.length query.bare.wheres.length)
  have hstart : start.nextParam =
    (BindState.start.note (.compileStarted query.sources.length query.wheres.length)).nextParam + 0
    := rfl
  refine ((follows_bareQuery hbeside query).error _ start e s' hstart hbind).imp_right ?_
  rintro ⟨t', hbare⟩
  exact Query.compile_of_bind_error hbare

/--
The field set of every projection in a compiled query, at whatever depth, is admitted by the source
at its slot: if that is of a schema, fields, associations and related schemas exist along every path
of associations. A written projection that its source does not admit makes the compilation fail,
with an unknown field, association or schema unless the query fails with the same error when its
projections ask for nothing. Only where a name may be defined again with the same value, the error
may also be that two values of a name are not the same, as their field sets differ.
-/
theorem compile_field_sets (catalog : Catalog) (config : Config) (query : Query) :
    (∀ c, query.compile catalog config = .ok c →
      ∀ site ∈ c.query.sites [], ∀ kind p slot source, site.2 = .expr (.projection kind p) →
        p.slot = some slot → slot.Reaches site.1 source → source.Admits catalog p.set) ∧
    ∀ site ∈ query.sites [], ∀ kind p source, site.2 = .expr (.projection kind p) →
      p.source.source? site.1 = some source → ¬ source.Admits catalog p.set →
      ∃ e, query.compile catalog config = .error e ∧
        (e.isUnknown = true ∨ query.bare.compile catalog config = .error e ∨
          (config.allowIdenticalAliases = true ∧ ∃ name, e = .aliasing (.duplicate name))) := by
  constructor
  · rintro c h ⟨queries, _⟩ hsite kind p slot source rfl hslot hreaches
    exact admits_of_settled (sites_of_compile h _ hsite) hslot hreaches
  · rintro ⟨queries, _⟩ hsite kind p source rfl hsource hnot
    cases h : query.compile catalog config with
    | ok c => exact absurd (checked_of_compile h _ hsite source hsource) hnot
    | error e =>
      refine ⟨e, rfl, ?_⟩
      rcases error_of_compile h with (hunknown | hduplicate) | hbare
      · exact Or.inl hunknown
      · exact Or.inr (Or.inr hduplicate)
      · exact Or.inr (Or.inl hbare)

/-- A catalog of one schema that is associated with itself. -/
def staffCatalog : Catalog :=
  ⟨.ofList [("staff", ⟨"staff", "staff", [⟨"id", "id", .integer⟩, ⟨"name", "name", .string⟩],
    ["id"], [⟨"manager", "staff", .one, "id", "id"⟩]⟩)]⟩

/-- The staff with their managers, of whose own managers a given field set is asked. -/
def staffWithManagers (set : FieldSet) : Query :=
  .mk (.mk (.schema "staff") (some "s")) [] []
    (some (.merge
      (.projection .struct
        ⟨.position 0, .mk ["name"] [.mk "manager" .struct (.mk ["id"] [])], none⟩)
      (.projection .struct
        ⟨.binding "s", .mk ["id"] [.mk "manager" .struct (.mk ["name"]
          [.mk "manager" .struct set])], none⟩)))
    [] [] [] none none false

/-- The name of a manager's manager may be asked for, the salary may not. -/
theorem compile_field_sets_staffWithManagers :
    (∃ c set source, (staffWithManagers (.mk ["name"] [])).compile staffCatalog .default = .ok c ∧
      ([c.query], .expr (.projection .struct ⟨.position 0, set, some ⟨0, 0⟩⟩)) ∈ c.query.sites [] ∧
      c.query.sources[0]? = some source ∧ source.origin = .schema "staff" ∧
      source.Admits staffCatalog set) ∧
    ∃ e, (staffWithManagers (.mk ["salary"] [])).compile staffCatalog .default = .error e ∧
      (e.isUnknown = true ∨
        (staffWithManagers (.mk ["salary"] [])).bare.compile staffCatalog .default = .error e ∨
        (Config.default.allowIdenticalAliases = true ∧
          ∃ name, e = .aliasing (.duplicate name))) := by
  constructor
  · refine ⟨_, _, _, rfl, List.mem_of_getElem? (i := 1) rfl, rfl, rfl, ?_⟩
    refine (compile_field_sets staffCatalog .default (staffWithManagers (.mk ["name"] []))).1 _ rfl
      _ (List.mem_of_getElem? (i := 1) rfl) .struct _ ⟨0, 0⟩ _ rfl rfl ?_
    exact ⟨_, rfl, rfl⟩
  · refine (compile_field_sets staffCatalog .default _).2 _ (List.mem_of_getElem? (i := 3) rfl)
      .struct _ _ rfl rfl ?_
    intro hadmits
    obtain ⟨schema, hschema, -, ⟨_, _, hmanager, hrelated, -, ⟨_, _, hmanager', hrelated', hfields,
      -⟩, -⟩, -⟩ := hadmits "staff" rfl
    cases hschema
    cases hmanager
    cases hrelated
    cases hmanager'
    cases hrelated'
    exact absurd (hfields "salary" (List.mem_singleton_self _)) (by decide)

/-- The salaries of the staff, after an alias that nothing defines. -/
def salariesOfStaff : Query :=
  .mk (.mk (.schema "staff") none) [] []
    (some (.tuple [.aliasRef "boss",
      .projection .struct ⟨.position 0, .mk ["salary"] [], none⟩]))
    [] [] [] none none false

/-- What a schema does not have is not always what a query fails with: another fault may be met
before it. -/
theorem exists_unadmitted_undefined :
    ¬ ∀ (catalog : Catalog) (config : Config) (query : Query), ∀ site ∈ query.sites [],
      ∀ kind p source, site.2 = .expr (.projection kind p) →
        p.source.source? site.1 = some source → ¬ source.Admits catalog p.set →
        ∃ e, query.compile catalog config = .error e ∧ e.isUnknown = true := by
  intro hclaim
  have hundefined : salariesOfStaff.compile staffCatalog .default =
    .error (.aliasing (.undefined "boss")) := rfl
  obtain ⟨e, hcompile, hunknown⟩ := hclaim staffCatalog .default salariesOfStaff _
    (List.mem_of_getElem? (i := 3) rfl) .struct _ _ rfl rfl fun hadmits => by
      obtain ⟨schema, hschema, hfields, -⟩ := hadmits "staff" rfl
      cases hschema
      exact absurd (hfields "salary" (List.mem_singleton_self _)) (by decide)
  rw [hundefined] at hcompile
  cases hcompile
  cases hunknown

end QueryCompiler
