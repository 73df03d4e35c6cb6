import QueryCompiler.Proofs.Sites

/-!
# What references name

A reference can be read in two ways: by the slot that is recorded for it, and by the names of the
sources in the queries around it. In a compiled query the two agree at every site.
-/

namespace QueryCompiler

/-! ### References as they are written -/

/-- The position of the first source of that name. -/
def Query.position? (query : Query) (name : String) : Option Nat :=
  query.sources.findIdx? fun source => source.name == some name

/-- Where a name is first found among nested queries, of which the first has the level `level`. -/
def nearest? (name : String) (level : Nat) : List Query → Option Slot
  | [] => none
  | query :: outer => match query.position? name with
    | some position => some ⟨level, position⟩
    | none => nearest? name (level + 1) outer

/-- The slot that a reference names, by the names of the sources in the queries around it. -/
def SourceRef.names? (queries : List Query) : SourceRef → Option Slot
  | .position index => match queries with
    | query :: _ => (query.sources[index]?).map fun _ => ⟨0, index⟩
    | [] => none
  | .binding name => nearest? name 0 queries
  | .parentBinding name => match queries with
    | _ :: parent :: _ => (parent.position? name).map (⟨1, ·⟩)
    | _ => none

def Reference.ref : Reference → SourceRef
  | .source ref _ => ref
  | .field f => f.source

/-- The slot that is recorded for a reference. -/
def Reference.slot? : Reference → Option Slot
  | .source _ slot => slot
  | .field f => f.resolved.map (·.slot)

/-- The fields that the columns of a values table take their types from. -/
def ValuesTypes.references : ValuesTypes → List Reference
  | .map types => types.entries.flatMap fun column => column.2.references
  | .schema _ => []

/-- The references of an expression itself, those of its operands aside. -/
def Part.references : Part → List Reference
  | .expr (.field f) => [.field f]
  | .expr (.binding r) => [.source (.binding r.name) r.slot]
  | .expr (.parentBinding r) => [.source (.parentBinding r.name) r.slot]
  | .expr (.projection _ p) => [.source p.source p.slot]
  | .expr (.cast _ target _) => target.references
  | .expr (.values t) => t.types.references
  | _ => []

/-! ### Slots and names -/

variable {catalog : Catalog}

/-- A scope that has, source by source, the names of the given sources. -/
structure Scope.Lists (scope : Scope) (sources : List Source) : Prop where
  placed : scope.Placed
  names : scope.sources.map BoundSource.name = sources.map Source.name

theorem Scope.Mirrors.lists {scope : Scope} {sources : List Source} (hplaced : scope.Placed)
    (h : scope.Mirrors catalog sources) : scope.Lists sources := by
  refine ⟨hplaced, List.ext_getElem (by simp [h.1]) fun i hi hi' => ?_⟩
  rw [List.length_map] at hi hi'
  rw [List.getElem_map, List.getElem_map]
  exact (h.2 i _ _ (List.getElem?_eq_getElem hi) (List.getElem?_eq_getElem hi')).1

namespace Scope.Lists

variable {scope : Scope} {sources : List Source}

/-- A name has the same position in a scope and among the sources that the scope lists. -/
theorem findIdx? (h : scope.Lists sources) (name : String) :
    sources.findIdx? (fun source => source.name == some name) =
      (scope.lookup name).map (·.position) := by
  have hnames : sources.findIdx? (fun source => source.name == some name) =
      scope.sources.findIdx? fun source => source.name == some name := by
    have heq := congrArg (List.findIdx? (· == some name)) h.names
    rw [List.findIdx?_map, List.findIdx?_map] at heq
    exact heq.symm
  rw [hnames, Scope.lookup]
  cases hlookup : scope.sources.find? fun source => source.name == some name with
  | none =>
    rw [Option.map_none, List.findIdx?_eq_none_iff]
    simpa using hlookup
  | some source =>
    obtain ⟨hfound, i, hi, rfl, hfirst⟩ := List.find?_eq_some_iff_getElem.1 hlookup
    rw [Option.map_some, h.placed i _ (List.getElem?_eq_getElem hi),
      List.findIdx?_eq_some_iff_getElem]
    exact ⟨hi, hfound, fun j hj => by simpa using hfirst j hj⟩

theorem length_eq (h : scope.Lists sources) : scope.sources.length = sources.length := by
  simpa using congrArg List.length h.names

theorem lookup_eq_none (h : scope.Lists sources) {name : String} :
    scope.lookup name = none ↔ ∀ source ∈ sources, source.name ≠ some name := by
  rw [← Option.map_eq_none_iff (f := (·.position)), ← h.findIdx? name, List.findIdx?_eq_none_iff]
  simp

/-- The first sources of a scope are listed by the first ones of those that the scope lists. -/
theorem take (h : scope.Lists sources) {early : Scope} (hearly : early.sources <+: scope.sources) :
    early.Lists (sources.take early.sources.length) := by
  refine ⟨fun i source hi => ?_, ?_⟩
  · obtain ⟨hlt, rfl⟩ := List.getElem?_eq_some_iff.1 hi
    exact h.placed i _ (List.getElem?_eq_some_iff.2 ⟨_, (hearly.getElem hlt).symm⟩)
  · rw [List.map_take, ← h.names, ← List.map_take, ← List.prefix_iff_eq_take.1 hearly]

end Scope.Lists

/-- A name has the same position in a scope and in the query that the scope stands for. -/
theorem Scope.Mirrors.position?_of_lookup {scope : Scope} {query : Query}
    (hplaced : scope.Placed) (h : scope.Mirrors catalog query.sources) {name : String} :
    query.position? name = (scope.lookup name).map (·.position) :=
  (h.lists hplaced).findIdx? name

namespace ScopesMirror

variable {scopes : ScopeStack} {queries : List Query}

theorem nearest?_of_findBinding (h : ScopesMirror catalog scopes queries) {name : String}
    {level : Nat} : nearest? name level queries =
      (ScopeStack.findBinding name level scopes).map Prod.fst := by
  induction h generalizing level with
  | nil => rfl
  | cons hplaced hscope _ ih =>
    rw [nearest?, ScopeStack.findBinding, hscope.position?_of_lookup hplaced]
    cases Scope.lookup _ name with
    | none => exact ih
    | some source => rfl

/-- A reference that resolves in the scopes names its slot among the queries. -/
theorem names?_of_resolve (h : ScopesMirror catalog scopes queries) (ref : SourceRef)
    {slot : Slot} {bound : BoundSource} (hresolve : scopes.resolve ref = .ok (slot, bound)) :
    ref.names? queries = some slot := by
  cases ref with
  | position index =>
    cases h with
    | nil => cases hresolve
    | cons _ hscope _ =>
      rw [ScopeStack.resolve, ScopeStack.lookupPosition] at hresolve
      split at hresolve
      · rename_i hfound
        cases hresolve
        obtain ⟨source, hsource, -⟩ := hscope.source hfound
        rw [SourceRef.names?, hsource]
        rfl
      · cases hresolve
  | binding name =>
    rw [ScopeStack.resolve, ScopeStack.lookupBinding] at hresolve
    split at hresolve
    · rename_i hfound
      cases hresolve
      rw [SourceRef.names?, h.nearest?_of_findBinding, hfound]
      rfl
    · cases hresolve
  | parentBinding name =>
    cases h with
    | nil => cases hresolve
    | cons _ _ hscopes =>
      cases hscopes with
      | nil => cases hresolve
      | cons hplaced hparent _ =>
        rw [ScopeStack.resolve, ScopeStack.lookupParent] at hresolve
        split at hresolve
        · rename_i hfound
          cases hresolve
          rw [SourceRef.names?, hparent.position?_of_lookup hplaced, hfound]
          rfl
        · cases hresolve

end ScopesMirror

/-! ### References at their sites -/

/-- A reference resolves in some scopes to the slot that is recorded for it. -/
def Reference.Resolves (scopes : ScopeStack) (reference : Reference) : Prop :=
  ∃ slot bound, reference.slot? = some slot ∧ scopes.resolve reference.ref = .ok (slot, bound)

/-- Seen from the queries around it, a reference has the slot that it names. -/
def Reference.Named (queries : List Query) (reference : Reference) : Prop :=
  ∃ slot, reference.slot? = some slot ∧ reference.ref.names? queries = some slot

theorem Reference.Resolves.named {scopes : ScopeStack} {queries : List Query}
    {reference : Reference} (h : reference.Resolves scopes)
    (hmirror : ScopesMirror catalog scopes queries) : reference.Named queries := by
  obtain ⟨slot, bound, hslot, hresolve⟩ := h
  exact ⟨slot, hslot, hmirror.names?_of_resolve _ hresolve⟩

theorem resolves_of_bindField {scopes : ScopeStack} {f f' : FieldRef}
    (hbind : scopes.bindField f = .ok f') : (Reference.field f').Resolves scopes := by
  obtain ⟨slot, bound, storage, type, hresolve, -, rfl⟩ := bindField_eq_ok.1 hbind
  exact ⟨slot, bound, rfl, hresolve⟩

theorem resolves_of_resolveType {scopes : ScopeStack} {target target' : TypeRef}
    {type : ResolvedType} (htarget : scopes.resolveType target = .ok (target', type)) :
    ∀ reference ∈ target'.references, reference.Resolves scopes := by
  cases target with
  | builtin name =>
    rw [ScopeStack.resolveType] at htarget
    split at htarget <;> cases htarget
    simp [TypeRef.references]
  | parameterized descriptor =>
    cases htarget
    simp [TypeRef.references]
  | column f =>
    rw [ScopeStack.resolveType] at htarget
    split at htarget
    · cases htarget
    · rename_i bound hbind
      split at htarget
      · cases htarget
        exact List.forall_mem_singleton.2 (resolves_of_bindField hbind)
      · cases htarget

theorem resolves_of_check {scopes : ScopeStack} {table table' : ValuesTable}
    (hcheck : table.check catalog scopes = .ok table') :
    ∀ reference ∈ table'.types.references, reference.Resolves scopes := by
  obtain ⟨first, _, types, resolved, -, -, -, htypes, -, rfl⟩ := validate_eq_ok.1 hcheck
  change ∀ reference ∈ types.references, _
  cases types with
  | schema name => simp [ValuesTypes.references]
  | map types =>
    intro reference hreference
    obtain ⟨column, hcolumn, hreference⟩ := List.mem_flatMap.1 hreference
    obtain ⟨target, type, htarget⟩ :=
      resolve_of_resolveTypes first.ascending htypes column hcolumn
    exact resolves_of_resolveType htarget reference hreference

/-- At every site of a settled tree the references resolve in scopes that stand for its queries. -/
theorem Part.Settled.resolves {queries : List Query} {part : Part}
    (h : part.Settled catalog queries) :
    ∀ reference ∈ part.references, ∃ scopes, ScopesMirror catalog scopes queries ∧
      reference.Resolves scopes := by
  cases part with
  | query q => simp [Part.references]
  | table t => simp [Part.references]
  | expr e =>
    obtain ⟨place, _, _, _, rfl, hmirror, he⟩ := h
    intro reference hreference
    refine ⟨place.scopes, hmirror, ?_⟩
    revert reference
    cases he with
    | field hfield => exact List.forall_mem_singleton.2 (resolves_of_bindField hfield)
    | binding hslot => exact List.forall_mem_singleton.2 ⟨_, _, rfl, hslot⟩
    | parentBinding hslot => exact List.forall_mem_singleton.2 ⟨_, _, rfl, hslot⟩
    | projection hslot _ => exact List.forall_mem_singleton.2 ⟨_, _, rfl, hslot⟩
    | cast _ _ _ htarget => exact resolves_of_resolveType htarget
    | values hcheck _ => exact resolves_of_check hcheck
    | _ => simp [Part.references]

/-- At every site of a settled tree the references have the slots that they name. -/
theorem Part.Settled.named {queries : List Query} {part : Part} (h : part.Settled catalog queries) :
    ∀ reference ∈ part.references, reference.Named queries := by
  intro reference hreference
  obtain ⟨scopes, hmirror, hresolves⟩ := h.resolves reference hreference
  exact hresolves.named hmirror

end QueryCompiler
