import QueryCompiler.Proofs.Validation
import QueryCompiler.Proofs.Validity

/-!
# Casts to the type of a field

A source of a schema declares the types of its fields, and so does a values source whose types are
builtin, described, or those of a schema. The declared type goes from there into the scope and from
the scope into the field that a cast takes its type from. It arrives if it is builtin; a described
type is kept in the scope but not in the field, and the cast is then refused.
-/

namespace QueryCompiler

variable {catalog : Catalog} {scopes : ScopeStack} {queries : List Query}

/-! ### Declared types -/

/-- The type that a target names by itself, without a field. -/
def TypeRef.own? : TypeRef → Option ResolvedType
  | builtin name => (DataType.ofName? name).map .builtin
  | column _ => none
  | parameterized descriptor => some (.parameterized descriptor)

/-- What a source, as it is written, says of the type of a field. -/
inductive Source.Declares (catalog : Catalog) (source : Source) (name : String) :
    ResolvedType → Prop where
  | schema {reference : String} {schema : Schema} {field : SchemaField}
      (horigin : source.origin = .schema reference) (hschema : catalog.get? reference = some schema)
      (hfield : schema.field? name = some field) :
      Source.Declares catalog source name (.builtin field.type)
  | target {table : ValuesTable} {types : SortedMap TypeRef} {target : TypeRef}
      {type : ResolvedType} (horigin : source.origin = .values table)
      (htypes : table.types = .map types) (htarget : types.get? name = some target)
      (htype : target.own? = some type) :
      Source.Declares catalog source name type
  | row {table : ValuesTable} {reference : String} {schema : Schema} {field : SchemaField}
      (horigin : source.origin = .values table) (htypes : table.types = .schema reference)
      (hname : name ∈ table.fieldNames) (hschema : catalog.get? reference = some schema)
      (hfield : schema.field? name = some field) :
      Source.Declares catalog source name (.builtin field.type)

/-- The scopes of nested queries, each as it is when all its sources are declared. -/
inductive Opened (catalog : Catalog) : ScopeStack → List Query → Prop where
  | nil : Opened catalog [] []
  | cons {scopes : ScopeStack} {queries : List Query} {query : Query}
      {tables : List (Option ValuesTable)} {scope : Scope}
      (hdeclared : declareSources catalog scopes .empty query.sources = (.ok tables, scope))
      (hscopes : Opened catalog scopes queries) :
      Opened catalog (scope :: scopes) (query :: queries)

theorem Opened.shows (h : Opened catalog scopes queries) :
    List.Forall₂ (Scope.Shows catalog) scopes queries := by
  induction h with
  | nil => exact .nil
  | cons hdeclared _ ih => exact .cons (Scope.shows_of_declareSources hdeclared) ih

/-! ### From the source to the field -/

theorem resolveType_of_own? (scopes : ScopeStack) {target : TypeRef} {type : ResolvedType}
    (h : target.own? = some type) :
    ∃ target', scopes.resolveType target = .ok (target', type) := by
  cases target with
  | builtin name =>
    obtain ⟨t, ht, rfl⟩ := Option.map_eq_some_iff.1 h
    exact ⟨.builtin name, by rw [ScopeStack.resolveType, resolveBuiltin, ht]⟩
  | column field => cases h
  | parameterized descriptor =>
    cases h
    exact ⟨_, rfl⟩

/-- A checked table has the types that it declares. -/
theorem get?_of_declares {table table' : ValuesTable} (h : table.check catalog scopes = .ok table')
    {source : Source} (horigin : source.origin = .values table) {name : String}
    {type : ResolvedType} (hdeclares : source.Declares catalog name type) :
    table'.resolved.get? name = some type := by
  rw [get?_of_check h]
  cases hdeclares with
  | schema horigin' =>
    rw [horigin] at horigin'
    cases horigin'
  | target horigin' htypes htarget htype =>
    rw [horigin] at horigin'
    cases horigin'
    have hwell := ValuesTable.wellTyped_of_validate h
    refine ⟨hwell.named name ?_, ?_⟩
    · rw [htypes]
      exact mem_keys_of_get? htarget
    · obtain ⟨target', htarget'⟩ := resolveType_of_own? scopes htype
      simp [htypes, ValuesTypes.type?, htarget, htarget', Except.toOption]
  | row horigin' htypes hname hschema hfield =>
    rw [horigin] at horigin'
    cases horigin'
    exact ⟨hname, by simp [htypes, ValuesTypes.type?, hschema, hfield]⟩

/-- A source of a scope has a declared field, with its type as far as that is builtin. -/
theorem BoundSource.Shows.field {bound : BoundSource} {source : Source}
    (h : bound.Shows catalog source) {name : String} {type : ResolvedType}
    (hdeclares : source.Declares catalog name type) :
    ∃ storage, bound.shape.field (.schema name) = .ok (storage, type.builtin?) := by
  obtain ⟨-, scopes, table, hdeclare⟩ := h
  have hvalues : ∀ {table}, source.origin = .values table →
      ∃ storage, bound.shape.field (.schema name) = .ok (storage, type.builtin?) := by
    intro table horigin
    obtain ⟨origin, sourceName⟩ := source
    cases horigin
    rw [Source.declare] at hdeclare
    split at hdeclare
    · rename_i table' hcheck
      obtain ⟨hshape, -⟩ := Prod.mk.inj (Except.ok.inj hdeclare)
      refine ⟨name, ?_⟩
      rw [← hshape, SourceShape.field, get?_of_declares hcheck rfl hdeclares]
    · cases hdeclare
  cases hdeclares with
  | @schema _ _ field horigin hschema hfield =>
    obtain ⟨origin, sourceName⟩ := source
    cases horigin
    rw [Source.declare, hschema] at hdeclare
    obtain ⟨hshape, -⟩ := Prod.mk.inj (Except.ok.inj hdeclare)
    refine ⟨field.storage, ?_⟩
    rw [← hshape, SourceShape.field, hfield]
    rfl
  | target horigin => exact hvalues horigin
  | row horigin => exact hvalues horigin

/-- A target that takes its type from a declared field resolves exactly if that is builtin. -/
theorem resolveType_column {scopes : ScopeStack}
    (hshows : List.Forall₂ (Scope.Shows catalog) scopes queries) {ref : SourceRef} {source : Source}
    (hsource : ref.source? queries = some source) {name : String} {type : ResolvedType}
    (hdeclares : source.Declares catalog name type) (resolved : Option ResolvedField) :
    ∃ slot storage, scopes.resolveType (.column ⟨ref, .schema name, resolved⟩) =
      match type.builtin? with
      | some t => .ok (.column ⟨ref, .schema name, some ⟨slot, storage, some t⟩⟩, .builtin t)
      | none => .error (.untypedField name) := by
  obtain ⟨slot, bound, hresolve, hbound⟩ := resolve_of_source? hshows hsource
  obtain ⟨storage, hfield⟩ := hbound.field hdeclares
  have hbind : scopes.bindField ⟨ref, .schema name, resolved⟩ =
      .ok ⟨ref, .schema name, some ⟨slot, storage, type.builtin?⟩⟩ :=
    bindField_eq_ok.2 ⟨slot, bound, storage, _, hresolve, hfield, rfl⟩
  refine ⟨slot, storage, ?_⟩
  rw [ScopeStack.resolveType, hbind]
  cases type.builtin? <;> rfl

theorem builtin_of_builtin? {type : ResolvedType} {t : DataType} (h : type.builtin? = some t) :
    type = .builtin t := by
  cases type with
  | builtin => exact congrArg ResolvedType.builtin (Option.some.inj h)
  | array | parameterized => cases h

/-! ### Casts -/

theorem Expr.isCastable_bind {ctx : Context} {o : Bool} {e e' : Expr} {s s' : BindState}
    (h : e.bind ctx o s = .ok e' s') (hcastable : e.isCastable = true) : e'.isCastable = true := by
  cases e with
  | param p =>
    obtain ⟨rfl, -⟩ := Expr.bind_param.1 h
    rfl
  | aggregate kind args distinct filter =>
    obtain ⟨-, _, _, _, -, -, rfl⟩ := Expr.bind_aggregate.1 h
    rfl
  | fragment text parts args =>
    obtain ⟨_, _, -, -, rfl⟩ := Expr.bind_fragment.1 h
    rfl
  | operator op operands =>
    obtain ⟨-, _, -, rfl⟩ := Expr.bind_operator.1 h
    exact hcastable
  | _ => cases hcastable

/-- The binding of a cast whose value is bound depends on its target alone. -/
theorem Expr.bind_cast_eq {ctx : Context} {o : Bool} {value value' : Expr} {s s' : BindState}
    (hvalue : value.bind ctx false s = .ok value' s') (hcastable : value'.isCastable = true)
    (target : TypeRef) (old : Option ResolvedType) :
    (Expr.cast value target old).bind ctx o s =
      match ctx.scopes.resolveType target with
      | .ok (target', type) => .ok (.cast (value'.withCastType type) target' (some type)) s'
      | .error e => .error (.cast e) s' := by
  have hcheck : checkCastOperand value' = .ok () := checkCastOperand_eq_ok.2 hcastable
  rw [Expr.bind]
  change EStateM.bind (value.bind ctx false) _ s = _
  rw [EStateM.bind, hvalue]
  dsimp only
  rw [hcheck]
  cases ctx.scopes.resolveType target <;> rfl

/-- In the scopes of nested queries, a cast to a declared type takes it on if it is builtin. -/
theorem bind_column_cast {ctx : Context} {queries : List Query} {ref : SourceRef} {source : Source}
    {name : String} {type : ResolvedType} (hopened : Opened ctx.catalog ctx.scopes queries)
    (hsource : ref.source? queries = some source)
    (hdeclares : source.Declares ctx.catalog name type) {value value' : Expr} {s s' : BindState}
    (hcastable : value.isCastable = true) (hvalue : value.bind ctx false s = .ok value' s')
    (resolved : Option ResolvedField) (old : Option ResolvedType) (o : Bool) :
    (∀ t, type = .builtin t → ∃ target,
      (Expr.cast value (.column ⟨ref, .schema name, resolved⟩) old).bind ctx o s =
        .ok (.cast (value'.withCastType type) target (some type)) s') ∧
    (type.builtin? = none →
      (Expr.cast value (.column ⟨ref, .schema name, resolved⟩) old).bind ctx o s =
        .error (.cast (.untypedField name)) s') := by
  obtain ⟨slot, storage, htarget⟩ := resolveType_column hopened.shows hsource hdeclares resolved
  rw [Expr.bind_cast_eq hvalue (Expr.isCastable_bind hvalue hcastable), htarget]
  constructor
  · rintro t rfl
    exact ⟨_, rfl⟩
  · intro hnone
    rw [hnone]

/-- A query with a cast to a declared type that is not builtin does not compile. -/
theorem error_of_column_cast {config : Config} {query : Query} {site : List Query × Part}
    (hsite : site ∈ query.sites []) {value : Expr} {ref : SourceRef} {name : String}
    {resolved : Option ResolvedField} {old : Option ResolvedType} {source : Source}
    {type : ResolvedType}
    (hcast : site.2 = .expr (.cast value (.column ⟨ref, .schema name, resolved⟩) old))
    (hsource : ref.source? site.1 = some source) (hdeclares : source.Declares catalog name type)
    (hnone : type.builtin? = none) : ∃ e, query.compile catalog config = .error e := by
  cases hcompile : query.compile catalog config with
  | error e => exact ⟨e, rfl⟩
  | ok c =>
    have hchecked := checked_of_compile hcompile site hsite
    rw [hcast] at hchecked
    obtain ⟨scopes, found, hshows, hfound⟩ := hchecked
    obtain ⟨slot, storage, htarget⟩ := resolveType_column hshows hsource hdeclares resolved
    rw [htarget, hnone] at hfound
    cases hfound

theorem BoundSource.Mirrors.shows {bound : BoundSource} {source : Source}
    (h : bound.Mirrors catalog source) : bound.Shows catalog source :=
  ⟨h.1, h.2.choose, _, h.2.choose_spec⟩

/-- A settled cast to a declared type has exactly that type, and so has a parameter inside it. -/
theorem type_of_settled_cast {queries : List Query} {value : Expr} {field : FieldRef}
    {found : ResolvedField} {resolved : Option ResolvedType} {name : String} {source : Source}
    {type : ResolvedType}
    (h : (Part.expr (.cast value (.column field) resolved)).Settled catalog queries)
    (hname : field.name = .schema name) (hfound : field.resolved = some found)
    (hreaches : found.slot.Reaches queries source) (hdeclares : source.Declares catalog name type) :
    resolved = some type ∧ ∀ p, value = .param p → p.type = some type := by
  obtain ⟨place, o, k, k', rfl, hmirror, hsettled⟩ := h
  cases hsettled with
  | cast _ _ htype htarget =>
    rw [ScopeStack.resolveType] at htarget
    split at htarget
    · cases htarget
    rename_i bound hbind
    split at htarget
    · rename_i t ht
      cases htarget
      obtain ⟨slot, shown, storage, declared, hresolve, hshape, heq⟩ := bindField_eq_ok.1 hbind
      have hresolved : field.resolved = some ⟨slot, storage, declared⟩ :=
        congrArg FieldRef.resolved heq
      rw [hresolved] at hfound ht
      cases hfound
      obtain ⟨source', hreaches', -, hmirrors⟩ := hmirror.resolve hresolve
      obtain rfl := hreaches.unique hreaches'
      obtain ⟨storage', hshape'⟩ := hmirrors.shows.field hdeclares
      rw [← hname, hshape] at hshape'
      cases hshape'
      obtain rfl := builtin_of_builtin? ht
      refine ⟨rfl, ?_⟩
      rintro p rfl
      exact (congrArg Param.type (Expr.param.inj htype)).symm
    · cases htarget

/--
In the scopes of nested queries, a reference that means a source which declares a type for a field
makes a cast to that field take on exactly this type, and a parameter inside the cast too, if the
type is builtin; otherwise the cast fails for want of a declared type. A query with a cast to a
declared type that is not builtin, at whatever depth, therefore does not compile. Every cast to a
declared field in a compiled query has exactly the declared type, and so has a parameter inside it.
-/
theorem compile_column_casts (catalog : Catalog) (config : Config) :
    (∀ (ctx : Context) (queries : List Query), ctx.catalog = catalog →
      Opened catalog ctx.scopes queries → ∀ ref source name type,
      ref.source? queries = some source → source.Declares catalog name type →
      ∀ value value' s s', value.isCastable = true → value.bind ctx false s = .ok value' s' →
      ∀ resolved old outermost,
        (∀ t, type = .builtin t → ∃ target,
          (Expr.cast value (.column ⟨ref, .schema name, resolved⟩) old).bind ctx outermost s =
            .ok (.cast (value'.withCastType type) target (some type)) s') ∧
        (type.builtin? = none →
          (Expr.cast value (.column ⟨ref, .schema name, resolved⟩) old).bind ctx outermost s =
            .error (.cast (.untypedField name)) s')) ∧
    (∀ (query : Query), ∀ site ∈ query.sites [], ∀ value ref name resolved old source type,
      site.2 = .expr (.cast value (.column ⟨ref, .schema name, resolved⟩) old) →
      ref.source? site.1 = some source → source.Declares catalog name type →
      type.builtin? = none → ∃ e, query.compile catalog config = .error e) ∧
    (∀ (query : Query) (c : CompiledQuery), query.compile catalog config = .ok c →
      ∀ site ∈ c.query.sites [], ∀ value field resolved found name source type,
      site.2 = .expr (.cast value (.column field) resolved) → field.name = .schema name →
      field.resolved = some found → found.slot.Reaches site.1 source →
      source.Declares catalog name type →
      resolved = some type ∧ ∀ p, value = .param p → p.type = some type) := by
  refine ⟨?_, ?_, ?_⟩
  · rintro ctx queries rfl hopened ref source name type hsource hdeclares value value' s s'
      hcastable hvalue
    exact bind_column_cast hopened hsource hdeclares hcastable hvalue
  · intro query site hsite value ref name resolved old source type hcast hsource hdeclares hnone
    exact error_of_column_cast hsite hcast hsource hdeclares hnone
  · intro query c h site hsite value field resolved found name source type hcast hname hfound
      hreaches hdeclares
    have hsettled := sites_of_compile h site hsite
    rw [hcast] at hsettled
    exact type_of_settled_cast hsettled hname hfound hreaches hdeclares

/-- Tasks with a number and a status, of which the latter has a type of its own. -/
def tasks : Source :=
  .mk (.values (.ofRows [.ofList [("id", .integer 1), ("status", .string "open")]] (.map (.ofList
    [("id", .builtin "integer"), ("status", .parameterized ⟨"enum", .empty⟩)])))) none

/-- A word that is cast to the type of a field of the tasks. -/
def castToTask (field : String) : Expr :=
  .cast (.param (.ofValue (.string "closed"))) (.column ⟨.position 0, .schema field, none⟩) none

def closedTasks (field : String) : Query :=
  .mk tasks [] [] (some (castToTask field)) [] [] [] none none false

theorem tasks_declares_id : tasks.Declares .empty "id" (.builtin .integer) :=
  .target rfl rfl rfl rfl

theorem tasks_declares_status :
    tasks.Declares .empty "status" (.parameterized ⟨"enum", .empty⟩) :=
  .target rfl rfl rfl rfl

/-- The scope of the tasks keeps both types. -/
def taskScope : Scope :=
  ⟨[⟨0, none, .values (.ofList
    [("id", .builtin .integer), ("status", .parameterized ⟨"enum", .empty⟩)])⟩]⟩

def taskContext : Context := ⟨.empty, .default, [taskScope], .empty false⟩

theorem opened_closedTasks (field : String) :
    Opened taskContext.catalog taskContext.scopes [closedTasks field] := .cons rfl .nil

theorem compile_column_casts_closedTasks :
    (∃ target s, (castToTask "id").bind taskContext false .start = .ok
      (.cast (.param ⟨.string "closed", some 0, some (.builtin .integer), false⟩) target
        (some (.builtin .integer))) s) ∧
    (∃ e, (closedTasks "status").compile .empty .default = .error e) ∧
    ∃ c value field resolved, (closedTasks "id").compile .empty .default = .ok c ∧
      ([c.query], .expr (.cast value (.column field) resolved)) ∈ c.query.sites [] ∧
      resolved = some (.builtin .integer) := by
  obtain ⟨hbind, hrefused, htyped⟩ := compile_column_casts .empty .default
  refine ⟨?_, ?_, ?_⟩
  · obtain ⟨target, hcast⟩ := (hbind taskContext [closedTasks "id"] rfl (opened_closedTasks "id")
      (.position 0) tasks "id" _ rfl tasks_declares_id (.param (.ofValue (.string "closed"))) _
      .start _ rfl rfl none none false).1 .integer rfl
    exact ⟨target, _, hcast⟩
  · exact hrefused (closedTasks "status") _ (List.mem_of_getElem? (i := 2) rfl) _ _ "status" _ _
      tasks _ rfl rfl tasks_declares_status rfl
  · refine ⟨_, _, _, _, rfl, List.mem_of_getElem? (i := 2) rfl, ?_⟩
    exact (htyped (closedTasks "id") _ rfl _ (List.mem_of_getElem? (i := 2) rfl) _ _ _ _ "id" _ _
      rfl rfl rfl ⟨_, rfl, rfl⟩ (.target rfl rfl rfl rfl)).1

/-- A described type is declared, and a cast does not get it. -/
theorem exists_column_cast_refused :
    (closedTasks "status").compile .empty .default = .error (.cast (.untypedField "status")) ∧
    ¬ ∀ (ctx : Context) (queries : List Query), Opened ctx.catalog ctx.scopes queries →
      ∀ ref source name type, ref.source? queries = some source →
      source.Declares ctx.catalog name type →
      ∀ value value' s s', value.isCastable = true → value.bind ctx false s = .ok value' s' →
      ∃ target, (Expr.cast value (.column ⟨ref, .schema name, none⟩) none).bind ctx false s =
        .ok (.cast (value'.withCastType type) target (some type)) s' := by
  refine ⟨rfl, fun h => ?_⟩
  obtain ⟨target, hcast⟩ := h taskContext [closedTasks "status"] (opened_closedTasks "status")
    (.position 0) tasks "status" _ rfl tasks_declares_status
    (.param (.ofValue (.string "closed"))) _ .start _ rfl rfl
  cases hcast

end QueryCompiler
