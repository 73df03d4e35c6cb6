import QueryCompiler.Proofs.Recompilation

/-!
# The fields that a source is asked for

A field of a source may be referred to by itself or asked for by a projection of the source. Both
look the name up in the schema of the source if it has one, and take any name of a source of which
no fields are known. A values table has fields of which both the names and the types are known, but
only references look there: a projection of a values table is checked against no schema, and asks
for whatever it names.
-/

namespace QueryCompiler

/-- A step that does not fail when it is made in a state. -/
def BindM.Succeeds {α : Type} (m : BindM α) (s : BindState) : Prop := ∃ a s', m s = .ok a s'

def SourceShape.isValues : SourceShape → Bool
  | values _ => true
  | schema _ | schemaless _ | untyped => false

/-- The error with which a source refuses a field. -/
def SourceShape.refused? (shape : SourceShape) (name : String) : Option BindError :=
  match shape.field (.schema name) with
  | .ok _ => none
  | .error e => some e

/-- The error of the first of some names that the schema of a source does not have. -/
def SourceShape.unknown? (shape : SourceShape) (names : List String) : Option BindError :=
  match shape with
  | schema definition =>
    (names.find? fun name => !definition.hasField name).map (.unknownField definition.name)
  | values _ | schemaless _ | untyped => none

section

variable {ctx : Context} {ref : SourceRef} {slot : Slot} {source : BoundSource}

/-! ### One source, asked in two ways -/

/-- What binding a field does depends on what its source says of the field. -/
theorem Expr.bind_field_eq (hresolve : ctx.scopes.resolve ref = .ok (slot, source))
    (name : FieldName) (old : Option ResolvedField) (o : Bool) (s : BindState) :
    (Expr.field ⟨ref, name, old⟩).bind ctx o s = match source.shape.field name with
      | .ok (storage, type) => .ok (.field ⟨ref, name, some ⟨slot, storage, type⟩⟩) s
      | .error e => .error (.binding e) s := by
  rw [Expr.bind, ScopeStack.bindField, hresolve]
  dsimp only
  cases source.shape.field name <;> rfl

/-- A projection without associations fails with the first field that the schema does not have. -/
theorem Expr.bind_projection_eq (hresolve : ctx.scopes.resolve ref = .ok (slot, source))
    (kind : ProjectionKind) (names : List String) (old : Option Slot) (o : Bool) (s : BindState) :
    (Expr.projection kind ⟨ref, .mk names [], old⟩).bind ctx o s =
      match source.shape.unknown? names with
      | none => .ok (.projection kind ⟨ref, .mk names [], some slot⟩) s
      | some e => .error (.binding e) s := by
  rw [Expr.bind, Projection.bind, hresolve]
  obtain ⟨position, name, shape⟩ := source
  cases shape with
  | schema definition =>
    rw [SourceShape.unknown?]
    simp only [BindM.ofExcept, pure_bind]
    cases hfind : names.find? fun name => !definition.hasField name with
    | none =>
      have hcheck : checkFieldSet ctx.catalog definition (.mk names []) = pure () := by
        rw [checkFieldSet, hfind, checkNested]
      rw [hcheck]
      rfl
    | some name =>
      have hcheck : checkFieldSet ctx.catalog definition (.mk names []) =
          throw (.binding (.unknownField definition.name name)) := by
        rw [checkFieldSet, hfind]
      rw [hcheck]
      rfl
  | values types => rfl
  | schemaless table => rfl
  | untyped => rfl

theorem Expr.bind_field_succeeds_iff (hresolve : ctx.scopes.resolve ref = .ok (slot, source))
    (name : String) (old : Option ResolvedField) (o : Bool) (s : BindState) :
    ((Expr.field ⟨ref, .schema name, old⟩).bind ctx o).Succeeds s ↔
      source.shape.refused? name = none := by
  rw [BindM.Succeeds, Expr.bind_field_eq hresolve, SourceShape.refused?]
  cases source.shape.field (.schema name) <;> simp

theorem Expr.bind_projection_succeeds_iff (hresolve : ctx.scopes.resolve ref = .ok (slot, source))
    (kind : ProjectionKind) (names : List String) (old : Option Slot) (o : Bool) (s : BindState) :
    ((Expr.projection kind ⟨ref, .mk names [], old⟩).bind ctx o).Succeeds s ↔
      source.shape.unknown? names = none := by
  rw [BindM.Succeeds, Expr.bind_projection_eq hresolve]
  cases source.shape.unknown? names <;> simp

/-- Fields that are bound one after another fail with the first one that is refused. -/
theorem bindAll_fields_eq_error (hresolve : ctx.scopes.resolve ref = .ok (slot, source))
    (names : List String) (old : Option ResolvedField) (o : Bool) (s : BindState)
    {e : CompileError} {s' : BindState} :
    bindAll ctx o (names.map fun name => .field ⟨ref, .schema name, old⟩) s = .error e s' ↔
      s' = s ∧
        ∃ cause, e = .binding cause ∧ names.findSome? source.shape.refused? = some cause := by
  induction names with
  | nil =>
    constructor
    · intro h
      cases h
    · rintro ⟨-, _, -, h⟩
      cases h
  | cons name rest ih =>
    rw [List.map_cons, bindAll, List.findSome?_cons]
    change EStateM.bind _ _ _ = _ ↔ _
    rw [EStateM.bind, Expr.bind_field_eq hresolve, SourceShape.refused?]
    cases source.shape.field (.schema name) with
    | error cause => simp [eq_comm, and_comm]
    | ok found =>
      rw [← ih]
      change EStateM.bind (bindAll ctx o _) _ s = _ ↔ _
      rw [EStateM.bind]
      cases hrest : bindAll ctx o (rest.map fun name => .field ⟨ref, .schema name, old⟩) s with
      | error e t => rfl
      | ok es t => constructor <;> intro h <;> cases h

/-- Apart from values tables, projections are refused what fields are refused. -/
theorem SourceShape.unknown?_eq {shape : SourceShape} (hvalues : shape.isValues = false)
    (names : List String) : shape.unknown? names = names.findSome? shape.refused? := by
  cases shape with
  | values types => cases hvalues
  | schemaless table =>
    rw [SourceShape.unknown?, eq_comm, List.findSome?_eq_none_iff]
    intro name _
    rfl
  | untyped =>
    rw [SourceShape.unknown?, eq_comm, List.findSome?_eq_none_iff]
    intro name _
    rfl
  | schema definition =>
    induction names with
    | nil => rfl
    | cons name rest ih =>
      rw [List.findSome?_cons, ← ih, SourceShape.refused?, SourceShape.field, SourceShape.unknown?,
        SourceShape.unknown?, List.find?_cons, Schema.hasField]
      cases definition.field? name <;> rfl

theorem SourceShape.refused?_values {types : SortedMap ResolvedType} {name : String} :
    (SourceShape.values types).refused? name = none ↔ types.contains name = true := by
  rw [SourceShape.refused?, SourceShape.field, SortedMap.contains]
  cases types.get? name <;> simp

end

/-! ### Agreement -/

/--
However a source is referred to, a projection of it that asks for some fields and no associations
succeeds exactly if a reference to each of these fields does, and fails with the error of the first
that does not, unless the source is a values table. Of a values table every projection without
associations succeeds, and a reference to a field succeeds exactly if the table has the field.
-/
theorem bind_projection_agrees (ctx : Context) (ref : SourceRef) (slot : Slot)
    (source : BoundSource) (hresolve : ctx.scopes.resolve ref = .ok (slot, source))
    (kind : ProjectionKind) (names : List String) (oldSlot : Option Slot)
    (old : Option ResolvedField) (o : Bool) (s : BindState) :
    (source.shape.isValues = false →
      (((Expr.projection kind ⟨ref, .mk names [], oldSlot⟩).bind ctx o).Succeeds s ↔
        ∀ name ∈ names, ((Expr.field ⟨ref, .schema name, old⟩).bind ctx o).Succeeds s) ∧
      ∀ e s', (Expr.projection kind ⟨ref, .mk names [], oldSlot⟩).bind ctx o s = .error e s' ↔
        bindAll ctx o (names.map fun name => .field ⟨ref, .schema name, old⟩) s = .error e s') ∧
    ∀ types, source.shape = .values types →
      ((Expr.projection kind ⟨ref, .mk names [], oldSlot⟩).bind ctx o).Succeeds s ∧
      ∀ name, ((Expr.field ⟨ref, .schema name, old⟩).bind ctx o).Succeeds s ↔
        types.contains name = true := by
  refine ⟨fun hvalues => ⟨?_, fun e s' => ?_⟩, fun types htypes => ⟨?_, fun name => ?_⟩⟩
  · rw [Expr.bind_projection_succeeds_iff hresolve, SourceShape.unknown?_eq hvalues,
      List.findSome?_eq_none_iff]
    exact forall₂_congr fun name _ => (Expr.bind_field_succeeds_iff hresolve name old o s).symm
  · rw [bindAll_fields_eq_error hresolve, Expr.bind_projection_eq hresolve,
      SourceShape.unknown?_eq hvalues]
    cases names.findSome? source.shape.refused? <;> simp [eq_comm, and_comm]
  · rw [Expr.bind_projection_succeeds_iff hresolve, htypes]
    rfl
  · rw [Expr.bind_field_succeeds_iff hresolve, htypes]
    exact SourceShape.refused?_values

/-- A place where one source is in scope. -/
def besideSource (shape : SourceShape) : Context :=
  { Context.top .empty .default with scopes := [⟨[⟨0, some "v", shape⟩]⟩] }

/-- Posts have a title and no rating, whether they are asked for both at once or one by one. -/
theorem bind_projection_agrees_posts :
    (besideSource (.schema postSchema)).scopes.resolve (.binding "v") =
        .ok (⟨0, 0⟩, ⟨0, some "v", .schema postSchema⟩) ∧
      (SourceShape.schema postSchema).isValues = false ∧
      ∃ e, (Expr.projection .struct ⟨.binding "v", .mk ["title", "rating"] [], none⟩).bind
          (besideSource (.schema postSchema)) true .start = .error e .start ∧
        bindAll (besideSource (.schema postSchema)) true
          (["title", "rating"].map fun name => .field ⟨.binding "v", .schema name, none⟩) .start =
            .error e .start :=
  ⟨rfl, rfl, _, rfl, (((bind_projection_agrees (besideSource (.schema postSchema)) (.binding "v") _
    _ rfl .struct ["title", "rating"] none none true .start).1 rfl).2 _ _).1 rfl⟩

/-- A values table can be asked for a field that no reference to it may name. -/
theorem exists_projected_unreferable :
    ¬ ∀ (ctx : Context) (ref : SourceRef) (slot : Slot) (source : BoundSource),
      ctx.scopes.resolve ref = .ok (slot, source) →
      ∀ (kind : ProjectionKind) (names : List String) (o : Bool) (s : BindState),
        ((Expr.projection kind ⟨ref, .mk names [], none⟩).bind ctx o).Succeeds s ↔
          ∀ name ∈ names, ((Expr.field ⟨ref, .schema name, none⟩).bind ctx o).Succeeds s := by
  intro h
  have hagrees := h (besideSource (.values (.ofList [("id", .builtin .integer)]))) (.binding "v")
    _ _ rfl .struct ["id", "name"] true .start
  obtain ⟨_, _, hname⟩ := hagrees.1 ⟨_, _, rfl⟩ "name" (.tail _ (List.mem_singleton_self _))
  cases hname

end QueryCompiler
