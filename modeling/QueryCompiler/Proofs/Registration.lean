import Mathlib.Data.List.Induction
import Mathlib.Data.List.Nodup
import QueryCompiler.Catalog
import QueryCompiler.Proofs.Maps

/-!
# Registered schemas

A schema is checked in three places: when it is built it has no associations yet, an association is
compared with what is there when it is added, and a name is compared with the registered ones when
the schema is registered. Together these checks let through exactly the schemas in which every name
has one meaning, and a catalog holds at each name the first schema that was registered with it.
-/

namespace QueryCompiler

/-! ### Distinct names -/

theorem firstRepeated_eq_none {seen names : List String} :
    firstRepeated seen names = none ↔ names.Nodup ∧ ∀ name ∈ names, name ∉ seen := by
  induction names generalizing seen with
  | nil => simp [firstRepeated]
  | cons name rest ih =>
    rw [firstRepeated, List.nodup_cons, List.forall_mem_cons]
    by_cases hseen : name ∈ seen
    · simp [hseen]
    · rw [if_neg hseen, ih]
      constructor
      · rintro ⟨hnodup, hfresh⟩
        refine ⟨⟨fun hrest => hfresh name hrest List.mem_cons_self, hnodup⟩, hseen, ?_⟩
        exact fun n hn hmem => hfresh n hn (List.mem_cons_of_mem _ hmem)
      · rintro ⟨⟨hrest, hnodup⟩, -, hfresh⟩
        refine ⟨hnodup, fun n hn hmem => ?_⟩
        rcases List.mem_cons.1 hmem with rfl | hmem
        · exact hrest hn
        · exact hfresh n hn hmem

/-- Among things with distinct names the first with a name is the only one. -/
theorem find?_eq_some_of_nodup {α : Type} {nameOf : α → String} {xs : List α}
    (h : (xs.map nameOf).Nodup) (name : String) (x : α) :
    xs.find? (fun y => nameOf y == name) = some x ↔ x ∈ xs ∧ nameOf x = name := by
  constructor
  · intro hfind
    exact ⟨List.mem_of_find?_eq_some hfind, by simpa using List.find?_some hfind⟩
  · rintro ⟨hmem, rfl⟩
    cases hfind : xs.find? fun y => nameOf y == nameOf x with
    | none => simpa using List.find?_eq_none.1 hfind x hmem
    | some y =>
      have hname : nameOf y = nameOf x := by simpa using List.find?_some hfind
      rw [List.inj_on_of_nodup_map h (List.mem_of_find?_eq_some hfind) hmem hname]

namespace Schema

variable {schema schema' : Schema} {name storage : String} {fields : List SchemaField}
  {primaryKey : List String} {associations : List Association} {association : Association}

theorem field?_isSome : (schema.field? name).isSome = true ↔ name ∈ schema.fields.map (·.name) := by
  simp [field?, List.find?_isSome]

theorem association?_isSome :
    (schema.association? name).isSome = true ↔ name ∈ schema.associations.map (·.name) := by
  simp [association?, List.find?_isSome]

/-- What the checks of a schema come to. -/
structure WellFormed (schema : Schema) : Prop where
  fields : schema.fields ≠ []
  fieldNames : (schema.fields.map (·.name)).Nodup
  primaryKey : ∀ key ∈ schema.primaryKey, key ∈ schema.fields.map (·.name)
  associationNames : (schema.associations.map (·.name)).Nodup
  apart : ∀ association ∈ schema.associations, association.name ∉ schema.fields.map (·.name)

/--
At most one field or association has a given name. A lookup, which takes the first match, thus finds
whatever has the name.
-/
structure Unambiguous (schema : Schema) : Prop where
  once (name : String) : schema.fields.countP (·.name == name) +
    schema.associations.countP (·.name == name) ≤ 1
  field (name : String) (f : SchemaField) :
    schema.field? name = some f ↔ f ∈ schema.fields ∧ f.name = name
  association (name : String) (a : Association) :
    schema.association? name = some a ↔ a ∈ schema.associations ∧ a.name = name

theorem WellFormed.names_nodup (h : schema.WellFormed) :
    (schema.fields.map (·.name) ++ schema.associations.map (·.name)).Nodup := by
  refine List.nodup_append.2 ⟨h.fieldNames, h.associationNames, ?_⟩
  rintro name hfield _ hassociation rfl
  obtain ⟨association, hmem, rfl⟩ := List.mem_map.1 hassociation
  exact h.apart association hmem hfield

theorem WellFormed.unambiguous (h : schema.WellFormed) : schema.Unambiguous where
  once name := by
    have hcount := List.nodup_iff_count_le_one.1 h.names_nodup name
    rw [List.count_append, List.count_eq_countP, List.count_eq_countP, List.countP_map,
      List.countP_map] at hcount
    exact hcount
  field name f := find?_eq_some_of_nodup h.fieldNames name f
  association name a := find?_eq_some_of_nodup h.associationNames name a

/-! ### Schemas that can be made -/

/--
A schema that is built and then given associations one after another. A call that fails makes no
schema.
-/
inductive Made : Schema → Prop where
  | build {name storage : String} {fields : List SchemaField} {primaryKey : List String}
      {schema : Schema} (h : Schema.build name storage fields primaryKey = .ok schema) :
      Made schema
  | associate {schema schema' : Schema} {association : Association} (hmade : Made schema)
      (h : schema.addAssociation association = .ok schema') : Made schema'

theorem wellFormed_iff_of_no_associations :
    WellFormed ⟨name, storage, fields, primaryKey, []⟩ ↔
      fields ≠ [] ∧ (fields.map (·.name)).Nodup ∧ ∀ key ∈ primaryKey, key ∈ fields.map (·.name) :=
  ⟨fun h => ⟨h.fields, h.fieldNames, h.primaryKey⟩,
    fun ⟨hfields, hnames, hkey⟩ => ⟨hfields, hnames, hkey, .nil, fun _ h => nomatch h⟩⟩

theorem build_eq_ok :
    build name storage fields primaryKey = .ok schema ↔
      schema = ⟨name, storage, fields, primaryKey, []⟩ ∧ schema.WellFormed := by
  have hunrepeated : firstRepeated [] (fields.map (·.name)) = none ↔
      (fields.map (·.name)).Nodup := by
    simp [firstRepeated_eq_none]
  have hkey : primaryKey.find? (fun key => !hasField ⟨name, storage, fields, primaryKey, []⟩ key) =
      none ↔ ∀ key ∈ primaryKey, key ∈ fields.map (·.name) := by
    simp only [List.find?_eq_none, hasField, Bool.not_eq_true', Bool.not_eq_false, field?_isSome]
  constructor
  · intro h
    rw [build] at h
    split at h
    · cases h
    rename_i hfields
    split at h
    · cases h
    rename_i hnames
    split at h
    · cases h
    rename_i hkeys
    cases h
    refine ⟨rfl, wellFormed_iff_of_no_associations.2 ⟨?_, hunrepeated.1 hnames, hkey.1 hkeys⟩⟩
    rintro rfl
    exact hfields rfl
  · rintro ⟨rfl, h⟩
    obtain ⟨hfields, hnames, hkeys⟩ := wellFormed_iff_of_no_associations.1 h
    rw [build, if_neg (by simpa using hfields)]
    simp only [hunrepeated.2 hnames, hkey.2 hkeys]

theorem addAssociation_eq_ok :
    schema.addAssociation association = .ok schema' ↔
      schema' = { schema with associations := schema.associations ++ [association] } ∧
      association.name ∉ schema.fields.map (·.name) ∧
      association.name ∉ schema.associations.map (·.name) := by
  rw [addAssociation, ← field?_isSome, ← association?_isSome]
  split
  · rename_i htaken
    rw [Bool.or_eq_true] at htaken
    simp only [reduceCtorEq, false_iff]
    rintro ⟨-, hfield, hassociation⟩
    exact htaken.elim hfield hassociation
  · rename_i hfree
    rw [Bool.or_eq_true, not_or] at hfree
    rw [Except.ok.injEq, eq_comm]
    exact ⟨fun h => ⟨h, hfree⟩, fun h => h.1⟩

/-- One association more keeps a schema well-formed exactly if its name is new. -/
theorem wellFormed_append :
    WellFormed ⟨name, storage, fields, primaryKey, associations ++ [association]⟩ ↔
      WellFormed ⟨name, storage, fields, primaryKey, associations⟩ ∧
      association.name ∉ fields.map (·.name) ∧ association.name ∉ associations.map (·.name) := by
  constructor
  · rintro ⟨hfields, hnames, hkey, hassociations, hapart⟩
    rw [List.map_append, List.nodup_append] at hassociations
    obtain ⟨hassociations, -, hnew⟩ := hassociations
    refine ⟨⟨hfields, hnames, hkey, hassociations, fun a ha => ?_⟩, ?_, fun hmem => ?_⟩
    · exact hapart a (List.mem_append_left _ ha)
    · exact hapart association (List.mem_append_right _ List.mem_cons_self)
    · exact hnew _ hmem _ List.mem_cons_self rfl
  · rintro ⟨⟨hfields, hnames, hkey, hassociations, hapart⟩, hfield, hnew⟩
    refine ⟨hfields, hnames, hkey, ?_, fun a ha => ?_⟩
    · rw [List.map_append, List.map_singleton]
      exact List.nodup_append.2 ⟨hassociations, List.nodup_singleton _, by
        rintro n hn _ hmem rfl
        exact hnew (List.mem_singleton.1 hmem ▸ hn)⟩
    · rcases List.mem_append.1 ha with ha | ha
      · exact hapart a ha
      · rw [List.mem_singleton.1 ha]
        exact hfield

/-- The checks let through the well-formed schemas and no others. -/
theorem made_iff_wellFormed : schema.Made ↔ schema.WellFormed := by
  constructor
  · intro h
    induction h with
    | build h => exact (build_eq_ok.1 h).2
    | associate _ h ih =>
      obtain ⟨rfl, hnew⟩ := addAssociation_eq_ok.1 h
      exact wellFormed_append.2 ⟨ih, hnew⟩
  · intro h
    obtain ⟨name, storage, fields, primaryKey, associations⟩ := schema
    induction associations using List.reverseRecOn with
    | nil => exact .build (build_eq_ok.2 ⟨rfl, h⟩)
    | append_singleton associations association ih =>
      obtain ⟨hbefore, hnew⟩ := wellFormed_append.1 h
      exact .associate (ih hbefore) (addAssociation_eq_ok.2 ⟨rfl, hnew⟩)

end Schema

/-! ### Registering -/

namespace Catalog

variable {catalog : Catalog} {schema : Schema}

/-- Registers a schema where the catalog stands. -/
def registerIn (catalog : Catalog) (schema : Schema) : Catalog × Except SchemaError Unit :=
  if catalog.contains schema.name then (catalog, .error (.alreadyRegistered schema.name))
  else (⟨catalog.schemas.insert schema.name schema⟩, .ok ())

/-- What some calls leave, those that fail included. -/
def registerAll (catalog : Catalog) (calls : List Schema) : Catalog :=
  calls.foldl (fun catalog schema => (catalog.registerIn schema).1) catalog

theorem register_eq_registerIn (catalog : Catalog) (schema : Schema) :
    catalog.register schema =
      (catalog.registerIn schema).2.map fun _ => (catalog.registerIn schema).1 := by
  rw [register, registerIn]
  split <;> rfl

/-- A call registers a schema under a name that is free, and does nothing if the name is taken. -/
theorem registerIn_cases (catalog : Catalog) (schema : Schema) :
    (catalog.get? schema.name = none ∧
      catalog.registerIn schema = (⟨catalog.schemas.insert schema.name schema⟩, .ok ())) ∨
    ((catalog.get? schema.name).isSome = true ∧
      catalog.registerIn schema = (catalog, .error (.alreadyRegistered schema.name))) := by
  rw [registerIn, contains, SortedMap.contains, get?]
  cases catalog.schemas.get? schema.name with
  | none => exact Or.inl ⟨rfl, rfl⟩
  | some definition => exact Or.inr ⟨rfl, rfl⟩

theorem get?_registerIn (catalog : Catalog) (schema : Schema) (name : String) :
    (catalog.registerIn schema).1.get? name =
      (catalog.get? name).or (if schema.name = name then some schema else none) := by
  rcases registerIn_cases catalog schema with ⟨hfree, heq⟩ | ⟨htaken, heq⟩
  · rw [heq, get?, SortedMap.get?_insert]
    split
    · rename_i hname
      rw [← hname, hfree, Option.none_or]
    · rw [Option.or_none, get?]
  · rw [heq]
    split
    · rename_i hname
      rw [← hname, Option.or_of_isSome htaken]
    · rw [Option.or_none]

/-- Of the schemas with one name that are registered one after another, the first is found. -/
theorem get?_registerAll (catalog : Catalog) (calls : List Schema) (name : String) :
    (catalog.registerAll calls).get? name =
      (catalog.get? name).or (calls.find? fun schema => schema.name == name) := by
  induction calls generalizing catalog with
  | nil => rw [List.find?_nil, Option.or_none, registerAll, List.foldl_nil]
  | cons schema rest ih =>
    rw [registerAll, List.foldl_cons, ← registerAll, ih, get?_registerIn, Option.or_assoc]
    by_cases hname : schema.name = name
    · rw [if_pos hname, List.find?_cons_of_pos (by simpa using hname), Option.some_or]
    · rw [if_neg hname, List.find?_cons_of_neg (by simpa using hname), Option.none_or]

theorem registerIn_eq_ok (catalog : Catalog) (schema : Schema) :
    (catalog.registerIn schema).2 = .ok () ↔ catalog.get? schema.name = none := by
  rcases registerIn_cases catalog schema with ⟨hfree, heq⟩ | ⟨htaken, heq⟩
  · simp [heq, hfree]
  · rw [Option.isSome_iff_ne_none] at htaken
    simp [heq, htaken]

theorem registerIn_eq_error {catalog : Catalog} {schema : Schema} {e : SchemaError}
    (h : (catalog.registerIn schema).2 = .error e) :
    e = .alreadyRegistered schema.name ∧ (catalog.registerIn schema).1 = catalog := by
  rcases registerIn_cases catalog schema with ⟨-, heq⟩ | ⟨-, heq⟩
  · rw [heq] at h
    cases h
  · rw [heq] at h ⊢
    cases h
    exact ⟨rfl, rfl⟩

/--
The schemas that can be made are the well-formed ones. After any calls, failed ones included, a
catalog holds at each name the first schema of that name that a call was made with; if all of them
were made by the checks, each is well-formed and no name in it has two meanings. The next call does
what registering by value does: it succeeds exactly if the name is free, and otherwise says that it
is taken and leaves the catalog as it is. Whatever calls follow, what is registered stays.
-/
theorem registerAll_invariant (calls : List Schema) (hmade : ∀ schema ∈ calls, schema.Made)
    (catalog : Catalog) (hcatalog : catalog = empty.registerAll calls) :
    (∀ schema : Schema, schema.Made ↔ schema.WellFormed) ∧
    (∀ name, catalog.get? name = calls.find? fun schema => schema.name == name) ∧
    (∀ name definition, catalog.get? name = some definition →
      definition.name = name ∧ definition.WellFormed ∧ definition.Unambiguous) ∧
    (∀ schema,
      catalog.register schema =
        (catalog.registerIn schema).2.map (fun _ => (catalog.registerIn schema).1) ∧
      ((catalog.registerIn schema).2 = .ok () ↔ catalog.get? schema.name = none) ∧
      ∀ e, (catalog.registerIn schema).2 = .error e →
        e = .alreadyRegistered schema.name ∧ (catalog.registerIn schema).1 = catalog) ∧
    ∀ later name definition, catalog.get? name = some definition →
      (catalog.registerAll later).get? name = some definition := by
  have hfirst (name : String) :
      catalog.get? name = calls.find? fun schema => schema.name == name := by
    rw [hcatalog, get?_registerAll]
    exact Option.none_or
  refine ⟨fun _ => Schema.made_iff_wellFormed, hfirst, fun name definition hget => ?_,
    fun schema => ?_, fun later name definition hget => ?_⟩
  · rw [hfirst] at hget
    have hwellFormed := Schema.made_iff_wellFormed.1 (hmade _ (List.mem_of_find?_eq_some hget))
    exact ⟨by simpa using List.find?_some hget, hwellFormed, hwellFormed.unambiguous⟩
  · exact ⟨register_eq_registerIn catalog schema, registerIn_eq_ok catalog schema,
      fun _ => registerIn_eq_error⟩
  · rw [get?_registerAll, hget, Option.some_or]

/-- Posts and their comments, and then posts again with another storage. -/
def blogSchemas : List Schema :=
  [⟨"Post", "posts", [⟨"id", "id", .id⟩, ⟨"title", "post_title", .string⟩], ["id"],
      [⟨"comments", "Comment", .many, "id", "post_id"⟩, ⟨"author", "User", .one, "id", "id"⟩]⟩,
    ⟨"Comment", "comments", [⟨"id", "id", .id⟩, ⟨"post_id", "post_id", .id⟩], ["id"], []⟩,
    ⟨"Post", "archive", [⟨"id", "id", .id⟩], ["id"], []⟩]

/-- The first posts stay when others are registered, and their names are told apart. -/
theorem registerAll_invariant_blog :
    (∀ schema ∈ blogSchemas, schema.Made) ∧
    ∃ definition, (empty.registerAll blogSchemas).get? "Post" = some definition ∧
      definition.storage = "posts" ∧ definition.associations.length = 2 ∧
      definition.name = "Post" ∧ definition.WellFormed ∧ definition.Unambiguous := by
  have hmade : ∀ schema ∈ blogSchemas, schema.Made := by
    intro schema hschema
    simp only [blogSchemas, List.mem_cons, List.not_mem_nil, or_false] at hschema
    rcases hschema with rfl | rfl | rfl <;>
      exact Schema.made_iff_wellFormed.2 (by constructor <;> decide)
  exact ⟨hmade, _, rfl, rfl, rfl,
    (registerAll_invariant blogSchemas hmade _ rfl).2.2.1 "Post" _ rfl⟩

end Catalog

end QueryCompiler
