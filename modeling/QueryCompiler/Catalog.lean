import QueryCompiler.DataType

/-!
# Catalogs of schemas

A schema names the storage of a source, its typed fields, its primary key and its associations to
other schemas. A catalog registers schemas by name. Schemas are checked when they are built, so that
every name in one has one meaning.
-/

namespace QueryCompiler

/-- Why a schema cannot be built or registered. -/
inductive SchemaError where
  | alreadyRegistered (schema : String)
  | noFields (schema : String)
  | repeatedField (field schema : String)
  | unknownKeyField (field schema : String)
  | nameCollision (association schema : String)
  deriving DecidableEq, Inhabited

def SchemaError.message : SchemaError → String
  | alreadyRegistered schema => "Schema '" ++ schema ++ "' already exists"
  | noFields schema => "Schema '" ++ schema ++ "' must have at least one field"
  | repeatedField field schema =>
    "Duplicate field name '" ++ field ++ "' in schema '" ++ schema ++ "'"
  | unknownKeyField field schema =>
    "Primary key field '" ++ field ++ "' not found in schema '" ++ schema ++ "'"
  | nameCollision association schema =>
    "Association '" ++ association ++ "' collides with an existing name in schema '" ++
      schema ++ "'"

/-! ### Schemas -/

structure SchemaField where
  name : String
  /-- The name of the column in storage. -/
  storage : String
  type : DataType
  deriving DecidableEq, Inhabited

inductive Cardinality where
  | one
  | many
  deriving DecidableEq, Inhabited

/-- A link from the schema that holds it, the owner, to a related schema. -/
structure Association where
  name : String
  related : String
  cardinality : Cardinality
  ownerKey : String
  relatedKey : String
  deriving DecidableEq, Inhabited

structure Schema where
  name : String
  /-- The name of the table in storage. -/
  storage : String
  fields : List SchemaField
  primaryKey : List String
  associations : List Association
  deriving DecidableEq, Inhabited

/-- The first name in a list that stands in it before. -/
def firstRepeated (seen : List String) : List String → Option String
  | [] => none
  | name :: rest => if name ∈ seen then some name else firstRepeated (name :: seen) rest

namespace Schema

def field? (schema : Schema) (name : String) : Option SchemaField :=
  schema.fields.find? fun f => f.name == name

def association? (schema : Schema) (name : String) : Option Association :=
  schema.associations.find? fun a => a.name == name

def hasField (schema : Schema) (name : String) : Bool := (schema.field? name).isSome

/--
Builds a schema without associations. It must have a field, no field name twice, and a primary key
of its own fields.
-/
def build (name storage : String) (fields : List SchemaField) (primaryKey : List String) :
    Except SchemaError Schema :=
  let schema : Schema := ⟨name, storage, fields, primaryKey, []⟩
  if fields.isEmpty then .error (.noFields name)
  else match firstRepeated [] (fields.map (·.name)) with
    | some field => .error (.repeatedField field name)
    | none => match primaryKey.find? fun key => !schema.hasField key with
      | some key => .error (.unknownKeyField key name)
      | none => .ok schema

/-- Adds an association, whose name must be new to the schema. -/
def addAssociation (schema : Schema) (association : Association) : Except SchemaError Schema :=
  if (schema.field? association.name).isSome || (schema.association? association.name).isSome then
    .error (.nameCollision association.name schema.name)
  else
    .ok { schema with associations := schema.associations ++ [association] }

end Schema

/-! ### Catalogs -/

/-- The registered schemas under the names by which queries ask for them. -/
structure Catalog where
  schemas : SortedMap Schema
  deriving DecidableEq, Inhabited

namespace Catalog

def empty : Catalog := ⟨.empty⟩

def get? (catalog : Catalog) (name : String) : Option Schema := catalog.schemas.get? name

def contains (catalog : Catalog) (name : String) : Bool := catalog.schemas.contains name

def names (catalog : Catalog) : List String := catalog.schemas.keys

/-- Registers a schema under its own name, which must be free. -/
def register (catalog : Catalog) (schema : Schema) : Except SchemaError Catalog :=
  if catalog.contains schema.name then .error (.alreadyRegistered schema.name)
  else .ok ⟨catalog.schemas.insert schema.name schema⟩

end Catalog

end QueryCompiler
