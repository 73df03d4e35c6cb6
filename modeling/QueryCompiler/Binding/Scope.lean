import QueryCompiler.Error
import QueryCompiler.Reference

/-!
# Scopes

The scope of a query holds its sources in the order of their positions. A reference is resolved
against the scopes of the open queries, of which the innermost comes first.
-/

namespace QueryCompiler

/-- What a source shows of its fields. -/
inductive SourceShape where
  | schema (schema : Schema)
  /-- A table of which only the name is known. -/
  | schemaless (table : String)
  | values (types : SortedMap ResolvedType)
  /-- A subquery or a fragment. -/
  | untyped
  deriving DecidableEq, Inhabited

structure BoundSource where
  position : Nat
  name : Option String
  shape : SourceShape
  deriving DecidableEq, Inhabited

structure Scope where
  sources : List BoundSource
  deriving DecidableEq, Inhabited

namespace Scope

def empty : Scope := ⟨[]⟩

def size (scope : Scope) : Nat := scope.sources.length

def source? (scope : Scope) (position : Nat) : Option BoundSource := scope.sources[position]?

/-- The source of that name. -/
def lookup (scope : Scope) (name : String) : Option BoundSource :=
  scope.sources.find? fun s => s.name == some name

/-- Adds the next source. A name may stand only once in a scope. -/
def add (scope : Scope) (name : Option String) (shape : SourceShape) : Except BindError Scope :=
  let added : Scope := ⟨scope.sources ++ [⟨scope.sources.length, name, shape⟩]⟩
  match name with
  | none => .ok added
  | some n => if (scope.lookup n).isSome then .error (.duplicateBinding n) else .ok added

end Scope

/-- The scopes of the open queries, the innermost first. -/
abbrev ScopeStack := List Scope

namespace ScopeStack

/--
The source of that name in the first of some scopes that has one; the first scope has the level
`level`.
-/
def findBinding (name : String) (level : Nat) : ScopeStack → Option (Slot × BoundSource)
  | [] => none
  | scope :: rest => match scope.lookup name with
    | some s => some (⟨level, s.position⟩, s)
    | none => findBinding name (level + 1) rest

def lookupBinding (scopes : ScopeStack) (name : String) : Except BindError (Slot × BoundSource) :=
  match findBinding name 0 scopes with
  | some found => .ok found
  | none => .error (.unknownBinding name)

/-- The source of that name in the immediately enclosing query. -/
def lookupParent (scopes : ScopeStack) (name : String) : Except BindError (Slot × BoundSource) :=
  match scopes with
  | _ :: parent :: _ => match parent.lookup name with
    | some s => .ok (⟨1, s.position⟩, s)
    | none => .error (.noParentBinding name)
  | _ => .error (.noParentBinding name)

def lookupPosition (scopes : ScopeStack) (position : Nat) : Except BindError (Slot × BoundSource) :=
  match scopes with
  | current :: _ => match current.source? position with
    | some s => .ok (⟨0, position⟩, s)
    | none => .error (.unknownSource position)
  | [] => .error (.unknownSource position)

/-- The source that a reference in the innermost query means. -/
def resolve (scopes : ScopeStack) : SourceRef → Except BindError (Slot × BoundSource)
  | .position position => scopes.lookupPosition position
  | .binding name => scopes.lookupBinding name
  | .parentBinding name => scopes.lookupParent name

end ScopeStack

/-! ### Fields and type targets -/

/-- The storage name and the type of a field of a source. -/
def SourceShape.field (shape : SourceShape) :
    FieldName → Except BindError (String × Option DataType)
  | .raw name => .ok (name, none)
  | .schema name => match shape with
    | .schema definition => match definition.field? name with
      | some f => .ok (f.storage, some f.type)
      | none => .error (.unknownField definition.name name)
    | .values types => match types.get? name with
      | some t => .ok (name, t.builtin?)
      | none => .error (.unknownField "values" name)
    | .schemaless _ => .ok (name, none)
    | .untyped => .ok (name, none)

def ScopeStack.bindField (scopes : ScopeStack) (field : FieldRef) : Except BindError FieldRef :=
  match scopes.resolve field.source with
  | .error e => .error e
  | .ok (slot, source) => match source.shape.field field.name with
    | .error e => .error e
    | .ok (storage, type) => .ok { field with resolved := some ⟨slot, storage, type⟩ }

/-- The builtin type of that name. -/
def resolveBuiltin (name : String) : Except CastError ResolvedType :=
  match DataType.ofName? name with
  | some t => .ok (.builtin t)
  | none => .error (.unknownBuiltin name)

/-- The type that a target stands for, and the target with its field bound. -/
def ScopeStack.resolveType (scopes : ScopeStack) :
    TypeRef → Except CastError (TypeRef × ResolvedType)
  | .builtin name => match resolveBuiltin name with
    | .ok t => .ok (.builtin name, t)
    | .error e => .error e
  | .parameterized descriptor => .ok (.parameterized descriptor, .parameterized descriptor)
  | .column field => match scopes.bindField field with
    | .error e => .error (.unboundField field.name.text e)
    | .ok bound => match bound.resolved.bind (·.type) with
      | some t => .ok (.column bound, .builtin t)
      | none => .error (.untypedField field.name.text)

end QueryCompiler
