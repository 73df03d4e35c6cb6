import QueryCompiler.Value

/-!
# References to sources and their fields

How an expression names a source or one of its fields, what the name resolves to, and the field sets
that projections ask of a source.
-/

namespace QueryCompiler

/-- How an expression names a source. -/
inductive SourceRef where
  /-- The source at a position of the current query; `from` stands at zero. -/
  | position (index : Nat)
  /-- The source of that name in the nearest enclosing query that has one. -/
  | binding (name : String)
  /-- The source of that name in the immediately enclosing query. -/
  | parentBinding (name : String)
  deriving DecidableEq, Inhabited

/-- Where a source stands: so many queries outward, and at which position there. -/
structure Slot where
  level : Nat
  position : Nat
  deriving DecidableEq, Inhabited

/-- A field name, either looked up in the schema of its source or passed on as it is written. -/
inductive FieldName where
  | schema (name : String)
  | raw (name : String)
  deriving DecidableEq, Inhabited

def FieldName.text : FieldName → String
  | schema name => name
  | raw name => name

structure ResolvedField where
  slot : Slot
  /-- The name that the backend writes. -/
  storage : String
  /-- The declared type, where one is known. -/
  type : Option DataType
  deriving DecidableEq, Inhabited

structure FieldRef where
  source : SourceRef
  name : FieldName
  resolved : Option ResolvedField
  deriving DecidableEq, Inhabited

/-- A reference to a whole named source. -/
structure BindingRef where
  name : String
  slot : Option Slot
  deriving DecidableEq, Inhabited

/-- The target of a cast, or the type of a column, as it is written. -/
inductive TypeRef where
  /-- A builtin type by name; the name may be unknown. -/
  | builtin (name : String)
  /-- The type of another field. -/
  | column (field : FieldRef)
  | parameterized (descriptor : TypeDescriptor)
  deriving DecidableEq, Inhabited

/-! ### Field sets -/

/-- Whether a projection builds a struct or a map. -/
inductive ProjectionKind where
  | struct
  | map
  deriving DecidableEq, Inhabited

def ProjectionKind.label : ProjectionKind → String
  | struct => "Struct"
  | map => "Map"

mutual

/-- The fields asked of a source, in order, and what is asked of its associations. -/
inductive FieldSet where
  | mk (fields : List String) (nested : List NestedSelect)

/-- What is asked of one association. -/
inductive NestedSelect where
  | mk (association : String) (kind : ProjectionKind) (set : FieldSet)

end

namespace FieldSet

def fields : FieldSet → List String
  | mk fields _ => fields

def nested : FieldSet → List NestedSelect
  | mk _ nested => nested

def empty : FieldSet := mk [] []

instance : Inhabited FieldSet := ⟨empty⟩

end FieldSet

namespace NestedSelect

def association : NestedSelect → String
  | mk association _ _ => association

def kind : NestedSelect → ProjectionKind
  | mk _ kind _ => kind

def set : NestedSelect → FieldSet
  | mk _ _ set => set

instance : Inhabited NestedSelect := ⟨mk "" .struct .empty⟩

end NestedSelect

/-! Equality of field sets is decided by recursion on both. -/

mutual

def FieldSet.same : FieldSet → FieldSet → Bool
  | .mk fields nested, .mk fields' nested' => fields == fields' && sameNested nested nested'

def sameNested : List NestedSelect → List NestedSelect → Bool
  | [], [] => true
  | .mk a k s :: rest, .mk a' k' s' :: rest' =>
    a == a' && k == k' && s.same s' && sameNested rest rest'
  | _, _ => false

end

/-- A source reshaped to a set of its fields. -/
structure Projection where
  source : SourceRef
  set : FieldSet
  slot : Option Slot
  deriving Inhabited

def Projection.same (p q : Projection) : Bool :=
  p.source == q.source && p.set.same q.set && p.slot == q.slot

end QueryCompiler
