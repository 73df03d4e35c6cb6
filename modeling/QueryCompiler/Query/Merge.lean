import QueryCompiler.Journal

/-!
# Merging of projections

Projections of one source with one kind that meet in a chain of merges become a single projection,
which stands where the first of them stood. Fields keep the order in which they are first named, and
what is asked of an association is merged in the same way. Nothing is added that was not asked for.
-/

namespace QueryCompiler

/-! ### Field sets -/

/-- Adds a field at the end unless it is there. -/
def addField (fields : List String) (field : String) : List String :=
  if field ∈ fields then fields else fields ++ [field]

/--
Changes what is asked of an association, or adds `select` at the end if nothing is asked of it yet.
-/
def updateNested (change : FieldSet → FieldSet) (select : NestedSelect) :
    List NestedSelect → List NestedSelect
  | [] => [select]
  | .mk association kind set :: rest =>
    if association = select.association then .mk association kind (change set) :: rest
    else .mk association kind set :: updateNested change select rest

mutual

/-- Merges the second field set into the first, whose order comes first. -/
def FieldSet.union (into : FieldSet) : FieldSet → FieldSet
  | .mk fields nested => .mk (fields.foldl addField into.fields) (unionNested into.nested nested)

/-- Merges nested selections, one after another, into those of a field set. -/
def unionNested (into : List NestedSelect) : List NestedSelect → List NestedSelect
  | [] => into
  | .mk association kind set :: rest =>
    unionNested (updateNested (fun old => old.union set) (.mk association kind set) into) rest

end

/-- A field set without repeated fields and associations at its top level. -/
def FieldSet.dedupe (set : FieldSet) : FieldSet := FieldSet.empty.union set

/-! ### Merge chains -/

/--
Whether two projections are of one source: their slots agree or, before there are any, the ways they
name it do.
-/
def Projection.sameSource (p q : Projection) : Bool :=
  match p.slot, q.slot with
  | some s, some t => s == t
  | _, _ => p.source == q.source

/--
Adds an operand to a merged chain, into the first projection of its kind and source or else at the
end.
-/
def absorb (operand : Expr) : List Expr → List Expr
  | [] => [operand]
  | e :: rest => match e, operand with
    | .projection kind p, .projection kind' q =>
      if kind = kind' ∧ p.sameSource q then
        .projection kind { p with set := p.set.union q.set } :: rest
      else e :: absorb operand rest
    | _, _ => e :: absorb operand rest

/-- The operands of a chain with repeated projections merged. -/
def mergeOperands (operands : List Expr) : List Expr :=
  operands.foldl (fun merged operand => absorb operand merged) []

/-- The chain of merges of some operands. -/
def mergeChain : List Expr → Expr
  | [] => .mapping []
  | e :: rest => rest.foldl .merge e

mutual

/-- The operands of a chain of merges from left to right, each of them normalised. -/
def Expr.chain : Expr → List Expr
  | .merge left right => left.chain ++ right.chain
  | .tuple items => [.tuple (normalizeAll items)]
  | .mapping entries => [.mapping (normalizeEntries entries)]
  | .aliased value name => [.aliased (mergeChain (mergeOperands value.chain)) name]
  | .projection kind p => [.projection kind { p with set := p.set.dedupe }]
  | e => [e]

def normalizeAll : List Expr → List Expr
  | [] => []
  | e :: rest => mergeChain (mergeOperands e.chain) :: normalizeAll rest

def normalizeEntries : List (String × Expr) → List (String × Expr)
  | [] => []
  | (key, e) :: rest => (key, mergeChain (mergeOperands e.chain)) :: normalizeEntries rest

end

/--
Normalises a projection: every chain of merges in it is merged, and every field set is without
repeats.
-/
def Expr.normalize (e : Expr) : Expr := mergeChain (mergeOperands e.chain)

/-! ### What a merge notes -/

/-- The note on adding an operand to a merged chain, if that merges two projections. -/
def absorbNotes (operand : Expr) : List Expr → List Event
  | [] => []
  | e :: rest => match e, operand with
    | .projection kind p, .projection kind' q =>
      if kind = kind' ∧ p.sameSource q then [.mergedProjection p.source kind q.set.fields]
      else absorbNotes operand rest
    | _, _ => absorbNotes operand rest

/-- The notes on merging operands, in order, into a chain merged so far. -/
def mergeNotes (merged : List Expr) : List Expr → List Event
  | [] => []
  | operand :: rest => absorbNotes operand merged ++ mergeNotes (absorb operand merged) rest

mutual

/-- The notes on normalising the operands of a chain. -/
def Expr.chainNotes : Expr → List Event
  | .merge left right => left.chainNotes ++ right.chainNotes
  | .tuple items => notesAll items
  | .mapping entries => notesEntries entries
  | .aliased value _ => value.chainNotes ++ mergeNotes [] value.chain
  | _ => []

def notesAll : List Expr → List Event
  | [] => []
  | e :: rest => e.chainNotes ++ mergeNotes [] e.chain ++ notesAll rest

def notesEntries : List (String × Expr) → List Event
  | [] => []
  | (_, e) :: rest => e.chainNotes ++ mergeNotes [] e.chain ++ notesEntries rest

end

/-- The notes on normalising a projection, in the order in which its chains are merged. -/
def Expr.normalizeNotes (e : Expr) : List Event := e.chainNotes ++ mergeNotes [] e.chain

end QueryCompiler
