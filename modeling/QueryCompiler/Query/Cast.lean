import QueryCompiler.Error
import QueryCompiler.Query.Typing

/-!
# Types of parameters

A cast gives its type to the parameter that it wraps. A parameter without a type takes one from the
context: from the field on the other side of an operator, from a pattern, or from an interval or a
limit.
-/

namespace QueryCompiler

/--
A cast may wrap a parameter, an aggregate, a fragment, a comparison or a choice of the first value
not null.
-/
def Expr.isCastable : Expr → Bool
  | .param _ => true
  | .aggregate _ _ _ _ => true
  | .fragment _ _ _ => true
  | .operator op _ => op.isComparison || op == .coalesce
  | _ => false

def checkCastOperand (value : Expr) : Except CastError Unit :=
  if value.isCastable then .ok () else .error (.unsupportedOperand value.kindName)

/-- A cast value with the type of the cast, which a parameter takes on. -/
def Expr.withCastType (value : Expr) (type : ResolvedType) : Expr :=
  match value with
  | .param p => .param { p with type := some type }
  | e => e

/-- Gives a type to a parameter that has none and is not spliced. -/
def Expr.withType (type : ResolvedType) : Expr → Expr
  | .param p => if p.type.isNone && !p.splice then .param { p with type := some type } else .param p
  | e => e

/-- The type that a field or a cast passes on to the other operand. -/
def Expr.sourceType? : Expr → Option ResolvedType
  | .field f => (Expr.field f).type?
  | .cast value target resolved => (Expr.cast value target resolved).type?
  | _ => none

/--
Types the parameters among the operands of an operator. A pattern is a string, the right side of a
membership is an array of the type of its left side, and the sides of a comparison, of arithmetic
and of a choice have one type; of these the left side comes first.
-/
def propagateTypes (op : Operator) : List Expr → List Expr
  | [left, right] =>
    if op = .like ∨ op = .ilike then [left, right.withType (.builtin .string)]
    else if op = .member then
      match left.sourceType? with
      | some (.builtin t) => [left, right.withType (.array t)]
      | _ => [left, right]
    else if op.isComparison || op.isArithmetic || op == .coalesce then
      match left.sourceType? with
      | some t => [left, right.withType t]
      | none => match right.sourceType? with
        | some t => [left.withType t, right]
        | none => [left, right]
    else [left, right]
  | operands => operands

end QueryCompiler
