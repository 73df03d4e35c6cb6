import QueryCompiler.Query

/-!
# Static types of expressions

The type that an expression is known to have. Fields and casts have one only after they are
resolved.
-/

namespace QueryCompiler

mutual

def Expr.type? : Expr → Option ResolvedType
  | .literal v => v.dataType.map .builtin
  | .param p => match p.type with
    | some t => some t
    | none => p.value.dataType.map .builtin
  | .field f => (f.resolved.bind (·.type)).map .builtin
  | .operator op operands =>
    if op.isPredicate then some (.builtin .boolean)
    else match op with
      | .coalesce => firstKnownType operands
      | .dateAdd => some (.builtin .date)
      | .fromNow | .ago => some (.builtin .utcDatetime)
      | _ => headType operands
  | .aggregate kind args _ _ =>
    (kind.outputType ((headType args).bind ResolvedType.builtin?)).map .builtin
  | .cast _ _ resolved => resolved
  | .aliased value _ => value.type?
  | .subquery .existence _ => some (.builtin .boolean)
  | _ => none

/-- The type of the first expression. -/
def headType : List Expr → Option ResolvedType
  | [] => none
  | e :: _ => e.type?

/-- The first type that is known. -/
def firstKnownType : List Expr → Option ResolvedType
  | [] => none
  | e :: rest => match e.type? with
    | some t => some t
    | none => firstKnownType rest

end

end QueryCompiler
