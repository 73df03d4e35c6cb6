import QueryCompiler.Compilation.Shape

/-!
# Shapes with a text behind them

The equations of shapes in the form in which reading uses them: the shape of a node with any text
behind it, as the first word of the node with all the rest behind that.
-/

namespace QueryCompiler

/-! ### References -/

theorem SourceRef.shape_binding (name : String) (r : List Char) :
    (SourceRef.binding name).shape ++ r = "as".toList ++ '(' :: (name.toList ++ ')' :: r) := by
  change "as".toList ++ '(' :: name.toList ++ [')'] ++ r = _
  simp only [List.append_assoc, List.cons_append, List.nil_append]

theorem SourceRef.shape_parentBinding (name : String) (r : List Char) :
    (SourceRef.parentBinding name).shape ++ r =
      "parent_as".toList ++ '(' :: (name.toList ++ ')' :: r) := by
  change "parent_as".toList ++ '(' :: name.toList ++ [')'] ++ r = _
  simp only [List.append_assoc, List.cons_append, List.nil_append]

theorem Projection.shape_append (kind : ProjectionKind) (p : Projection) (r : List Char) :
    p.shape kind ++ r =
      kind.tag ++ '(' :: (p.source.shape ++ ' ' :: (p.set.shape ++ ')' :: r)) := by
  simp only [shape, List.append_assoc, List.cons_append, List.nil_append]

/-! ### Expressions -/

theorem Expr.shape_literal (v : Value) (r : List Char) :
    (Expr.literal v).shape ++ r = v.shape ++ r := rfl

theorem Expr.shape_field (f : FieldRef) (r : List Char) :
    (Expr.field f).shape ++ r = f.source.shape ++ (f.name.shape ++ r) :=
  List.append_assoc ..

theorem Expr.shape_operator (op : Operator) (operands : List Expr) (r : List Char) :
    (Expr.operator op operands).shape ++ r =
      op.name.toList ++ '(' :: (shapes operands ++ ')' :: r) := by
  change op.name.toList ++ '(' :: (shapes operands ++ [')']) ++ r = _
  simp only [List.append_assoc, List.cons_append, List.nil_append]

theorem Expr.shape_aggregate (kind : AggregateKind) (args : List Expr) (distinct : Bool)
    (filter : Option Expr) (r : List Char) :
    (Expr.aggregate kind args distinct filter).shape ++ r =
      kind.name.toList ++ '(' :: ((if distinct then "distinct ".toList else []) ++
        (shapes args ++ ')' :: (clauseShape " filter " filter ++ r))) := by
  change kind.name.toList ++ '(' :: ((if distinct then "distinct ".toList else []) ++
    shapes args ++ ')' :: clauseShape " filter " filter) ++ r = _
  simp only [List.append_assoc, List.cons_append]

theorem Expr.shape_fragment (text : String) (parts : List String) (args : List FragmentArg)
    (r : List Char) :
    (Expr.fragment text parts args).shape ++ r =
      "fragment".toList ++ '(' :: ((quoted text).toList ++ (argShapes args ++ ')' :: r)) := by
  change "fragment".toList ++ '(' :: (quoted text).toList ++ argShapes args ++ [')'] ++ r = _
  simp only [List.append_assoc, List.cons_append, List.nil_append]

theorem Expr.shape_cast (value : Expr) (target : TypeRef) (resolved : Option ResolvedType)
    (r : List Char) :
    (Expr.cast value target resolved).shape ++ r = "type".toList ++ '(' ::
      (value.shape ++ ',' :: ' ' :: (castShape resolved target ++ ')' :: r)) := by
  change "type".toList ++ '(' :: value.shape ++ [',', ' '] ++ castShape resolved target ++ [')'] ++
    r = _
  simp only [List.append_assoc, List.cons_append, List.nil_append]

theorem Expr.shape_subquery (kind : SubqueryKind) (query : Query) (r : List Char) :
    (Expr.subquery kind query).shape ++ r = kind.name.toList ++ (query.shape ++ r) :=
  List.append_assoc ..

theorem Expr.shape_values (table : ValuesTable) (r : List Char) :
    (Expr.values table).shape ++ r = table.shape ++ r := rfl

theorem Expr.shape_projection (kind : ProjectionKind) (p : Projection) (r : List Char) :
    (Expr.projection kind p).shape ++ r = p.shape kind ++ r := rfl

theorem Expr.shape_merge (left right : Expr) (r : List Char) :
    (Expr.merge left right).shape ++ r =
      "merge".toList ++ '(' :: (left.shape ++ ',' :: ' ' :: (right.shape ++ ')' :: r)) := by
  change "merge".toList ++ '(' :: left.shape ++ [',', ' '] ++ right.shape ++ [')'] ++ r = _
  simp only [List.append_assoc, List.cons_append, List.nil_append]

theorem Expr.shape_aliased (value : Expr) (name : String) (r : List Char) :
    (Expr.aliased value name).shape ++ r =
      "selected_as".toList ++ '(' :: (value.shape ++ ',' :: ' ' :: (name.toList ++ ')' :: r)) := by
  change "selected_as".toList ++ '(' :: value.shape ++ [',', ' '] ++ name.toList ++ [')'] ++ r = _
  simp only [List.append_assoc, List.cons_append, List.nil_append]

theorem Expr.shape_aliasRef (name : String) (r : List Char) :
    (Expr.aliasRef name).shape ++ r =
      "selected_as".toList ++ '(' :: (name.toList ++ ')' :: r) := by
  change "selected_as".toList ++ '(' :: name.toList ++ [')'] ++ r = _
  simp only [List.append_assoc, List.cons_append, List.nil_append]

theorem Expr.shape_jsonPath (base : Expr) (path : List PathStep) (r : List Char) :
    (Expr.jsonPath base path).shape ++ r =
      "json".toList ++ '(' :: (base.shape ++ (pathShape path ++ ')' :: r)) := by
  change "json".toList ++ '(' :: base.shape ++ pathShape path ++ [')'] ++ r = _
  simp only [List.append_assoc, List.cons_append, List.nil_append]

theorem Expr.shape_interval (count : Expr) (unit : IntervalUnit) (r : List Char) :
    (Expr.interval count unit).shape ++ r =
      "interval".toList ++ '(' :: (count.shape ++ ' ' :: (unit.name.toList ++ ')' :: r)) := by
  change "interval".toList ++ '(' :: count.shape ++ ' ' :: (unit.name.toList ++ [')']) ++ r = _
  simp only [List.append_assoc, List.cons_append, List.nil_append]

theorem Expr.shape_tuple (items : List Expr) (r : List Char) :
    (Expr.tuple items).shape ++ r = '\x7b' :: (shapes items ++ '\x7d' :: r) := by
  change '\x7b' :: (shapes items ++ ['\x7d']) ++ r = _
  simp only [List.append_assoc, List.cons_append, List.nil_append]

theorem Expr.shape_mapping (entries : List (String × Expr)) (r : List Char) :
    (Expr.mapping entries).shape ++ r =
      '%' :: '\x7b' :: (entryShapes entries ++ '\x7d' :: r) := by
  change '%' :: '\x7b' :: entryShapes entries ++ ['\x7d'] ++ r = _
  simp only [List.append_assoc, List.cons_append, List.nil_append]

/-! ### Lists and clauses -/

theorem shapes_cons (e : Expr) (rest : List Expr) (r : List Char) :
    shapes (e :: rest) ++ r = e.shape ++ (restShapes rest ++ r) :=
  List.append_assoc ..

theorem restShapes_cons (e : Expr) (rest : List Expr) (r : List Char) :
    restShapes (e :: rest) ++ r = ',' :: ' ' :: (e.shape ++ (restShapes rest ++ r)) := by
  change ',' :: ' ' :: e.shape ++ restShapes rest ++ r = _
  simp only [List.append_assoc, List.cons_append]

theorem entryShapes_cons (key : String) (e : Expr) (rest : List (String × Expr))
    (r : List Char) :
    entryShapes ((key, e) :: rest) ++ r =
      key.toList ++ ':' :: ' ' :: (e.shape ++ (restEntryShapes rest ++ r)) := by
  change key.toList ++ [':', ' '] ++ e.shape ++ restEntryShapes rest ++ r = _
  simp only [List.append_assoc, List.cons_append, List.nil_append]

theorem restEntryShapes_cons (key : String) (e : Expr) (rest : List (String × Expr))
    (r : List Char) :
    restEntryShapes ((key, e) :: rest) ++ r =
      ',' :: ' ' :: (key.toList ++ ':' :: ' ' :: (e.shape ++ (restEntryShapes rest ++ r))) := by
  change ',' :: ' ' :: key.toList ++ [':', ' '] ++ e.shape ++ restEntryShapes rest ++ r = _
  simp only [List.append_assoc, List.cons_append, List.nil_append]

theorem argShapes_cons (role : ArgRole) (e : Expr) (rest : List FragmentArg) (r : List Char) :
    argShapes (.mk role e :: rest) ++ r =
      ',' :: ' ' :: (role.shape ++ (e.shape ++ (argShapes rest ++ r))) := by
  change ',' :: ' ' :: role.shape ++ e.shape ++ argShapes rest ++ r = _
  simp only [List.append_assoc, List.cons_append]

theorem pathShape_key (name : String) (rest : List PathStep) (r : List Char) :
    pathShape (.key name :: rest) ++ r =
      ' ' :: ((quoted name).toList ++ (pathShape rest ++ r)) := by
  change ' ' :: ((quoted name).toList ++ pathShape rest) ++ r = _
  simp only [List.append_assoc, List.cons_append]

theorem pathShape_index (i : Int64) (rest : List PathStep) (r : List Char) :
    pathShape (.index i :: rest) ++ r =
      ' ' :: '[' :: ((toString i.toInt).toList ++ ']' :: (pathShape rest ++ r)) := by
  change ' ' :: '[' :: (toString i.toInt).toList ++ ']' :: pathShape rest ++ r = _
  simp only [List.append_assoc, List.cons_append]

theorem pathShape_computed (e : Expr) (rest : List PathStep) (r : List Char) :
    pathShape (.computed e :: rest) ++ r = ' ' :: (e.shape ++ (pathShape rest ++ r)) := by
  change ' ' :: (e.shape ++ pathShape rest) ++ r = _
  simp only [List.append_assoc, List.cons_append]

theorem clauseShape_some (name : String) (e : Expr) (r : List Char) :
    clauseShape name (some e) ++ r = name.toList ++ (e.shape ++ r) :=
  List.append_assoc ..

theorem clauseShapes_cons (name : String) (e : Expr) (rest : List Expr) (r : List Char) :
    clauseShapes name (e :: rest) ++ r =
      name.toList ++ (e.shape ++ (clauseShapes name rest ++ r)) := by
  change name.toList ++ e.shape ++ clauseShapes name rest ++ r = _
  simp only [List.append_assoc]

theorem termShapes_cons (e : Expr) (direction : SortDirection) (rest : List OrderTerm)
    (r : List Char) :
    termShapes (.mk e direction :: rest) ++ r =
      " order_by:".toList ++
        (direction.label.toList ++ ' ' :: (e.shape ++ (termShapes rest ++ r))) := by
  change " order_by:".toList ++ direction.label.toList ++ ' ' :: (e.shape ++ termShapes rest) ++
    r = _
  simp only [List.append_assoc, List.cons_append]

/-! ### Sources and queries -/

theorem Origin.shape_schema (name : String) (r : List Char) :
    (Origin.schema name).shape ++ r = "schema:".toList ++ (name.toList ++ r) :=
  List.append_assoc ..

theorem Origin.shape_table (name : String) (r : List Char) :
    (Origin.table name).shape ++ r = "table:".toList ++ (name.toList ++ r) :=
  List.append_assoc ..

theorem Source.shape_none (origin : Origin) (r : List Char) :
    (Source.mk origin none).shape ++ r = origin.shape ++ r := by
  change origin.shape ++ [] ++ r = _
  rw [List.append_nil]

theorem Source.shape_some (origin : Origin) (name : String) (r : List Char) :
    (Source.mk origin (some name)).shape ++ r =
      origin.shape ++ (" as:".toList ++ (name.toList ++ r)) := by
  change origin.shape ++ (" as:".toList ++ name.toList) ++ r = _
  simp only [List.append_assoc]

theorem joinShapes_cons (kind : JoinKind) (source : Source) (on : Option Expr) (rest : List Join)
    (r : List Char) :
    joinShapes (.mk kind source on :: rest) ++ r =
      ' ' :: '(' :: (kind.label.toList ++ ' ' :: (source.shape ++
        (clauseShape " on " on ++ ')' :: (joinShapes rest ++ r)))) := by
  change ' ' :: '(' :: kind.label.toList ++ ' ' :: (source.shape ++ clauseShape " on " on ++
    ')' :: joinShapes rest) ++ r = _
  simp only [List.append_assoc, List.cons_append]

theorem Query.shape_mk (source : Source) (joins : List Join) (wheres : List Expr)
    (select : Option Expr) (groupBy having : List Expr) (orderBy : List OrderTerm)
    (limit offset : Option Expr) (distinct : Bool) (r : List Char) :
    (Query.mk source joins wheres select groupBy having orderBy limit offset distinct).shape ++ r =
      "(from ".toList ++ (source.shape ++ (joinShapes joins ++ (clauseShapes " where " wheres ++
        (clauseShape " select " select ++ (clauseShapes " group_by " groupBy ++
          (clauseShapes " having " having ++ (termShapes orderBy ++ (clauseShape " limit " limit ++
            (clauseShape " offset " offset ++ ((if distinct then " distinct".toList else []) ++
              ')' :: r)))))))))) := by
  change "(from ".toList ++ source.shape ++ joinShapes joins ++ clauseShapes " where " wheres ++
    clauseShape " select " select ++ clauseShapes " group_by " groupBy ++
    clauseShapes " having " having ++ termShapes orderBy ++ clauseShape " limit " limit ++
    clauseShape " offset " offset ++ (if distinct then " distinct".toList else []) ++ [')'] ++ r = _
  simp only [List.append_assoc, List.cons_append, List.nil_append]

end QueryCompiler
