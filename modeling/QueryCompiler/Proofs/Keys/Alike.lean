import QueryCompiler.Proofs.Keys.Erasure

/-!
# Trees that read alike

Two trees are alike if their shapes say the same: the same nodes with the same names, and the same
indices, types and widths of parameters. Slots are not part of it, nor is the storage of fields,
since shapes leave them out.
-/

namespace QueryCompiler

/-- Tables with as many rows and the same typed columns. -/
structure ValuesTable.Alike (table table' : ValuesTable) : Prop where
  rows : table.rows.length = table'.rows.length
  resolved : table.resolved = table'.resolved

mutual

inductive Expr.Alike : Expr → Expr → Prop where
  | literal {v w : Value} : Expr.Alike (.literal v) (.literal w)
  | param {p q : Param} (herase : p.erase = q.erase) : Expr.Alike (.param p) (.param q)
  | field {f g : FieldRef} (hsource : f.source = g.source) (hname : f.name = g.name) :
      Expr.Alike (.field f) (.field g)
  | binding {ref ref' : BindingRef} (hname : ref.name = ref'.name) :
      Expr.Alike (.binding ref) (.binding ref')
  | parentBinding {ref ref' : BindingRef} (hname : ref.name = ref'.name) :
      Expr.Alike (.parentBinding ref) (.parentBinding ref')
  | operator {op : Operator} {operands operands' : List Expr}
      (hoperands : AlikeAll operands operands') :
      Expr.Alike (.operator op operands) (.operator op operands')
  /-- Counting rows and counting values have one name; their arguments tell them apart. -/
  | aggregate {kind kind' : AggregateKind} {args args' : List Expr} {distinct : Bool}
      {filter filter' : Option Expr} (hname : kind.name = kind'.name) (hargs : AlikeAll args args')
      (hfilter : AlikeOption filter filter') :
      Expr.Alike (.aggregate kind args distinct filter) (.aggregate kind' args' distinct filter')
  | fragment {text text' : String} {parts parts' : List String} {args args' : List FragmentArg}
      (hargs : AlikeArgs args args') :
      Expr.Alike (.fragment text parts args) (.fragment text' parts' args')
  | cast {value value' : Expr} {target target' : TypeRef} {type : ResolvedType}
      (hvalue : Expr.Alike value value') :
      Expr.Alike (.cast value target (some type)) (.cast value' target' (some type))
  | subquery {kind : SubqueryKind} {query query' : Query} (hquery : Query.Alike query query') :
      Expr.Alike (.subquery kind query) (.subquery kind query')
  | values {table table' : ValuesTable} (htable : table.Alike table') :
      Expr.Alike (.values table) (.values table')
  | projection {kind : ProjectionKind} {p q : Projection} (hsource : p.source = q.source)
      (hset : p.set = q.set) : Expr.Alike (.projection kind p) (.projection kind q)
  | merge {left right left' right' : Expr} (hleft : Expr.Alike left left')
      (hright : Expr.Alike right right') : Expr.Alike (.merge left right) (.merge left' right')
  | aliased {value value' : Expr} {name : String} (hvalue : Expr.Alike value value') :
      Expr.Alike (.aliased value name) (.aliased value' name)
  | aliasRef {name : String} : Expr.Alike (.aliasRef name) (.aliasRef name)
  | jsonPath {base base' : Expr} {path path' : List PathStep} (hbase : Expr.Alike base base')
      (hpath : AlikePath path path') : Expr.Alike (.jsonPath base path) (.jsonPath base' path')
  | interval {count count' : Expr} {unit : IntervalUnit} (hcount : Expr.Alike count count') :
      Expr.Alike (.interval count unit) (.interval count' unit)
  | tuple {items items' : List Expr} (hitems : AlikeAll items items') :
      Expr.Alike (.tuple items) (.tuple items')
  | mapping {entries entries' : List (String × Expr)} (hentries : AlikeEntries entries entries') :
      Expr.Alike (.mapping entries) (.mapping entries')

inductive AlikeAll : List Expr → List Expr → Prop where
  | nil : AlikeAll [] []
  | cons {e e' : Expr} {rest rest' : List Expr} (he : Expr.Alike e e')
      (hrest : AlikeAll rest rest') : AlikeAll (e :: rest) (e' :: rest')

inductive AlikeEntries : List (String × Expr) → List (String × Expr) → Prop where
  | nil : AlikeEntries [] []
  | cons {key : String} {e e' : Expr} {rest rest' : List (String × Expr)} (he : Expr.Alike e e')
      (hrest : AlikeEntries rest rest') : AlikeEntries ((key, e) :: rest) ((key, e') :: rest')

inductive AlikeOption : Option Expr → Option Expr → Prop where
  | none : AlikeOption none none
  | some {e e' : Expr} (he : Expr.Alike e e') : AlikeOption (some e) (some e')

inductive AlikeArgs : List FragmentArg → List FragmentArg → Prop where
  | nil : AlikeArgs [] []
  | cons {role : ArgRole} {e e' : Expr} {rest rest' : List FragmentArg} (he : Expr.Alike e e')
      (hrest : AlikeArgs rest rest') : AlikeArgs (.mk role e :: rest) (.mk role e' :: rest')

inductive AlikePath : List PathStep → List PathStep → Prop where
  | nil : AlikePath [] []
  | key {name name' : String} {rest rest' : List PathStep} (hrest : AlikePath rest rest') :
      AlikePath (.key name :: rest) (.key name' :: rest')
  | index {i i' : Int64} {rest rest' : List PathStep} (hrest : AlikePath rest rest') :
      AlikePath (.index i :: rest) (.index i' :: rest')
  | computed {e e' : Expr} {rest rest' : List PathStep} (he : Expr.Alike e e')
      (hrest : AlikePath rest rest') : AlikePath (.computed e :: rest) (.computed e' :: rest')

inductive AlikeTerms : List OrderTerm → List OrderTerm → Prop where
  | nil : AlikeTerms [] []
  | cons {e e' : Expr} {direction : SortDirection} {rest rest' : List OrderTerm}
      (he : Expr.Alike e e') (hrest : AlikeTerms rest rest') :
      AlikeTerms (.mk e direction :: rest) (.mk e' direction :: rest')

inductive Origin.Alike : Origin → Origin → Prop where
  | schema {name : String} : Origin.Alike (.schema name) (.schema name)
  | table {name : String} : Origin.Alike (.table name) (.table name)
  | values {table table' : ValuesTable} (htable : table.Alike table') :
      Origin.Alike (.values table) (.values table')
  | subquery {query query' : Query} (hquery : Query.Alike query query') :
      Origin.Alike (.subquery query) (.subquery query')
  | fragment {e e' : Expr} (he : Expr.Alike e e') : Origin.Alike (.fragment e) (.fragment e')

inductive Source.Alike : Source → Source → Prop where
  | mk {origin origin' : Origin} {name : Option String} (horigin : Origin.Alike origin origin') :
      Source.Alike (.mk origin name) (.mk origin' name)

inductive AlikeJoins : List Join → List Join → Prop where
  | nil : AlikeJoins [] []
  | cons {kind : JoinKind} {source source' : Source} {on on' : Option Expr} {rest rest' : List Join}
      (hsource : Source.Alike source source') (hon : AlikeOption on on')
      (hrest : AlikeJoins rest rest') :
      AlikeJoins (.mk kind source on :: rest) (.mk kind source' on' :: rest')

inductive Query.Alike : Query → Query → Prop where
  | mk {source source' : Source} {joins joins' : List Join} {wheres wheres' : List Expr}
      {select select' : Option Expr} {groupBy groupBy' having having' : List Expr}
      {orderBy orderBy' : List OrderTerm} {limit limit' offset offset' : Option Expr}
      {distinct : Bool} (hsource : Source.Alike source source') (hjoins : AlikeJoins joins joins')
      (hwheres : AlikeAll wheres wheres') (hselect : AlikeOption select select')
      (hgroupBy : AlikeAll groupBy groupBy') (hhaving : AlikeAll having having')
      (horderBy : AlikeTerms orderBy orderBy') (hlimit : AlikeOption limit limit')
      (hoffset : AlikeOption offset offset') :
      Query.Alike
        (.mk source joins wheres select groupBy having orderBy limit offset distinct)
        (.mk source' joins' wheres' select' groupBy' having' orderBy' limit' offset' distinct)

end

end QueryCompiler
