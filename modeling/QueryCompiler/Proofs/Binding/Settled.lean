import QueryCompiler.Proofs.Merging
import QueryCompiler.Proofs.ValuesTables

/-!
# Settled trees

A tree is settled when binding would leave it as it is: every reference resolves to the slot that it
has, every cast to its type, every parameter has the next index in the order of binding, fragments
are split, and projections are normal. The rules below say so node by node, without mention of a
run; `Expr.Settled place outermost k e k'` reads: at `place`, the parameters of `e` have the indices
from `k` up to `k'`.

The order of the indices is that of binding, so that the projection of a query comes before its
sources.
-/

namespace QueryCompiler

/-- What a settled tree depends on: as a context, but of the aliases only the names. -/
structure Place where
  catalog : Catalog
  config : Config
  scopes : ScopeStack
  aliases : List String

/-- The place outside of all queries. -/
def Place.top (catalog : Catalog) (config : Config) : Place := ⟨catalog, config, [], []⟩

/-- A context that stands at a place. -/
structure Context.At (ctx : Context) (place : Place) : Prop where
  catalog : ctx.catalog = place.catalog
  config : ctx.config = place.config
  scopes : ctx.scopes = place.scopes
  aliases (name : String) : (ctx.aliases.resolve name).isSome ↔ name ∈ place.aliases

theorem Context.top_at (catalog : Catalog) (config : Config) :
    (Context.top catalog config).At (.top catalog config) :=
  ⟨rfl, rfl, rfl, fun name => by simp [Context.top, AliasTable.empty, AliasTable.resolve,
    findEntry, Place.top]⟩

/-- The values table of a values source. -/
def Source.table? : Source → Option ValuesTable
  | .mk (.values table) _ => some table
  | _ => none

/-- The names of the aliases of a projection that may be missing. -/
def selectAliases : Option Expr → List String
  | none => []
  | some e => e.aliasNames

/-- The place of what a query with a scope and a projection consists of. -/
def Place.inside (place : Place) (scope : Scope) (select : Option Expr) : Place :=
  { place with scopes := scope :: place.scopes, aliases := selectAliases select }

mutual

inductive Expr.Settled : Place → Bool → Nat → Expr → Nat → Prop where
  | literal {place o k} (v : Value) : Expr.Settled place o k (.literal v) k
  | param {place o k} {p : Param} (hindex : p.index = some k) :
      Expr.Settled place o k (.param p) (k + 1)
  | field {place o k} {f : FieldRef} (hfield : place.scopes.bindField f = .ok f) :
      Expr.Settled place o k (.field f) k
  | binding {place o k} {name : String} {slot : Slot} {source : BoundSource}
      (hslot : place.scopes.lookupBinding name = .ok (slot, source)) :
      Expr.Settled place o k (.binding ⟨name, some slot⟩) k
  | parentBinding {place o k} {name : String} {slot : Slot} {source : BoundSource}
      (hslot : place.scopes.lookupParent name = .ok (slot, source)) :
      Expr.Settled place o k (.parentBinding ⟨name, some slot⟩) k
  | operator {place o k k'} {op : Operator} {operands : List Expr}
      (hcheck : checkOperands op operands = .ok ()) (htypes : propagateTypes op operands = operands)
      (hoperands : SettledAll place false k operands k') :
      Expr.Settled place o k (.operator op operands) k'
  | aggregate {place o k k₁ k'} {kind : AggregateKind} {args : List Expr} {distinct : Bool}
      {filter : Option Expr} (hcheck : checkArguments kind args = .ok ())
      (hargs : SettledAll place false k args k₁)
      (hfilter : SettledOption place false k₁ filter k') :
      Expr.Settled place o k (.aggregate kind args distinct filter) k'
  | fragment {place o k k'} {text : String} {args : List FragmentArg}
      (hcount : (fragmentParts text).length - 1 = args.length) (hfault : firstFault 0 args = none)
      (hargs : SettledArgs place k args k') :
      Expr.Settled place o k (.fragment text (fragmentParts text) args) k'
  | cast {place o k k'} {value : Expr} {target : TypeRef} {type : ResolvedType}
      (hvalue : Expr.Settled place false k value k') (hcastable : value.isCastable = true)
      (htype : value.withCastType type = value)
      (htarget : place.scopes.resolveType target = .ok (target, type)) :
      Expr.Settled place o k (.cast value target (some type)) k'
  | subquery {place o k k'} {kind : SubqueryKind} {query : Query}
      (hquery : Query.Settled place k query k') : Expr.Settled place o k (.subquery kind query) k'
  | values {place o k} {table : ValuesTable}
      (hcheck : table.check place.catalog place.scopes = .ok table)
      (hindex : table.firstParam = some k) :
      Expr.Settled place o k (.values table) (k + table.paramCount)
  | projection {place o k} {kind : ProjectionKind} {source : SourceRef} {set : FieldSet}
      {slot : Slot} {bound : BoundSource} (hslot : place.scopes.resolve source = .ok (slot, bound))
      (hset : ∀ schema, bound.shape = .schema schema → set.Valid place.catalog schema) :
      Expr.Settled place o k (.projection kind ⟨source, set, some slot⟩) k
  | merge {place o k k₁ k'} {left right : Expr} (hleft : Expr.Settled place o k left k₁)
      (hright : Expr.Settled place o k₁ right k') : Expr.Settled place o k (.merge left right) k'
  | aliased {place k k'} {value : Expr} {name : String}
      (hvalue : Expr.Settled place false k value k') :
      Expr.Settled place true k (.aliased value name) k'
  | aliasRef {place o k} {name : String} (hname : name ∈ place.aliases) :
      Expr.Settled place o k (.aliasRef name) k
  | jsonPath {place o k k'} {f : FieldRef} {path : List PathStep}
      (hfield : place.scopes.bindField f = .ok f) (hpath : SettledPath place k path k') :
      Expr.Settled place o k (.jsonPath (.field f) path) k'
  | interval {place o k k'} {count : Expr} {unit : IntervalUnit}
      (hcount : Expr.Settled place false k count k')
      (htype : count.withType (.builtin .integer) = count) :
      Expr.Settled place o k (.interval count unit) k'
  | tuple {place o k k'} {items : List Expr} (hitems : SettledAll place o k items k') :
      Expr.Settled place o k (.tuple items) k'
  | mapping {place o k k'} {entries : List (String × Expr)}
      (hentries : SettledEntries place o k entries k') :
      Expr.Settled place o k (.mapping entries) k'

inductive SettledAll : Place → Bool → Nat → List Expr → Nat → Prop where
  | nil {place o k} : SettledAll place o k [] k
  | cons {place o k k₁ k'} {e : Expr} {rest : List Expr} (he : Expr.Settled place o k e k₁)
      (hrest : SettledAll place o k₁ rest k') : SettledAll place o k (e :: rest) k'

inductive SettledEntries : Place → Bool → Nat → List (String × Expr) → Nat → Prop where
  | nil {place o k} : SettledEntries place o k [] k
  | cons {place o k k₁ k'} {key : String} {e : Expr} {rest : List (String × Expr)}
      (he : Expr.Settled place o k e k₁) (hrest : SettledEntries place o k₁ rest k') :
      SettledEntries place o k ((key, e) :: rest) k'

inductive SettledOption : Place → Bool → Nat → Option Expr → Nat → Prop where
  | none {place o k} : SettledOption place o k none k
  | some {place o k k'} {e : Expr} (he : Expr.Settled place o k e k') :
      SettledOption place o k (some e) k'

/-- Inline arguments are literals, and a spliced list is a parameter marked as one. -/
inductive SettledArgs : Place → Nat → List FragmentArg → Nat → Prop where
  | nil {place k} : SettledArgs place k [] k
  | parameter {place k k₁ k'} {e : Expr} {rest : List FragmentArg}
      (he : Expr.Settled place false k e k₁) (hrest : SettledArgs place k₁ rest k') :
      SettledArgs place k (.mk .parameter e :: rest) k'
  | inline {place k k'} {role : ArgRole} {v : Value} {rest : List FragmentArg}
      (hrole : role.isInline = true) (hrest : SettledArgs place k rest k') :
      SettledArgs place k (.mk role (.literal v) :: rest) k'
  | splice {place k k'} {p : Param} {rest : List FragmentArg} (hindex : p.index = some k)
      (hsplice : p.splice = true) (hrest : SettledArgs place (k + 1) rest k') :
      SettledArgs place k (.mk .splice (.param p) :: rest) k'

inductive SettledPath : Place → Nat → List PathStep → Nat → Prop where
  | nil {place k} : SettledPath place k [] k
  | computed {place k k₁ k'} {e : Expr} {rest : List PathStep}
      (he : Expr.Settled place false k e k₁) (hrest : SettledPath place k₁ rest k') :
      SettledPath place k (.computed e :: rest) k'
  | key {place k k'} {name : String} {rest : List PathStep} (hrest : SettledPath place k rest k') :
      SettledPath place k (.key name :: rest) k'
  | index {place k k'} {i : Int64} {rest : List PathStep} (hrest : SettledPath place k rest k') :
      SettledPath place k (.index i :: rest) k'

inductive SettledTerms : Place → Nat → List OrderTerm → Nat → Prop where
  | nil {place k} : SettledTerms place k [] k
  | cons {place k k₁ k'} {e : Expr} {direction : SortDirection} {rest : List OrderTerm}
      (he : Expr.Settled place false k e k₁) (hrest : SettledTerms place k₁ rest k') :
      SettledTerms place k (.mk e direction :: rest) k'

/-- Whether the table of a values source is valid is said of the sources of a query together. -/
inductive Source.Settled : Place → Nat → Source → Nat → Prop where
  | schema {place k} {schema : String} {name : Option String} :
      Source.Settled place k (.mk (.schema schema) name) k
  | table {place k} {table : String} {name : Option String} :
      Source.Settled place k (.mk (.table table) name) k
  | values {place k} {table : ValuesTable} {name : Option String}
      (hindex : table.firstParam = some k) :
      Source.Settled place k (.mk (.values table) name) (k + table.paramCount)
  | subquery {place k k'} {query : Query} {name : Option String}
      (hquery : Query.Settled place k query k') :
      Source.Settled place k (.mk (.subquery query) name) k'
  | fragment {place k k'} {e : Expr} {name : Option String} (hfragment : e.isFragment = true)
      (he : Expr.Settled place false k e k') : Source.Settled place k (.mk (.fragment e) name) k'

inductive SettledJoins : Place → Nat → List Join → Nat → Prop where
  | nil {place k} : SettledJoins place k [] k
  | cons {place k k₁ k₂ k'} {kind : JoinKind} {source : Source} {on : Option Expr}
      {rest : List Join} (hsource : Source.Settled place k source k₁)
      (hon : SettledOption place false k₁ on k₂) (hrest : SettledJoins place k₂ rest k') :
      SettledJoins place k (.mk kind source on :: rest) k'

inductive Query.Settled : Place → Nat → Query → Nat → Prop where
  | mk {place k k₁ k₂ k₃ k₄ k₅ k₆ k₇ k₈ k'} {source : Source} {joins : List Join}
      {wheres : List Expr} {select : Option Expr} {groupBy having : List Expr}
      {orderBy : List OrderTerm} {limit offset : Option Expr} {distinct : Bool} {scope : Scope}
      (hdepth : place.scopes.length ≤ place.config.maxSubqueryDepth)
      (hdeclared : declareSources place.catalog place.scopes .empty
        (source :: joins.map Join.source) =
          (.ok ((source :: joins.map Join.source).map Source.table?), scope))
      (haliases : place.config.allowIdenticalAliases = false → (selectAliases select).Nodup)
      (hselect : SettledOption (place.inside scope select) true k select k₁)
      (hnormal : select.map Expr.normalize = select)
      (hsource : Source.Settled (place.inside scope select) k₁ source k₂)
      (hjoins : SettledJoins (place.inside scope select) k₂ joins k₃)
      (hwheres : SettledAll (place.inside scope select) false k₃ wheres k₄)
      (haggregates : place.config.rejectAggregatesInWhere = true →
        ∀ e ∈ wheres, e.containsAggregate = false)
      (hgroupBy : SettledAll (place.inside scope select) false k₄ groupBy k₅)
      (hhaving : SettledAll (place.inside scope select) false k₅ having k₆)
      (horderBy : SettledTerms (place.inside scope select) k₆ orderBy k₇)
      (hlimit : SettledOption (place.inside scope select) false k₇ limit k₈)
      (hlimitType : limit.map (Expr.withType (.builtin .integer)) = limit)
      (hoffset : SettledOption (place.inside scope select) false k₈ offset k')
      (hoffsetType : offset.map (Expr.withType (.builtin .integer)) = offset) :
      Query.Settled place k
        (.mk source joins wheres select groupBy having orderBy limit offset distinct) k'

end

/-- An argument of a fragment is settled, whatever its role. -/
theorem SettledArgs.of_cons {place : Place} {k l : Nat} {role : ArgRole} {e : Expr}
    {rest : List FragmentArg} (h : SettledArgs place k (.mk role e :: rest) l) :
    ∃ k', e.Settled place false k k' ∧ SettledArgs place k' rest l := by
  cases h with
  | parameter he hrest => exact ⟨_, he, hrest⟩
  | inline _ hrest => exact ⟨_, .literal _, hrest⟩
  | splice hindex _ hrest => exact ⟨_, .param hindex, hrest⟩

end QueryCompiler
