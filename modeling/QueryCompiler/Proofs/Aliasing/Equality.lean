import QueryCompiler.Query.Same

/-!
# Equality of trees is Euclidean

Trees that are the same as one tree are the same as each other. As not-a-number makes a tree differ
from itself, this is not a matter of replacing equals: the floats are compared anew.
-/

namespace QueryCompiler

/-! ### Values -/

theorem Binary64.equals_iff {x y : Binary64} :
    x.equals y = true ↔ x ≠ nan ∧ y ≠ nan ∧ (x = y ∨ x.isZero = true ∧ y.isZero = true) := by
  cases x <;> cases y <;> simp [equals]

theorem Binary64.equals_euclidean {x y z : Binary64} (hy : x.equals y = true)
    (hz : x.equals z = true) : y.equals z = true := by
  rw [equals_iff] at *
  obtain ⟨hx, hy, rfl | ⟨hxzero, hyzero⟩⟩ := hy
  · exact hz
  · obtain ⟨-, hz, rfl | ⟨-, hzzero⟩⟩ := hz
    · exact ⟨hy, hx, Or.inr ⟨hyzero, hxzero⟩⟩
    · exact ⟨hy, hz, Or.inr ⟨hyzero, hzzero⟩⟩

namespace Value

/-- Values without floats inside, at least by their constructors. -/
def isPlain : Value → Bool
  | float _ | list _ | map _ => false
  | _ => true

theorem same_plain {v w : Value} (h : v.isPlain = true) : v.same w = true ↔ v = w := by
  cases v with
  | float _ | list _ | map _ => cases h
  | _ => cases w <;> simp [same]

theorem same_float {x : Binary64} {w : Value} :
    (float x).same w = true ↔ ∃ y, w = float y ∧ x.equals y = true := by
  cases w <;> simp [same]

theorem same_list {items : List Value} {w : Value} :
    (list items).same w = true ↔ ∃ items', w = list items' ∧ sameAll items items' = true := by
  cases w <;> simp [same]

theorem same_map {entries : List (String × Value)} {w : Value} :
    (map entries).same w = true ↔
      ∃ entries', w = map entries' ∧ sameEntries entries entries' = true := by
  cases w <;> simp [same]

theorem sameAll_nil {items : List Value} : sameAll [] items = true ↔ items = [] := by
  cases items <;> simp [sameAll]

theorem sameAll_cons {v : Value} {rest items : List Value} :
    sameAll (v :: rest) items = true ↔
      ∃ w rest', items = w :: rest' ∧ v.same w = true ∧ sameAll rest rest' = true := by
  cases items <;> simp [sameAll, and_assoc]

theorem sameEntries_nil {entries : List (String × Value)} :
    sameEntries [] entries = true ↔ entries = [] := by
  cases entries <;> simp [sameEntries]

theorem sameEntries_cons {key : String} {v : Value} {rest entries : List (String × Value)} :
    sameEntries ((key, v) :: rest) entries = true ↔
      ∃ w rest', entries = (key, w) :: rest' ∧ v.same w = true ∧
        sameEntries rest rest' = true := by
  cases entries with
  | nil => simp [sameEntries]
  | cons entry rest' =>
    simp only [sameEntries, Bool.and_eq_true, beq_iff_eq, and_assoc, List.cons.injEq, Prod.ext_iff]
    exact ⟨fun ⟨hkey, h⟩ => ⟨_, _, hkey.symm, rfl, rfl, h⟩,
      fun ⟨_, _, hkey, rfl, rfl, h⟩ => ⟨hkey.symm, h⟩⟩

mutual

theorem same_euclidean (v : Value) {w x : Value} (hw : v.same w = true) (hx : v.same x = true) :
    w.same x = true := by
  match v with
  | .float a =>
    obtain ⟨b, rfl, hb⟩ := same_float.1 hw
    obtain ⟨c, rfl, hc⟩ := same_float.1 hx
    exact same_float.2 ⟨c, rfl, Binary64.equals_euclidean hb hc⟩
  | .list a =>
    obtain ⟨b, rfl, hb⟩ := same_list.1 hw
    obtain ⟨c, rfl, hc⟩ := same_list.1 hx
    exact same_list.2 ⟨c, rfl, sameAll_euclidean a hb hc⟩
  | .map a =>
    obtain ⟨b, rfl, hb⟩ := same_map.1 hw
    obtain ⟨c, rfl, hc⟩ := same_map.1 hx
    exact same_map.2 ⟨c, rfl, sameEntries_euclidean a hb hc⟩
  | .null | .bool _ | .integer _ | .decimal _ | .string _ | .binary _ | .date _ | .time _
  | .timestamp _ =>
    obtain rfl := (same_plain rfl).1 hw
    exact hx

theorem sameAll_euclidean (items : List Value) {items₁ items₂ : List Value}
    (h₁ : sameAll items items₁ = true) (h₂ : sameAll items items₂ = true) :
    sameAll items₁ items₂ = true := by
  match items with
  | [] =>
    obtain rfl := sameAll_nil.1 h₁
    exact h₂
  | v :: rest =>
    obtain ⟨w, rest₁, rfl, hw, hrest₁⟩ := sameAll_cons.1 h₁
    obtain ⟨x, rest₂, rfl, hx, hrest₂⟩ := sameAll_cons.1 h₂
    exact sameAll_cons.2 ⟨x, rest₂, rfl, same_euclidean v hw hx,
      sameAll_euclidean rest hrest₁ hrest₂⟩

theorem sameEntries_euclidean (entries : List (String × Value))
    {entries₁ entries₂ : List (String × Value)} (h₁ : sameEntries entries entries₁ = true)
    (h₂ : sameEntries entries entries₂ = true) : sameEntries entries₁ entries₂ = true := by
  match entries with
  | [] =>
    obtain rfl := sameEntries_nil.1 h₁
    exact h₂
  | (key, v) :: rest =>
    obtain ⟨w, rest₁, rfl, hw, hrest₁⟩ := sameEntries_cons.1 h₁
    obtain ⟨x, rest₂, rfl, hx, hrest₂⟩ := sameEntries_cons.1 h₂
    exact sameEntries_cons.2 ⟨x, rest₂, rfl, same_euclidean v hw hx,
      sameEntries_euclidean rest hrest₁ hrest₂⟩

end

end Value

/-! ### Nodes -/

theorem Param.same_euclidean {p q r : Param} (hq : p.same q = true) (hr : p.same r = true) :
    q.same r = true := by
  simp only [Param.same, Bool.and_eq_true, beq_iff_eq] at hq hr ⊢
  obtain ⟨⟨⟨hvalue, hindex⟩, htype⟩, hsplice⟩ := hq
  exact ⟨⟨⟨Value.same_euclidean _ hvalue hr.1.1.1, hindex.symm.trans hr.1.1.2⟩,
    htype.symm.trans hr.1.2⟩, hsplice.symm.trans hr.2⟩

namespace ValuesTable

theorem sameRows_nil {rows : List Row} : sameRows [] rows = true ↔ rows = [] := by
  cases rows <;> simp [sameRows]

theorem sameRows_cons {row : Row} {rest rows : List Row} :
    sameRows (row :: rest) rows = true ↔ ∃ row' rest', rows = row' :: rest' ∧
      Value.sameEntries row.entries row'.entries = true ∧ sameRows rest rest' = true := by
  cases rows <;> simp [sameRows, and_assoc]

theorem sameRows_euclidean {rows rows₁ rows₂ : List Row} (h₁ : sameRows rows rows₁ = true)
    (h₂ : sameRows rows rows₂ = true) : sameRows rows₁ rows₂ = true := by
  induction rows generalizing rows₁ rows₂ with
  | nil =>
    obtain rfl := sameRows_nil.1 h₁
    exact h₂
  | cons row rest ih =>
    obtain ⟨row₁, rest₁, rfl, hrow₁, hrest₁⟩ := sameRows_cons.1 h₁
    obtain ⟨row₂, rest₂, rfl, hrow₂, hrest₂⟩ := sameRows_cons.1 h₂
    exact sameRows_cons.2 ⟨row₂, rest₂, rfl, Value.sameEntries_euclidean _ hrow₁ hrow₂,
      ih hrest₁ hrest₂⟩

theorem same_euclidean {t u v : ValuesTable} (hu : t.same u = true) (hv : t.same v = true) :
    u.same v = true := by
  simp only [same, Bool.and_eq_true, beq_iff_eq] at hu hv ⊢
  obtain ⟨⟨⟨hrows, htypes⟩, hresolved⟩, hfirst⟩ := hu
  exact ⟨⟨⟨sameRows_euclidean hrows hv.1.1.1, htypes.symm.trans hv.1.1.2⟩,
    hresolved.symm.trans hv.1.2⟩, hfirst.symm.trans hv.2⟩

end ValuesTable

mutual

theorem FieldSet.same_iff (a b : FieldSet) : a.same b = true ↔ a = b := by
  match a, b with
  | .mk fields nested, .mk fields' nested' => simp [FieldSet.same, sameNested_iff nested nested']

theorem sameNested_iff (a b : List NestedSelect) : sameNested a b = true ↔ a = b := by
  match a, b with
  | [], [] => simp [sameNested]
  | [], _ :: _ | _ :: _, [] => simp [sameNested]
  | .mk association kind set :: rest, .mk association' kind' set' :: rest' =>
    simp [sameNested, FieldSet.same_iff set set', sameNested_iff rest rest', and_assoc]

end

theorem Projection.same_iff {p q : Projection} : p.same q = true ↔ p = q := by
  obtain ⟨source, set, slot⟩ := p
  obtain ⟨source', set', slot'⟩ := q
  simp [Projection.same, FieldSet.same_iff, and_assoc]

/-! ### Trees -/

namespace Expr

/-- Expressions that consist of names and numbers only. -/
def isReference : Expr → Bool
  | field _ | binding _ | parentBinding _ | aliasRef _ | projection _ _ => true
  | _ => false

theorem same_reference {e e' : Expr} (h : e.isReference = true) :
    e.same e' = true ↔ e = e' := by
  cases e with
  | field _ | binding _ | parentBinding _ | aliasRef _ => cases e' <;> simp [same]
  | projection _ _ => cases e' <;> simp [same, Projection.same_iff]
  | _ => cases h

variable {e' : Expr}

theorem same_literal {v : Value} :
    (literal v).same e' = true ↔ ∃ w, e' = literal w ∧ v.same w = true := by
  cases e' <;> simp [same]

theorem same_param {p : Param} :
    (param p).same e' = true ↔ ∃ q, e' = param q ∧ p.same q = true := by
  cases e' <;> simp [same]

theorem same_operator {op : Operator} {operands : List Expr} :
    (operator op operands).same e' = true ↔
      ∃ operands', e' = operator op operands' ∧ sameExprs operands operands' = true := by
  cases e' <;> grind [same]

theorem same_aggregate {kind : AggregateKind} {args : List Expr} {distinct : Bool}
    {filter : Option Expr} :
    (aggregate kind args distinct filter).same e' = true ↔
      ∃ args' filter', e' = aggregate kind args' distinct filter' ∧
        sameExprs args args' = true ∧ sameOption filter filter' = true := by
  cases e' <;> grind [same]

theorem same_fragment {text : String} {parts : List String} {args : List FragmentArg} :
    (fragment text parts args).same e' = true ↔
      ∃ args', e' = fragment text parts args' ∧ sameArgs args args' = true := by
  cases e' <;> grind [same]

theorem same_cast {value : Expr} {target : TypeRef} {resolved : Option ResolvedType} :
    (cast value target resolved).same e' = true ↔
      ∃ value', e' = cast value' target resolved ∧ value.same value' = true := by
  cases e' <;> grind [same]

theorem same_subquery {kind : SubqueryKind} {query : Query} :
    (subquery kind query).same e' = true ↔
      ∃ query', e' = subquery kind query' ∧ query.same query' = true := by
  cases e' <;> grind [same]

theorem same_values {table : ValuesTable} :
    (values table).same e' = true ↔ ∃ table', e' = values table' ∧ table.same table' = true := by
  cases e' <;> simp [same]

theorem same_merge {left right : Expr} :
    (merge left right).same e' = true ↔
      ∃ left' right', e' = merge left' right' ∧ left.same left' = true ∧
        right.same right' = true := by
  cases e' <;> grind [same]

theorem same_aliased {value : Expr} {name : String} :
    (aliased value name).same e' = true ↔
      ∃ value', e' = aliased value' name ∧ value.same value' = true := by
  cases e' <;> grind [same]

theorem same_jsonPath {base : Expr} {path : List PathStep} :
    (jsonPath base path).same e' = true ↔
      ∃ base' path', e' = jsonPath base' path' ∧ base.same base' = true ∧
        samePath path path' = true := by
  cases e' <;> grind [same]

theorem same_interval {count : Expr} {unit : IntervalUnit} :
    (interval count unit).same e' = true ↔
      ∃ count', e' = interval count' unit ∧ count.same count' = true := by
  cases e' <;> grind [same]

theorem same_tuple {items : List Expr} :
    (tuple items).same e' = true ↔ ∃ items', e' = tuple items' ∧ sameExprs items items' = true := by
  cases e' <;> simp [same]

theorem same_mapping {entries : List (String × Expr)} :
    (mapping entries).same e' = true ↔
      ∃ entries', e' = mapping entries' ∧ sameMapping entries entries' = true := by
  cases e' <;> simp [same]

end Expr

theorem sameExprs_nil {es : List Expr} : sameExprs [] es = true ↔ es = [] := by
  cases es <;> simp [sameExprs]

theorem sameExprs_cons {e : Expr} {rest es : List Expr} :
    sameExprs (e :: rest) es = true ↔
      ∃ e' rest', es = e' :: rest' ∧ e.same e' = true ∧ sameExprs rest rest' = true := by
  cases es <;> simp [sameExprs, and_assoc]

theorem sameOption_none {e : Option Expr} : sameOption none e = true ↔ e = none := by
  cases e <;> simp [sameOption]

theorem sameOption_some {e : Expr} {f : Option Expr} :
    sameOption (some e) f = true ↔ ∃ e', f = some e' ∧ e.same e' = true := by
  cases f <;> simp [sameOption]

theorem sameArgs_nil {args : List FragmentArg} : sameArgs [] args = true ↔ args = [] := by
  cases args <;> simp [sameArgs]

theorem sameArgs_cons {role : ArgRole} {e : Expr} {rest args : List FragmentArg} :
    sameArgs (.mk role e :: rest) args = true ↔
      ∃ e' rest', args = .mk role e' :: rest' ∧ e.same e' = true ∧ sameArgs rest rest' = true := by
  rcases args with _ | ⟨⟨role', e'⟩, rest'⟩ <;> grind [sameArgs]

theorem samePath_nil {path : List PathStep} : samePath [] path = true ↔ path = [] := by
  cases path <;> simp [samePath]

theorem samePath_key {name : String} {rest path : List PathStep} :
    samePath (.key name :: rest) path = true ↔
      ∃ rest', path = .key name :: rest' ∧ samePath rest rest' = true := by
  rcases path with _ | ⟨_ | _ | _, rest'⟩ <;> grind [samePath]

theorem samePath_index {i : Int64} {rest path : List PathStep} :
    samePath (.index i :: rest) path = true ↔
      ∃ rest', path = .index i :: rest' ∧ samePath rest rest' = true := by
  rcases path with _ | ⟨_ | _ | _, rest'⟩ <;> grind [samePath]

theorem samePath_computed {e : Expr} {rest path : List PathStep} :
    samePath (.computed e :: rest) path = true ↔
      ∃ e' rest', path = .computed e' :: rest' ∧ e.same e' = true ∧ samePath rest rest' = true := by
  rcases path with _ | ⟨_ | _ | _, rest'⟩ <;> grind [samePath]

theorem sameMapping_nil {entries : List (String × Expr)} :
    sameMapping [] entries = true ↔ entries = [] := by
  cases entries <;> simp [sameMapping]

theorem sameMapping_cons {key : String} {e : Expr} {rest entries : List (String × Expr)} :
    sameMapping ((key, e) :: rest) entries = true ↔
      ∃ e' rest', entries = (key, e') :: rest' ∧ e.same e' = true ∧
        sameMapping rest rest' = true := by
  rcases entries with _ | ⟨⟨key', e'⟩, rest'⟩ <;> grind [sameMapping]

theorem sameTerms_nil {terms : List OrderTerm} : sameTerms [] terms = true ↔ terms = [] := by
  cases terms <;> simp [sameTerms]

theorem sameTerms_cons {e : Expr} {direction : SortDirection} {rest terms : List OrderTerm} :
    sameTerms (.mk e direction :: rest) terms = true ↔
      ∃ e' rest', terms = .mk e' direction :: rest' ∧ e.same e' = true ∧
        sameTerms rest rest' = true := by
  rcases terms with _ | ⟨⟨e', direction'⟩, rest'⟩ <;> grind [sameTerms]

theorem sameJoins_nil {joins : List Join} : sameJoins [] joins = true ↔ joins = [] := by
  cases joins <;> simp [sameJoins]

theorem sameJoins_cons {kind : JoinKind} {source : Source} {on : Option Expr}
    {rest joins : List Join} :
    sameJoins (.mk kind source on :: rest) joins = true ↔
      ∃ source' on' rest', joins = .mk kind source' on' :: rest' ∧ source.same source' = true ∧
        sameOption on on' = true ∧ sameJoins rest rest' = true := by
  rcases joins with _ | ⟨⟨kind', source', on'⟩, rest'⟩ <;> grind [sameJoins]

namespace Origin

variable {origin : Origin}

theorem same_schema {name : String} : (schema name).same origin = true ↔ schema name = origin := by
  cases origin <;> simp [same]

theorem same_table {name : String} : (table name).same origin = true ↔ table name = origin := by
  cases origin <;> simp [same]

theorem same_values {table : ValuesTable} :
    (values table).same origin = true ↔
      ∃ table', origin = values table' ∧ table.same table' = true := by
  cases origin <;> simp [same]

theorem same_subquery {query : Query} :
    (subquery query).same origin = true ↔
      ∃ query', origin = subquery query' ∧ query.same query' = true := by
  cases origin <;> simp [same]

theorem same_fragment {e : Expr} :
    (fragment e).same origin = true ↔ ∃ e', origin = fragment e' ∧ e.same e' = true := by
  cases origin <;> simp [same]

end Origin

theorem Source.same_mk {origin : Origin} {name : Option String} {source : Source} :
    (Source.mk origin name).same source = true ↔
      ∃ origin', source = .mk origin' name ∧ origin.same origin' = true := by
  cases source
  grind [Source.same]

mutual

/-- Expressions that are the same as one expression are the same as each other. -/
theorem Expr.same_euclidean (e : Expr) {e₁ e₂ : Expr} (h₁ : e.same e₁ = true)
    (h₂ : e.same e₂ = true) : e₁.same e₂ = true := by
  match e with
  | .literal v =>
    obtain ⟨v₁, rfl, hsame₁⟩ := Expr.same_literal.1 h₁
    obtain ⟨v₂, rfl, hsame₂⟩ := Expr.same_literal.1 h₂
    exact Expr.same_literal.2 ⟨v₂, rfl, v.same_euclidean hsame₁ hsame₂⟩
  | .param p =>
    obtain ⟨p₁, rfl, hsame₁⟩ := Expr.same_param.1 h₁
    obtain ⟨p₂, rfl, hsame₂⟩ := Expr.same_param.1 h₂
    exact Expr.same_param.2 ⟨p₂, rfl, Param.same_euclidean hsame₁ hsame₂⟩
  | .operator op operands =>
    obtain ⟨operands₁, rfl, hsame₁⟩ := Expr.same_operator.1 h₁
    obtain ⟨operands₂, rfl, hsame₂⟩ := Expr.same_operator.1 h₂
    exact Expr.same_operator.2 ⟨operands₂, rfl, sameExprs_euclidean operands hsame₁ hsame₂⟩
  | .aggregate kind args distinct filter =>
    obtain ⟨args₁, filter₁, rfl, hargs₁, hfilter₁⟩ := Expr.same_aggregate.1 h₁
    obtain ⟨args₂, filter₂, rfl, hargs₂, hfilter₂⟩ := Expr.same_aggregate.1 h₂
    exact Expr.same_aggregate.2 ⟨args₂, filter₂, rfl, sameExprs_euclidean args hargs₁ hargs₂,
      sameOption_euclidean filter hfilter₁ hfilter₂⟩
  | .fragment text parts args =>
    obtain ⟨args₁, rfl, hsame₁⟩ := Expr.same_fragment.1 h₁
    obtain ⟨args₂, rfl, hsame₂⟩ := Expr.same_fragment.1 h₂
    exact Expr.same_fragment.2 ⟨args₂, rfl, sameArgs_euclidean args hsame₁ hsame₂⟩
  | .cast value target resolved =>
    obtain ⟨value₁, rfl, hsame₁⟩ := Expr.same_cast.1 h₁
    obtain ⟨value₂, rfl, hsame₂⟩ := Expr.same_cast.1 h₂
    exact Expr.same_cast.2 ⟨value₂, rfl, Expr.same_euclidean value hsame₁ hsame₂⟩
  | .subquery kind query =>
    obtain ⟨query₁, rfl, hsame₁⟩ := Expr.same_subquery.1 h₁
    obtain ⟨query₂, rfl, hsame₂⟩ := Expr.same_subquery.1 h₂
    exact Expr.same_subquery.2 ⟨query₂, rfl, Query.same_euclidean query hsame₁ hsame₂⟩
  | .values table =>
    obtain ⟨table₁, rfl, hsame₁⟩ := Expr.same_values.1 h₁
    obtain ⟨table₂, rfl, hsame₂⟩ := Expr.same_values.1 h₂
    exact Expr.same_values.2 ⟨table₂, rfl, ValuesTable.same_euclidean hsame₁ hsame₂⟩
  | .merge left right =>
    obtain ⟨left₁, right₁, rfl, hleft₁, hright₁⟩ := Expr.same_merge.1 h₁
    obtain ⟨left₂, right₂, rfl, hleft₂, hright₂⟩ := Expr.same_merge.1 h₂
    exact Expr.same_merge.2 ⟨left₂, right₂, rfl, Expr.same_euclidean left hleft₁ hleft₂,
      Expr.same_euclidean right hright₁ hright₂⟩
  | .aliased value name =>
    obtain ⟨value₁, rfl, hsame₁⟩ := Expr.same_aliased.1 h₁
    obtain ⟨value₂, rfl, hsame₂⟩ := Expr.same_aliased.1 h₂
    exact Expr.same_aliased.2 ⟨value₂, rfl, Expr.same_euclidean value hsame₁ hsame₂⟩
  | .jsonPath base path =>
    obtain ⟨base₁, path₁, rfl, hbase₁, hpath₁⟩ := Expr.same_jsonPath.1 h₁
    obtain ⟨base₂, path₂, rfl, hbase₂, hpath₂⟩ := Expr.same_jsonPath.1 h₂
    exact Expr.same_jsonPath.2 ⟨base₂, path₂, rfl, Expr.same_euclidean base hbase₁ hbase₂,
      samePath_euclidean path hpath₁ hpath₂⟩
  | .interval count unit =>
    obtain ⟨count₁, rfl, hsame₁⟩ := Expr.same_interval.1 h₁
    obtain ⟨count₂, rfl, hsame₂⟩ := Expr.same_interval.1 h₂
    exact Expr.same_interval.2 ⟨count₂, rfl, Expr.same_euclidean count hsame₁ hsame₂⟩
  | .tuple items =>
    obtain ⟨items₁, rfl, hsame₁⟩ := Expr.same_tuple.1 h₁
    obtain ⟨items₂, rfl, hsame₂⟩ := Expr.same_tuple.1 h₂
    exact Expr.same_tuple.2 ⟨items₂, rfl, sameExprs_euclidean items hsame₁ hsame₂⟩
  | .mapping entries =>
    obtain ⟨entries₁, rfl, hsame₁⟩ := Expr.same_mapping.1 h₁
    obtain ⟨entries₂, rfl, hsame₂⟩ := Expr.same_mapping.1 h₂
    exact Expr.same_mapping.2 ⟨entries₂, rfl, sameMapping_euclidean entries hsame₁ hsame₂⟩
  | .field _ | .binding _ | .parentBinding _ | .aliasRef _ | .projection _ _ =>
    obtain rfl := (Expr.same_reference rfl).1 h₁
    exact h₂
termination_by structural e

theorem sameExprs_euclidean (es : List Expr) {es₁ es₂ : List Expr}
    (h₁ : sameExprs es es₁ = true) (h₂ : sameExprs es es₂ = true) :
    sameExprs es₁ es₂ = true := by
  match es with
  | [] =>
    obtain rfl := sameExprs_nil.1 h₁
    exact h₂
  | e :: rest =>
    obtain ⟨e₁, rest₁, rfl, he₁, hrest₁⟩ := sameExprs_cons.1 h₁
    obtain ⟨e₂, rest₂, rfl, he₂, hrest₂⟩ := sameExprs_cons.1 h₂
    exact sameExprs_cons.2 ⟨e₂, rest₂, rfl, Expr.same_euclidean e he₁ he₂,
      sameExprs_euclidean rest hrest₁ hrest₂⟩
termination_by structural es

theorem sameOption_euclidean (e : Option Expr) {e₁ e₂ : Option Expr}
    (h₁ : sameOption e e₁ = true) (h₂ : sameOption e e₂ = true) : sameOption e₁ e₂ = true := by
  match e with
  | none =>
    obtain rfl := sameOption_none.1 h₁
    exact h₂
  | some e =>
    obtain ⟨e₁, rfl, hsame₁⟩ := sameOption_some.1 h₁
    obtain ⟨e₂, rfl, hsame₂⟩ := sameOption_some.1 h₂
    exact sameOption_some.2 ⟨e₂, rfl, Expr.same_euclidean e hsame₁ hsame₂⟩
termination_by structural e

theorem sameArgs_euclidean (args : List FragmentArg) {args₁ args₂ : List FragmentArg}
    (h₁ : sameArgs args args₁ = true) (h₂ : sameArgs args args₂ = true) :
    sameArgs args₁ args₂ = true := by
  match args with
  | [] =>
    obtain rfl := sameArgs_nil.1 h₁
    exact h₂
  | .mk role e :: rest =>
    obtain ⟨e₁, rest₁, rfl, he₁, hrest₁⟩ := sameArgs_cons.1 h₁
    obtain ⟨e₂, rest₂, rfl, he₂, hrest₂⟩ := sameArgs_cons.1 h₂
    exact sameArgs_cons.2 ⟨e₂, rest₂, rfl, Expr.same_euclidean e he₁ he₂,
      sameArgs_euclidean rest hrest₁ hrest₂⟩
termination_by structural args

theorem samePath_euclidean (path : List PathStep) {path₁ path₂ : List PathStep}
    (h₁ : samePath path path₁ = true) (h₂ : samePath path path₂ = true) :
    samePath path₁ path₂ = true := by
  match path with
  | [] =>
    obtain rfl := samePath_nil.1 h₁
    exact h₂
  | .key name :: rest =>
    obtain ⟨rest₁, rfl, hrest₁⟩ := samePath_key.1 h₁
    obtain ⟨rest₂, rfl, hrest₂⟩ := samePath_key.1 h₂
    exact samePath_key.2 ⟨rest₂, rfl, samePath_euclidean rest hrest₁ hrest₂⟩
  | .index i :: rest =>
    obtain ⟨rest₁, rfl, hrest₁⟩ := samePath_index.1 h₁
    obtain ⟨rest₂, rfl, hrest₂⟩ := samePath_index.1 h₂
    exact samePath_index.2 ⟨rest₂, rfl, samePath_euclidean rest hrest₁ hrest₂⟩
  | .computed e :: rest =>
    obtain ⟨e₁, rest₁, rfl, he₁, hrest₁⟩ := samePath_computed.1 h₁
    obtain ⟨e₂, rest₂, rfl, he₂, hrest₂⟩ := samePath_computed.1 h₂
    exact samePath_computed.2 ⟨e₂, rest₂, rfl, Expr.same_euclidean e he₁ he₂,
      samePath_euclidean rest hrest₁ hrest₂⟩
termination_by structural path

theorem sameMapping_euclidean (entries : List (String × Expr))
    {entries₁ entries₂ : List (String × Expr)} (h₁ : sameMapping entries entries₁ = true)
    (h₂ : sameMapping entries entries₂ = true) : sameMapping entries₁ entries₂ = true := by
  match entries with
  | [] =>
    obtain rfl := sameMapping_nil.1 h₁
    exact h₂
  | (key, e) :: rest =>
    obtain ⟨e₁, rest₁, rfl, he₁, hrest₁⟩ := sameMapping_cons.1 h₁
    obtain ⟨e₂, rest₂, rfl, he₂, hrest₂⟩ := sameMapping_cons.1 h₂
    exact sameMapping_cons.2 ⟨e₂, rest₂, rfl, Expr.same_euclidean e he₁ he₂,
      sameMapping_euclidean rest hrest₁ hrest₂⟩
termination_by structural entries

theorem sameTerms_euclidean (terms : List OrderTerm) {terms₁ terms₂ : List OrderTerm}
    (h₁ : sameTerms terms terms₁ = true) (h₂ : sameTerms terms terms₂ = true) :
    sameTerms terms₁ terms₂ = true := by
  match terms with
  | [] =>
    obtain rfl := sameTerms_nil.1 h₁
    exact h₂
  | .mk e direction :: rest =>
    obtain ⟨e₁, rest₁, rfl, he₁, hrest₁⟩ := sameTerms_cons.1 h₁
    obtain ⟨e₂, rest₂, rfl, he₂, hrest₂⟩ := sameTerms_cons.1 h₂
    exact sameTerms_cons.2 ⟨e₂, rest₂, rfl, Expr.same_euclidean e he₁ he₂,
      sameTerms_euclidean rest hrest₁ hrest₂⟩
termination_by structural terms

theorem Origin.same_euclidean (origin : Origin) {origin₁ origin₂ : Origin}
    (h₁ : origin.same origin₁ = true) (h₂ : origin.same origin₂ = true) :
    origin₁.same origin₂ = true := by
  match origin with
  | .schema name =>
    obtain rfl := Origin.same_schema.1 h₁
    exact h₂
  | .table name =>
    obtain rfl := Origin.same_table.1 h₁
    exact h₂
  | .values table =>
    obtain ⟨table₁, rfl, hsame₁⟩ := Origin.same_values.1 h₁
    obtain ⟨table₂, rfl, hsame₂⟩ := Origin.same_values.1 h₂
    exact Origin.same_values.2 ⟨table₂, rfl, ValuesTable.same_euclidean hsame₁ hsame₂⟩
  | .subquery query =>
    obtain ⟨query₁, rfl, hsame₁⟩ := Origin.same_subquery.1 h₁
    obtain ⟨query₂, rfl, hsame₂⟩ := Origin.same_subquery.1 h₂
    exact Origin.same_subquery.2 ⟨query₂, rfl, Query.same_euclidean query hsame₁ hsame₂⟩
  | .fragment e =>
    obtain ⟨e₁, rfl, hsame₁⟩ := Origin.same_fragment.1 h₁
    obtain ⟨e₂, rfl, hsame₂⟩ := Origin.same_fragment.1 h₂
    exact Origin.same_fragment.2 ⟨e₂, rfl, Expr.same_euclidean e hsame₁ hsame₂⟩
termination_by structural origin

theorem Source.same_euclidean (source : Source) {source₁ source₂ : Source}
    (h₁ : source.same source₁ = true) (h₂ : source.same source₂ = true) :
    source₁.same source₂ = true := by
  match source with
  | .mk origin name =>
    obtain ⟨origin₁, rfl, hsame₁⟩ := Source.same_mk.1 h₁
    obtain ⟨origin₂, rfl, hsame₂⟩ := Source.same_mk.1 h₂
    exact Source.same_mk.2 ⟨origin₂, rfl, Origin.same_euclidean origin hsame₁ hsame₂⟩
termination_by structural source

theorem sameJoins_euclidean (joins : List Join) {joins₁ joins₂ : List Join}
    (h₁ : sameJoins joins joins₁ = true) (h₂ : sameJoins joins joins₂ = true) :
    sameJoins joins₁ joins₂ = true := by
  match joins with
  | [] =>
    obtain rfl := sameJoins_nil.1 h₁
    exact h₂
  | .mk kind source on :: rest =>
    obtain ⟨source₁, on₁, rest₁, rfl, hsource₁, hon₁, hrest₁⟩ := sameJoins_cons.1 h₁
    obtain ⟨source₂, on₂, rest₂, rfl, hsource₂, hon₂, hrest₂⟩ := sameJoins_cons.1 h₂
    exact sameJoins_cons.2 ⟨source₂, on₂, rest₂, rfl,
      Source.same_euclidean source hsource₁ hsource₂, sameOption_euclidean on hon₁ hon₂,
      sameJoins_euclidean rest hrest₁ hrest₂⟩
termination_by structural joins

theorem Query.same_euclidean (query : Query) {query₁ query₂ : Query}
    (h₁ : query.same query₁ = true) (h₂ : query.same query₂ = true) :
    query₁.same query₂ = true := by
  match query, query₁, query₂ with
  | .mk source joins wheres select groupBy having orderBy limit offset distinct, .mk .., .mk .. =>
    simp only [Query.same, Bool.and_eq_true, beq_iff_eq] at h₁ h₂ ⊢
    obtain ⟨⟨⟨⟨⟨⟨⟨⟨⟨hsource₁, hjoins₁⟩, hwheres₁⟩, hselect₁⟩, hgroupBy₁⟩, hhaving₁⟩, horderBy₁⟩,
      hlimit₁⟩, hoffset₁⟩, rfl⟩ := h₁
    obtain ⟨⟨⟨⟨⟨⟨⟨⟨⟨hsource₂, hjoins₂⟩, hwheres₂⟩, hselect₂⟩, hgroupBy₂⟩, hhaving₂⟩, horderBy₂⟩,
      hlimit₂⟩, hoffset₂⟩, rfl⟩ := h₂
    exact ⟨⟨⟨⟨⟨⟨⟨⟨⟨Source.same_euclidean source hsource₁ hsource₂,
      sameJoins_euclidean joins hjoins₁ hjoins₂⟩, sameExprs_euclidean wheres hwheres₁ hwheres₂⟩,
      sameOption_euclidean select hselect₁ hselect₂⟩,
      sameExprs_euclidean groupBy hgroupBy₁ hgroupBy₂⟩,
      sameExprs_euclidean having hhaving₁ hhaving₂⟩,
      sameTerms_euclidean orderBy horderBy₁ horderBy₂⟩, sameOption_euclidean limit hlimit₁ hlimit₂⟩,
      sameOption_euclidean offset hoffset₁ hoffset₂⟩, rfl⟩
termination_by structural query

end

end QueryCompiler
