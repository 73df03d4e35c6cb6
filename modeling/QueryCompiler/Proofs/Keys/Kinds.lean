import QueryCompiler.Proofs.Keys.Parts
import QueryCompiler.Proofs.Keys.Shapes
import QueryCompiler.Proofs.Keys.Values

/-!
# The first word of an expression

The shape of an expression starts with a word or a character that tells which kind of node it is.
References share theirs between fields and whole sources, and so do the two forms of aliases; these
are told apart by what comes later.
-/

namespace QueryCompiler

/-- The kinds of expressions that their first words tell apart. -/
inductive Kind where
  | literal
  | param
  /-- A field, or a whole named source. -/
  | reference
  | operator (op : Operator)
  | aggregate (name : String)
  | fragment
  | cast
  | subquery (kind : SubqueryKind)
  | values
  | projection (kind : ProjectionKind)
  | merge
  /-- The definition of an alias, or a reference to one. -/
  | alias
  | jsonPath
  | interval
  | tuple
  | mapping
  deriving DecidableEq

def Expr.kind : Expr → Kind
  | .literal _ => .literal
  | .param _ => .param
  | .field _ => .reference
  | .binding _ => .reference
  | .parentBinding _ => .reference
  | .operator op _ => .operator op
  | .aggregate kind _ _ _ => .aggregate kind.name
  | .fragment _ _ _ => .fragment
  | .cast _ _ _ => .cast
  | .subquery kind _ => .subquery kind
  | .values _ => .values
  | .projection kind _ => .projection kind
  | .merge _ _ => .merge
  | .aliased _ _ => .alias
  | .aliasRef _ => .alias
  | .jsonPath _ _ => .jsonPath
  | .interval _ _ => .interval
  | .tuple _ => .tuple
  | .mapping _ => .mapping

/-! ### Words -/

def kindWords : List (String × Kind) :=
  [("as", .reference), ("parent_as", .reference), ("fragment", .fragment), ("type", .cast),
    ("values", .values), ("struct", .projection .struct), ("map", .projection .map),
    ("merge", .merge), ("selected_as", .alias), ("json", .jsonPath), ("interval", .interval)] ++
  Operator.all.map (fun op => (op.name, .operator op)) ++
  ["count", "avg", "sum", "min", "max"].map (fun name => (name, .aggregate name)) ++
  [SubqueryKind.any, .all, .existence].map (fun kind => (kind.name, .subquery kind))

/-- The characters at which a word ends. -/
def wordStops : List Char := ['(', '[', ' ', ')', '\x7d', ',', '"']

/-- The kind of the expression whose shape a text starts with. -/
def kindOf : List Char → Option Kind
  | [] => none
  | c :: cs =>
    if c = '?' then some .param
    else if c = '&' then some .reference
    else if c = '\x7b' then some .tuple
    else if c = '%' then some .mapping
    else if c.isUpper then some .literal
    else findEntry (String.ofList ((c :: cs).takeWhile fun c => !wordStops.contains c)) kindWords

/-- The characters that stand for a kind by themselves. -/
def kindMarks : List Char := ['?', '&', '\x7b', '%']

/-- Whether a text is a word, and the word of a kind or of none. -/
def isWord (word : String) (kind : Option Kind) : Bool :=
  avoids word wordStops && findEntry word kindWords == kind &&
    word.toList.head?.any fun c => !kindMarks.contains c && !c.isUpper

theorem avoids_of_isWord {word : String} {kind : Option Kind} (h : isWord word kind = true) :
    avoids word wordStops = true := by
  rw [isWord, Bool.and_eq_true, Bool.and_eq_true] at h
  exact h.1.1

theorem kindOf_word {word : String} {kind : Option Kind} (hword : isWord word kind = true)
    {c : Char} (hc : c ∈ wordStops) (r : List Char) : kindOf (word.toList ++ c :: r) = kind := by
  rw [isWord, Bool.and_eq_true, Bool.and_eq_true, beq_iff_eq] at hword
  obtain ⟨⟨havoids, hfind⟩, hhead⟩ := hword
  have htake :
      (word.toList ++ c :: r).takeWhile (fun c => !wordStops.contains c) = word.toList := by
    rw [List.takeWhile_append_of_pos (List.all_eq_true.1 havoids)]
    simp [hc]
  cases hlist : word.toList with
  | nil =>
    rw [hlist] at hhead
    cases hhead
  | cons d ds =>
    rw [hlist, List.head?_cons, Option.any_some, Bool.and_eq_true] at hhead
    simp only [kindMarks, List.contains_cons, Bool.not_eq_true', Bool.or_eq_false_iff,
      beq_eq_false_iff_ne] at hhead
    obtain ⟨⟨hparam, hreference, htuple, hmapping, -⟩, hupper⟩ := hhead
    rw [hlist, List.cons_append] at htake
    rw [List.cons_append, kindOf, if_neg hparam, if_neg hreference, if_neg htuple,
      if_neg hmapping, if_neg (by simp [hupper]), htake, ← hlist, String.ofList_toList, hfind]

/-! ### First words -/

theorem isWord_operator (op : Operator) : isWord op.name (some (.operator op)) = true := by
  cases op <;> decide

theorem isWord_aggregate (kind : AggregateKind) :
    isWord kind.name (some (.aggregate kind.name)) = true := by
  cases kind <;> decide

theorem isWord_subquery (kind : SubqueryKind) :
    isWord kind.name (some (.subquery kind)) = true := by
  cases kind <;> decide

theorem kindOf_value (v : Value) (r : List Char) : kindOf (v.shape ++ r) = some .literal := by
  obtain ⟨c, cs, hshape, hupper⟩ := v.exists_shape_eq_cons
  have hne {d : Char} (hd : d.isUpper = false) : c ≠ d := by
    rintro rfl
    rw [hd] at hupper
    cases hupper
  rw [hshape, List.cons_append, kindOf, if_neg (hne rfl), if_neg (hne rfl), if_neg (hne rfl),
    if_neg (hne rfl), if_pos hupper]

theorem kindOf_sourceRef (ref : SourceRef) (r : List Char) :
    kindOf (ref.shape ++ r) = some .reference := by
  have has : isWord "as" (some .reference) = true := by decide
  have hparent : isWord "parent_as" (some .reference) = true := by decide
  cases ref with
  | position i => rfl
  | binding name =>
    rw [SourceRef.shape_binding]
    exact kindOf_word has (by decide) _
  | parentBinding name =>
    rw [SourceRef.shape_parentBinding]
    exact kindOf_word hparent (by decide) _

theorem Query.exists_shape_eq_cons (query : Query) (r : List Char) :
    ∃ t, query.shape ++ r = '(' :: t := by
  cases query
  rw [shape_mk]
  exact ⟨_, rfl⟩

/-- Whether the shape of an expression starts with a word in front of a parenthesis. -/
def Expr.isWorded : Expr → Bool
  | .literal _ | .param _ | .field _ | .binding _ | .parentBinding _ | .values _ | .tuple _
  | .mapping _ => false
  | _ => true

theorem Expr.exists_word {e : Expr} (h : e.isWorded = true) (r : List Char) :
    ∃ word t, e.shape ++ r = word.toList ++ '(' :: t ∧ isWord word (some e.kind) = true := by
  cases e with
  | literal _ | param _ | field _ | binding _ | parentBinding _ | values _ | tuple _ | mapping _ =>
    cases h
  | operator op operands =>
    rw [shape_operator]
    exact ⟨op.name, _, rfl, isWord_operator op⟩
  | aggregate kind args distinct filter =>
    rw [shape_aggregate]
    exact ⟨kind.name, _, rfl, isWord_aggregate kind⟩
  | fragment text parts args =>
    rw [shape_fragment]
    exact ⟨"fragment", _, rfl, (by decide : isWord "fragment" (some .fragment) = true)⟩
  | cast value target resolved =>
    rw [shape_cast]
    exact ⟨"type", _, rfl, (by decide : isWord "type" (some .cast) = true)⟩
  | subquery kind query =>
    obtain ⟨t, ht⟩ := query.exists_shape_eq_cons r
    rw [shape_subquery, ht]
    exact ⟨kind.name, t, rfl, isWord_subquery kind⟩
  | projection kind p =>
    rw [shape_projection, Projection.shape_append]
    cases kind with
    | struct =>
      exact ⟨"struct", _, rfl, (by decide : isWord "struct" (some (.projection .struct)) = true)⟩
    | map => exact ⟨"map", _, rfl, (by decide : isWord "map" (some (.projection .map)) = true)⟩
  | merge left right =>
    rw [shape_merge]
    exact ⟨"merge", _, rfl, (by decide : isWord "merge" (some .merge) = true)⟩
  | aliased value name =>
    rw [shape_aliased]
    exact ⟨"selected_as", _, rfl, (by decide : isWord "selected_as" (some .alias) = true)⟩
  | aliasRef name =>
    rw [shape_aliasRef]
    exact ⟨"selected_as", _, rfl, (by decide : isWord "selected_as" (some .alias) = true)⟩
  | jsonPath base path =>
    rw [shape_jsonPath]
    exact ⟨"json", _, rfl, (by decide : isWord "json" (some .jsonPath) = true)⟩
  | interval count unit =>
    rw [shape_interval]
    exact ⟨"interval", _, rfl, (by decide : isWord "interval" (some .interval) = true)⟩

/-- The first word of an expression tells its kind, whatever follows the expression. -/
theorem kindOf_shape (e : Expr) (r : List Char) : kindOf (e.shape ++ r) = some e.kind := by
  by_cases hworded : e.isWorded = true
  · obtain ⟨word, t, htext, hword⟩ := Expr.exists_word hworded r
    rw [htext]
    exact kindOf_word hword (by decide) t
  · cases e with
    | literal v => exact kindOf_value v r
    | param p => rfl
    | field f =>
      rw [Expr.shape_field]
      exact kindOf_sourceRef f.source _
    | binding ref => exact kindOf_sourceRef (.binding ref.name) r
    | parentBinding ref => exact kindOf_sourceRef (.parentBinding ref.name) r
    | values table =>
      have hword : isWord "values" (some .values) = true := by decide
      rw [Expr.shape_values, ValuesTable.shape_append]
      exact kindOf_word hword (by decide : '[' ∈ wordStops) _
    | tuple items => rfl
    | mapping entries => rfl
    | _ => exact absurd rfl hworded

theorem kindOf_stop {c : Char} (hc : c ∈ wordStops) (t : List Char) : kindOf (c :: t) = none := by
  have hfirst : ∀ c ∈ wordStops, c ≠ '?' ∧ c ≠ '&' ∧ c ≠ '\x7b' ∧ c ≠ '%' ∧ c.isUpper = false := by
    intro c hc
    simp only [wordStops, List.mem_cons, List.not_mem_nil, or_false] at hc
    rcases hc with rfl | rfl | rfl | rfl | rfl | rfl | rfl <;> decide
  obtain ⟨hparam, hreference, htuple, hmapping, hupper⟩ := hfirst c hc
  have htake : (c :: t).takeWhile (fun c => !wordStops.contains c) = [] :=
    List.takeWhile_cons_of_neg (by simp [hc])
  rw [kindOf, if_neg hparam, if_neg hreference, if_neg htuple, if_neg hmapping,
    if_neg (by simp [hupper]), htake]
  decide

/-- No expression starts with a character at which words end. -/
theorem shape_append_ne {e : Expr} {c : Char} (hc : c ∈ wordStops) (r t : List Char) :
    e.shape ++ r ≠ c :: t := by
  intro h
  have hkind := kindOf_shape e r
  rw [h, kindOf_stop hc] at hkind
  cases hkind

/-! ### Aliases -/

/--
A text with a character before its first closing parenthesis that references to aliases do not have.
-/
inductive Continues : List Char → Prop where
  | stop {c : Char} {t : List Char} (hc : c ∈ ['(', ',', '\x7b', '"']) : Continues (c :: t)
  | step {c : Char} {t : List Char} (hc : c ≠ ')') (h : Continues t) : Continues (c :: t)

namespace Continues

theorem append {cs t : List Char} (hcs : ')' ∉ cs) (h : Continues t) : Continues (cs ++ t) := by
  induction cs with
  | nil => exact h
  | cons c cs ih =>
    rw [List.mem_cons, not_or] at hcs
    exact .step (Ne.symm hcs.1) (ih hcs.2)

theorem ne_append {cs t s : List Char} (hcs : ∀ c ∈ cs, c ∉ [')', '(', ',', '\x7b', '"'])
    (h : Continues t) : t ≠ cs ++ ')' :: s := by
  induction h generalizing cs with
  | stop hc =>
    intro htext
    cases cs with
    | nil =>
      cases htext
      exact absurd hc (by decide)
    | cons d cs =>
      cases htext
      exact hcs _ List.mem_cons_self (List.mem_cons_of_mem _ hc)
  | step hc h ih =>
    intro htext
    cases cs with
    | nil =>
      cases htext
      exact hc rfl
    | cons d cs =>
      rw [List.forall_mem_cons] at hcs
      exact ih hcs.2 (List.cons.inj htext).2

end Continues

theorem continues_natText (n : Nat) {t : List Char} (h : Continues t) :
    Continues (natText n ++ t) := by
  refine h.append ?_
  intro hc
  cases isDigit_of_mem_natText hc

theorem continues_name {name : String} {stops : List Char} (hname : avoids name stops = true)
    (hstops : ')' ∈ stops) {t : List Char} (h : Continues t) : Continues (name.toList ++ t) := by
  refine h.append ?_
  intro hc
  exact avoids_iff.1 hname _ hc hstops

theorem continues_sourceRef (ref : SourceRef) {t : List Char} (h : Continues t) :
    Continues (ref.shape ++ t) := by
  cases ref with
  | position i => exact .step (by decide) (continues_natText i h)
  | binding name =>
    rw [SourceRef.shape_binding]
    exact .append (by decide) (.stop (by decide))
  | parentBinding name =>
    rw [SourceRef.shape_parentBinding]
    exact .append (by decide) (.stop (by decide))

theorem continues_typeText {t : Option ResolvedType} (h : t.all ResolvedType.legible = true)
    {r : List Char} (hr : Continues r) : Continues (typeText t ++ r) := by
  cases t with
  | none => exact hr
  | some t =>
    change Continues (':' :: (t.text.toList ++ r))
    rw [t.toList_text, List.append_assoc]
    refine .step (by decide) (continues_name (ResolvedType.avoids_nameText h) (by decide) ?_)
    cases t with
    | builtin _ => exact hr
    | array _ | parameterized _ => exact .stop (by decide)

theorem continues_param {p : Param} (h : p.type.all ResolvedType.legible = true) {t : List Char}
    (ht : Continues t) : Continues (p.shape ++ t) := by
  have hindex (i : Option Nat) {t : List Char} (ht : Continues t) :
      Continues (indexText i ++ t) := by
    cases i with
    | none => exact ht
    | some i => exact continues_natText i ht
  have hsplice (splice : Bool) (width : Nat) {t : List Char} (ht : Continues t) :
      Continues (spliceText splice width ++ t) := by
    cases splice with
    | false => exact ht
    | true => exact .step (by decide) (continues_natText width ht)
  rw [Param.shape_append]
  exact .step (by decide) (hindex _ (hsplice _ _ (continues_typeText h ht)))

/-- An expression in front of a comma is not the name of an alias in front of a parenthesis. -/
theorem continues_shape {e : Expr} (h : e.legible = true) (r : List Char) :
    Continues (e.shape ++ ',' :: r) := by
  have hcomma : Continues (',' :: r) := .stop (by decide)
  by_cases hworded : e.isWorded = true
  · obtain ⟨word, t, htext, hword⟩ := Expr.exists_word hworded (',' :: r)
    rw [htext]
    exact continues_name (avoids_of_isWord hword) (by decide) (.stop (by decide))
  · cases e with
    | literal v =>
      rcases v.worded_shape with rfl | ⟨word, body, hshape, hword, -⟩
      · exact .append (by decide : ')' ∉ "Null".toList) hcomma
      · rw [isValueWord, Bool.and_eq_true] at hword
        rw [Expr.shape_literal, hshape, List.append_assoc]
        exact .append (fun hc => (forall_plain hword.1 _ hc).2.2 rfl) (.stop (by decide))
    | param p => exact continues_param h hcomma
    | field f =>
      rw [Expr.legible, Bool.and_eq_true] at h
      rw [Expr.shape_field]
      refine continues_sourceRef f.source ?_
      obtain ⟨source, name, resolved⟩ := f
      cases name with
      | schema name =>
        have hname := (Bool.and_eq_true_iff.1 h.2).1
        exact .step (by decide) (continues_name hname (by decide) hcomma)
      | raw name => exact .step (by decide) (.stop (by decide))
    | binding ref => exact continues_sourceRef (.binding ref.name) hcomma
    | parentBinding ref => exact continues_sourceRef (.parentBinding ref.name) hcomma
    | values table =>
      rw [Expr.shape_values, ValuesTable.shape_append]
      exact .append (by decide) (continues_natText _ (.step (by decide) (.stop (by decide))))
    | tuple items =>
      rw [Expr.shape_tuple]
      exact .stop (by decide)
    | mapping entries =>
      rw [Expr.shape_mapping]
      exact .step (by decide) (.stop (by decide))
    | _ => exact absurd rfl hworded

end QueryCompiler
