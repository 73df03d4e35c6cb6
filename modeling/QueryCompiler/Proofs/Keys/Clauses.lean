import QueryCompiler.Proofs.Keys.Kinds

/-!
# What follows an expression

An expression in a shape is followed by the next item of a list, by the end of the list, or by the
next clause of its query. The clauses of a query stand in a fixed order, each behind a word of its
own, so that a clause that is missing cannot be confused with one that is there.
-/

namespace QueryCompiler

/-! ### Lists -/

/-- A text that starts with the character that closes a list. -/
def Closes : List Char → Bool
  | ')' :: _ => true
  | '\x7d' :: _ => true
  | _ => false

theorem ends_of_closes {r : List Char} (h : Closes r = true) : Ends r = true := by
  rw [Closes.eq_def] at h
  split at h
  · rfl
  · rfl
  · cases h

theorem shape_append_ne_of_closes {e : Expr} {r t : List Char} (h : Closes t = true) :
    e.shape ++ r ≠ t := by
  rw [Closes.eq_def] at h
  split at h
  · exact shape_append_ne (by decide) r _
  · exact shape_append_ne (by decide) r _
  · cases h

theorem ends_restShapes (rest : List Expr) {r : List Char} (h : Closes r = true) :
    Ends (restShapes rest ++ r) = true := by
  cases rest with
  | nil => exact ends_of_closes h
  | cons e rest =>
    rw [restShapes_cons]
    rfl

theorem ends_restEntryShapes (rest : List (String × Expr)) {r : List Char} (h : Closes r = true) :
    Ends (restEntryShapes rest ++ r) = true := by
  cases rest with
  | nil => exact ends_of_closes h
  | cons e rest =>
    rw [restEntryShapes_cons]
    rfl

theorem ends_argShapes (args : List FragmentArg) {r : List Char} (h : Closes r = true) :
    Ends (argShapes args ++ r) = true := by
  cases args with
  | nil => exact ends_of_closes h
  | cons arg rest =>
    obtain ⟨role, e⟩ := arg
    rw [argShapes_cons]
    rfl

/-- Lists agree with commas in front of their items if they agree with commas between them. -/
theorem restShapes_of_shapes {es es' : List Expr} {r s : List Char} (hr : Closes r = true)
    (hs : Closes s = true) (h : shapes es ++ r = shapes es' ++ s) :
    restShapes es ++ r = restShapes es' ++ s := by
  cases es with
  | nil =>
    cases es' with
    | nil => exact h
    | cons e' rest' =>
      rw [shapes_cons] at h
      exact absurd h.symm (shape_append_ne_of_closes hr)
  | cons e rest =>
    cases es' with
    | nil =>
      rw [shapes_cons] at h
      exact absurd h (shape_append_ne_of_closes hs)
    | cons e' rest' =>
      rw [shapes_cons, shapes_cons] at h
      rw [restShapes_cons, restShapes_cons, h]

theorem restEntryShapes_of_entryShapes {es es' : List (String × Expr)} {r s : List Char}
    (hes : legibleEntries es = true) (hes' : legibleEntries es' = true)
    (h : entryShapes es ++ '\x7d' :: r = entryShapes es' ++ '\x7d' :: s) :
    restEntryShapes es ++ '\x7d' :: r = restEntryShapes es' ++ '\x7d' :: s := by
  have hkey {key : String} {e : Expr} {rest : List (String × Expr)} {t u : List Char}
      (hlegible : legibleEntries ((key, e) :: rest) = true) :
      key.toList ++ ':' :: t ≠ '\x7d' :: u := by
    rw [legibleEntries, Bool.and_eq_true, Bool.and_eq_true] at hlegible
    intro htext
    obtain ⟨-, hrest⟩ := append_inj_of_opens (avoids_iff.1 hlegible.1.1) (List.forall_mem_nil _)
      (opens_cons.2 (by decide)) (opens_cons.2 (by decide)) htext
    cases hrest
  cases es with
  | nil =>
    cases es' with
    | nil => exact h
    | cons entry rest' =>
      rw [entryShapes_cons] at h
      exact absurd h.symm (hkey hes')
  | cons entry rest =>
    cases es' with
    | nil =>
      rw [entryShapes_cons] at h
      exact absurd h (hkey hes)
    | cons entry' rest' =>
      rw [entryShapes_cons, entryShapes_cons] at h
      rw [restEntryShapes_cons, restEntryShapes_cons, h]

/-! ### Words in front of expressions -/

/-- An expression is not introduced by a word with a space behind it. -/
theorem shape_append_ne_of_kindOf {e : Expr} {r t : List Char} (h : kindOf t = none) :
    e.shape ++ r ≠ t := by
  rintro rfl
  rw [kindOf_shape] at h
  cases h

theorem ends_space_shape (e : Expr) (r : List Char) : Ends (' ' :: (e.shape ++ r)) = true := by
  rw [Ends.eq_def]
  split
  · rfl
  · rename_i t heq
    have hkind : kindOf ("filter ".toList ++ t) = none :=
      kindOf_word (by decide : isWord "filter" none = true) (by decide : ' ' ∈ wordStops) t
    exact absurd (List.cons.inj heq).2 (shape_append_ne_of_kindOf hkind)
  · rename_i heq
    cases heq
    rfl

theorem kindOf_role {role : ArgRole} (h : role ≠ .parameter) (r : List Char) :
    kindOf (role.shape ++ r) = none := by
  cases role with
  | parameter => exact absurd rfl h
  | identifier => exact kindOf_word (by decide : isWord "identifier" none = true) (by decide) r
  | constant => exact kindOf_word (by decide : isWord "constant" none = true) (by decide) r
  | splice => exact kindOf_word (by decide : isWord "splice" none = true) (by decide) r

theorem ne_filter_of_ends {r : List Char} (h : Ends r = true) (t : List Char) :
    r ≠ " filter ".toList ++ t := by
  rintro rfl
  cases h

theorem role_append_inj {role role' : ArgRole} {e e' : Expr} {r s : List Char}
    (h : role.shape ++ (e.shape ++ r) = role'.shape ++ (e'.shape ++ s)) :
    role = role' ∧ e.shape ++ r = e'.shape ++ s := by
  match role, role' with
  | .parameter, .parameter => exact ⟨rfl, h⟩
  | .identifier, .identifier | .constant, .constant | .splice, .splice =>
    exact ⟨rfl, List.append_cancel_left h⟩
  | .parameter, .identifier | .parameter, .constant | .parameter, .splice =>
    exact absurd h (shape_append_ne_of_kindOf (kindOf_role (by decide) _))
  | .identifier, .parameter | .constant, .parameter | .splice, .parameter =>
    exact absurd h.symm (shape_append_ne_of_kindOf (kindOf_role (by decide) _))
  | .identifier, .constant | .identifier, .splice | .constant, .identifier | .constant, .splice
  | .splice, .identifier | .splice, .constant => cases (List.cons.inj h).1

theorem distinct_append_inj {distinct distinct' : Bool} {args args' : List Expr} {r s : List Char}
    (h : (if distinct then "distinct ".toList else []) ++ (shapes args ++ ')' :: r) =
      (if distinct' then "distinct ".toList else []) ++ (shapes args' ++ ')' :: s)) :
    distinct = distinct' ∧ shapes args ++ ')' :: r = shapes args' ++ ')' :: s := by
  have hword {args : List Expr} {r s : List Char} :
      shapes args ++ ')' :: r ≠ "distinct ".toList ++ s := by
    have hkind : kindOf ("distinct ".toList ++ s) = none :=
      kindOf_word (by decide : isWord "distinct" none = true) (by decide : ' ' ∈ wordStops) s
    cases args with
    | nil => exact nofun
    | cons e rest =>
      rw [shapes_cons]
      exact shape_append_ne_of_kindOf hkind
  cases distinct with
  | false =>
    cases distinct' with
    | false => exact ⟨rfl, h⟩
    | true => exact absurd h hword
  | true =>
    cases distinct' with
    | false => exact absurd h.symm hword
    | true => exact ⟨rfl, List.append_cancel_left h⟩

theorem SortDirection.label_append_inj {direction direction' : SortDirection} {r s : List Char}
    (h : direction.label.toList ++ r = direction'.label.toList ++ s) :
    direction = direction' ∧ r = s := by
  match direction, direction' with
  | .asc, .asc | .desc, .desc => exact ⟨rfl, List.append_cancel_left h⟩
  | .asc, .desc | .desc, .asc => cases (List.cons.inj h).1

theorem IntervalUnit.name_append_inj {unit unit' : IntervalUnit} {r s : List Char}
    (h : unit.name.toList ++ ')' :: r = unit'.name.toList ++ ')' :: s) :
    unit = unit' ∧ r = s := by
  have hname (unit : IntervalUnit) : avoids unit.name [')'] = true := by cases unit <;> decide
  obtain ⟨hunit, hrest⟩ := QueryCompiler.name_append_inj (hname unit) (hname unit')
    (opens_cons.2 (by decide)) (opens_cons.2 (by decide)) h
  have hfound := IntervalUnit.ofName?_name unit
  rw [hunit, IntervalUnit.ofName?_name] at hfound
  exact ⟨(Option.some.inj hfound).symm, (List.cons.inj hrest).2⟩

theorem ends_unit (unit : IntervalUnit) (r : List Char) :
    Ends (' ' :: (unit.name.toList ++ ')' :: r)) = true := by
  cases unit <;> rfl

theorem JoinKind.label_append_inj {kind kind' : JoinKind} {r s : List Char}
    (h : kind.label.toList ++ ' ' :: r = kind'.label.toList ++ ' ' :: s) :
    kind = kind' ∧ r = s := by
  have hlabel (kind : JoinKind) : avoids kind.label [' '] = true := by cases kind <;> decide
  have hinj : ∀ kind kind' : JoinKind, kind.label = kind'.label → kind = kind' := by
    intro kind kind'
    cases kind <;> cases kind' <;> decide
  obtain ⟨hkind, hrest⟩ := name_append_inj (hlabel kind) (hlabel kind')
    (opens_cons.2 (by decide)) (opens_cons.2 (by decide)) h
  exact ⟨hinj kind kind' hkind, (List.cons.inj hrest).2⟩

/-! ### Paths -/

theorem ends_pathShape (path : List PathStep) {r : List Char} (h : Closes r = true) :
    Ends (pathShape path ++ r) = true := by
  cases path with
  | nil => exact ends_of_closes h
  | cons step rest =>
    cases step with
    | key name =>
      rw [pathShape_key, toList_quoted]
      rfl
    | index i => rfl
    | computed e =>
      rw [pathShape_computed]
      exact ends_space_shape e _

theorem pathShape_append_ne {step : PathStep} {rest : List PathStep} {r s : List Char}
    (hs : Closes s = true) : pathShape (step :: rest) ++ r ≠ s := by
  rintro rfl
  cases step <;> cases hs

/-- The text of an index does not contain the bracket that closes it. -/
theorem not_bracket_of_mem_int (i : Int) : ∀ c ∈ (toString i).toList, ¬ c = ']' := by
  have hdigits (n : Nat) : ∀ c ∈ Nat.toDigits 10 n, ¬ c = ']' := by
    rintro c hc rfl
    cases isDigit_of_mem_natText hc
  rw [Int.toString_eq_repr, Int.repr_eq_if]
  split
  · rw [Nat.toList_repr]
    exact hdigits _
  · rw [String.toList_append, Nat.toList_repr, List.forall_mem_append]
    exact ⟨by simp, hdigits _⟩

/-! ### Clauses -/

/-- The place of a clause in the order of clauses, by the letters with which it starts. -/
def clauseRank : List Char → Nat
  | ' ' :: '(' :: _ => 1
  | ' ' :: 'o' :: 'n' :: _ => 1
  | ' ' :: 'w' :: _ => 2
  | ' ' :: 's' :: _ => 3
  | ' ' :: 'g' :: _ => 4
  | ' ' :: 'h' :: _ => 5
  | ' ' :: 'o' :: 'r' :: _ => 6
  | ' ' :: 'l' :: _ => 7
  | ' ' :: 'o' :: 'f' :: _ => 8
  | ' ' :: 'd' :: _ => 9
  | ')' :: _ => 10
  | _ => 0

theorem ends_of_clauseRank {r : List Char} (h : 0 < clauseRank r) : Ends r = true := by
  rw [clauseRank.eq_def] at h
  split at h
  all_goals first | rfl | cases h

theorem ends_of_lt_clauseRank {r : List Char} {i : Nat} (h : i < clauseRank r) :
    Ends r = true :=
  ends_of_clauseRank (Nat.zero_lt_of_lt h)

theorem opens_of_clauseRank {r : List Char} (h : 0 < clauseRank r) : Opens (· ∈ [' ', ')']) r := by
  rw [clauseRank.eq_def] at h
  split at h
  all_goals first | exact opens_cons.2 (by decide) | cases h

section Clause

variable {name : String} {i : Nat} (hname : ∀ t, clauseRank (name.toList ++ t) = i + 1)
include hname

theorem ne_of_clauseRank {r : List Char} (hr : i + 1 < clauseRank r) (t : List Char) :
    r ≠ name.toList ++ t := by
  rintro rfl
  rw [hname] at hr
  exact Nat.lt_irrefl _ hr

theorem lt_clauseRank_clauseShape (clause : Option Expr) {r : List Char}
    (hr : i + 1 < clauseRank r) : i < clauseRank (clauseShape name clause ++ r) := by
  cases clause with
  | none => exact Nat.lt_of_succ_lt hr
  | some e =>
    rw [clauseShape_some, hname]
    exact Nat.lt_succ_self i

theorem lt_clauseRank_clauseShapes (clauses : List Expr) {r : List Char}
    (hr : i + 1 < clauseRank r) : i < clauseRank (clauseShapes name clauses ++ r) := by
  cases clauses with
  | nil => exact Nat.lt_of_succ_lt hr
  | cons e rest =>
    rw [clauseShapes_cons, hname]
    exact Nat.lt_succ_self i

end Clause

theorem lt_clauseRank_termShapes (terms : List OrderTerm) {r : List Char}
    (hr : 6 < clauseRank r) : 5 < clauseRank (termShapes terms ++ r) := by
  cases terms with
  | nil => exact Nat.lt_of_succ_lt hr
  | cons term rest =>
    obtain ⟨e, direction⟩ := term
    rw [termShapes_cons]
    exact Nat.lt_succ_self 5

theorem lt_clauseRank_joinShapes (joins : List Join) {r : List Char} (hr : 1 < clauseRank r) :
    0 < clauseRank (joinShapes joins ++ r) := by
  cases joins with
  | nil => exact Nat.lt_of_succ_lt hr
  | cons join rest =>
    obtain ⟨kind, source, on⟩ := join
    rw [joinShapes_cons]
    exact Nat.lt_succ_self 0

theorem lt_clauseRank_distinct (distinct : Bool) (r : List Char) :
    8 < clauseRank ((if distinct then " distinct".toList else []) ++ ')' :: r) := by
  cases distinct with
  | false => exact Nat.lt_of_succ_lt (Nat.lt_succ_self 9)
  | true => exact Nat.lt_succ_self 8

theorem queryEnd_append_inj {distinct distinct' : Bool} {r s : List Char}
    (h : (if distinct then " distinct".toList else []) ++ ')' :: r =
      (if distinct' then " distinct".toList else []) ++ ')' :: s) :
    distinct = distinct' ∧ r = s := by
  cases distinct with
  | false =>
    cases distinct' with
    | false => exact ⟨rfl, (List.cons.inj h).2⟩
    | true => cases (List.cons.inj h).1
  | true =>
    cases distinct' with
    | false => cases (List.cons.inj h).1
    | true => exact ⟨rfl, (List.cons.inj (List.append_cancel_left h)).2⟩

theorem lt_clauseRank_on (on : Option Expr) (r : List Char) :
    0 < clauseRank (clauseShape " on " on ++ ')' :: r) := by
  cases on with
  | none => exact Nat.succ_pos 9
  | some e =>
    rw [clauseShape_some]
    exact Nat.succ_pos 0

theorem ends_clauseShapes {name : String} {i : Nat}
    (hname : ∀ t, clauseRank (name.toList ++ t) = i + 1) (clauses : List Expr) {r : List Char}
    (hr : i + 1 < clauseRank r) : Ends (clauseShapes name clauses ++ r) = true :=
  ends_of_lt_clauseRank (lt_clauseRank_clauseShapes hname clauses hr)

theorem ends_termShapes (terms : List OrderTerm) {r : List Char} (hr : 6 < clauseRank r) :
    Ends (termShapes terms ++ r) = true :=
  ends_of_lt_clauseRank (lt_clauseRank_termShapes terms hr)

theorem clauseRank_where (t : List Char) : clauseRank (" where ".toList ++ t) = 2 := rfl

theorem clauseRank_select (t : List Char) : clauseRank (" select ".toList ++ t) = 3 := rfl

theorem clauseRank_groupBy (t : List Char) : clauseRank (" group_by ".toList ++ t) = 4 := rfl

theorem clauseRank_having (t : List Char) : clauseRank (" having ".toList ++ t) = 5 := rfl

theorem clauseRank_orderBy (t : List Char) : clauseRank (" order_by:".toList ++ t) = 6 := rfl

theorem clauseRank_limit (t : List Char) : clauseRank (" limit ".toList ++ t) = 7 := rfl

theorem clauseRank_offset (t : List Char) : clauseRank (" offset ".toList ++ t) = 8 := rfl

/-- What follows each clause of a query belongs to the later ones. -/
theorem lt_clauseRanks (joins : List Join) (wheres : List Expr) (select : Option Expr)
    (groupBy having : List Expr) (orderBy : List OrderTerm) (limit offset : Option Expr)
    (distinct : Bool) (r : List Char) :
    let t₉ := (if distinct then " distinct".toList else []) ++ ')' :: r
    let t₈ := clauseShape " offset " offset ++ t₉
    let t₇ := clauseShape " limit " limit ++ t₈
    let t₆ := termShapes orderBy ++ t₇
    let t₅ := clauseShapes " having " having ++ t₆
    let t₄ := clauseShapes " group_by " groupBy ++ t₅
    let t₃ := clauseShape " select " select ++ t₄
    let t₂ := clauseShapes " where " wheres ++ t₃
    0 < clauseRank (joinShapes joins ++ t₂) ∧ 1 < clauseRank t₂ ∧ 2 < clauseRank t₃ ∧
      3 < clauseRank t₄ ∧ 4 < clauseRank t₅ ∧ 5 < clauseRank t₆ ∧ 6 < clauseRank t₇ ∧
      7 < clauseRank t₈ ∧ 8 < clauseRank t₉ := by
  have h₉ := lt_clauseRank_distinct distinct r
  have h₈ := lt_clauseRank_clauseShape clauseRank_offset offset h₉
  have h₇ := lt_clauseRank_clauseShape clauseRank_limit limit h₈
  have h₆ := lt_clauseRank_termShapes orderBy h₇
  have h₅ := lt_clauseRank_clauseShapes clauseRank_having having h₆
  have h₄ := lt_clauseRank_clauseShapes clauseRank_groupBy groupBy h₅
  have h₃ := lt_clauseRank_clauseShape clauseRank_select select h₄
  have h₂ := lt_clauseRank_clauseShapes clauseRank_where wheres h₃
  exact ⟨lt_clauseRank_joinShapes joins h₂, h₂, h₃, h₄, h₅, h₆, h₇, h₈, h₉⟩

theorem ne_on (r t : List Char) : ')' :: r ≠ " on ".toList ++ t := by
  intro h
  cases (List.cons.inj h).1

/-! ### Sources -/

def bindingText : Option String → List Char
  | some name => " as:".toList ++ name.toList
  | none => []

theorem Source.shape_mk (origin : Origin) (name : Option String) (r : List Char) :
    (Source.mk origin name).shape ++ r = origin.shape ++ (bindingText name ++ r) := by
  cases name with
  | none => rw [Source.shape_none, bindingText, List.nil_append]
  | some name => rw [Source.shape_some, bindingText, List.append_assoc]

theorem ends_bindingText (name : Option String) {r : List Char} (hr : 0 < clauseRank r) :
    Ends (bindingText name ++ r) = true := by
  cases name with
  | none => exact ends_of_clauseRank hr
  | some name => rfl

theorem opens_bindingText (name : Option String) {r : List Char} (hr : 0 < clauseRank r) :
    Opens (· ∈ [' ', ')']) (bindingText name ++ r) := by
  cases name with
  | none => exact opens_of_clauseRank hr
  | some name => exact opens_cons.2 (by decide)

theorem bindingText_append_inj {name name' : Option String}
    (hname : name.all (avoids · [' ', ')']) = true)
    (hname' : name'.all (avoids · [' ', ')']) = true) {r s : List Char} (hr : 0 < clauseRank r)
    (hs : 0 < clauseRank s) (h : bindingText name ++ r = bindingText name' ++ s) :
    name = name' ∧ r = s := by
  cases name with
  | none =>
    cases name' with
    | none => exact ⟨rfl, h⟩
    | some name' =>
      obtain rfl : r = _ := h
      cases hr
  | some name =>
    cases name' with
    | none =>
      obtain rfl : _ = s := h
      cases hs
    | some name' =>
      rw [bindingText, bindingText, List.append_assoc, List.append_assoc,
        List.append_cancel_left_eq] at h
      obtain ⟨rfl, hend⟩ := name_append_inj hname hname' (opens_of_clauseRank hr)
        (opens_of_clauseRank hs) h
      exact ⟨rfl, hend⟩

end QueryCompiler
