import QueryCompiler.Proofs.Calls.Table
import QueryCompiler.Proofs.Completeness
import QueryCompiler.Proofs.Numbering

/-!
# Operands of calls

The table of calls and the checks of binding state apart from each other how many operands an
operator takes and which of them is an interval, and how many arguments an aggregate takes. They
agree: what calls build of arguments in which everything has what it takes has it too, and that is
just what binding asks for.
-/

namespace QueryCompiler

open BindM CompileError

/-! ### Parts that have what they take -/

/--
An operator has as many operands as it takes, the last of them an interval if it moves dates; an
aggregate has as many arguments as it takes.
-/
def Part.Supplied : Part → Prop
  | .expr (.operator op operands) => operands.length = op.arity ∧
      (op.isDateArithmetic = true → ∃ count unit, operands.getLast? = some (.interval count unit))
  | .expr (.aggregate kind args _ _) => args.length = kind.arity
  | _ => True

/-- All operators and aggregates among some parts have what they take. -/
def AllSupplied (parts : List (Nat × Part)) : Prop := ∀ part ∈ parts, part.2.Supplied

@[simp] theorem allSupplied_nil : AllSupplied [] := List.forall_mem_nil _

@[simp] theorem allSupplied_cons {part : Nat × Part} {rest : List (Nat × Part)} :
    AllSupplied (part :: rest) ↔ part.2.Supplied ∧ AllSupplied rest :=
  List.forall_mem_cons

@[simp] theorem allSupplied_append {parts parts' : List (Nat × Part)} :
    AllSupplied (parts ++ parts') ↔ AllSupplied parts ∧ AllSupplied parts' :=
  List.forall_mem_append

/-! ### Binding -/

section

variable {P : CompileError → Prop}

/-- A part that has what it takes refuses nothing. -/
theorem Part.Supplied.refuses {part : Part} (h : part.Supplied) : part.Refuses P := by
  unfold Part.Refuses
  split
  · rename_i op operands
    obtain ⟨hcount, hlast⟩ := h
    intro e he
    rw [checkOperands, if_neg (not_not_intro hcount)] at he
    split at he
    · rename_i hdate
      obtain ⟨count, unit, hlast⟩ := hlast hdate
      rw [hlast] at he
      cases he
    · cases he
  · rename_i kind args distinct filter
    have hcount : args.length = kind.arity := h
    intro e he
    rw [checkArguments, if_neg (not_not_intro hcount)] at he
    cases he
  · trivial

theorem AllSupplied.refuseAll {parts : List (Nat × Part)} (h : AllSupplied parts) :
    RefuseAll P parts :=
  fun part hpart => (h part hpart).refuses

end

theorem Expr.throws_apart {level : Nat} {e : Expr} (h : AllSupplied (e.parts level)) (ctx : Context)
    (o : Bool) : Throws Apart (e.bind ctx o) :=
  Expr.throws_of_refuseAll (fun _ => id) ctx o level e h.refuseAll

theorem Query.throws_apart {level : Nat} {query : Query} (h : AllSupplied (query.parts level))
    (ctx : Context) : Throws Apart (query.bind ctx) :=
  Query.throws_of_refuseAll (fun _ => id) ctx level query h.refuseAll

theorem isSupply_of_checkOperands {op : Operator} {operands : List Expr} {e : ExprFault}
    (h : checkOperands op operands = .error e) : (invalid e).isSupply = true := by
  rw [checkOperands] at h
  split at h
  · cases h
    rfl
  · split at h
    · split at h <;> cases h
      rfl
    · cases h

theorem isSupply_of_checkArguments {kind : AggregateKind} {args : List Expr} {e : ExprFault}
    (h : checkArguments kind args = .error e) : (invalid e).isSupply = true := by
  rw [checkArguments] at h
  split at h <;> cases h
  rfl

/-- An expression that does not have what it takes is refused for that before anything else. -/
theorem Expr.bind_of_not_supplied {e : Expr} (h : ¬ (Part.expr e).Supplied) (ctx : Context)
    (o : Bool) (s : BindState) :
    ∃ error, e.bind ctx o s = .error error s ∧ error.isSupply = true := by
  cases e with
  | operator op operands =>
    cases hcheck : checkOperands op operands with
    | ok _ => exact absurd (operands_of_checkOperands hcheck) h
    | error fault =>
      refine ⟨.invalid fault, ?_, isSupply_of_checkOperands hcheck⟩
      rw [Expr.bind, hcheck]
      rfl
  | aggregate kind args distinct filter =>
    cases hcheck : checkArguments kind args with
    | ok _ => exact absurd (arguments_of_checkArguments hcheck) h
    | error fault =>
      refine ⟨.invalid fault, ?_, isSupply_of_checkArguments hcheck⟩
      rw [Expr.bind, hcheck]
      rfl
  | _ => exact absurd trivial h

/-! ### Arguments -/

namespace CallArg

variable {name : String} {a : CallArg}

theorem allSupplied_of_asExpr {x : Expr} (h : a.asExpr name = .ok x) :
    AllSupplied (x.parts 0) ↔ AllSupplied a.parts := by
  rcases asExpr_eq_ok.1 h with rfl | ⟨query, rfl, rfl⟩
  · rfl
  · simp [Expr.parts, parts, Part.Supplied]

theorem allSupplied_of_argues {args : List CallArg} {fargs : List FragmentArg}
    (h : List.Forall₂ (Argues name) args fargs) :
    AllSupplied (partsArgs 0 fargs) ↔ ∀ a ∈ args, AllSupplied a.parts := by
  induction h with
  | nil => simp [partsArgs]
  | cons harg _ ih =>
    rw [partsArgs.eq_def, List.forall_mem_cons, ← ih]
    cases harg with
    | fragment => exact allSupplied_append
    | parameter hx =>
      rw [← allSupplied_of_asExpr hx]
      exact allSupplied_append

end CallArg

/-! ### Calls -/

namespace Callee

/--
A callee that builds an operator or an aggregate of its own gives it what it takes: as many operands
or arguments as the callee has for it, and an interval only to date arithmetic.
-/
def Supplies : Callee → Prop
  | unary op => op.arity = 1 ∧ op.isDateArithmetic = false
  | binary op => op.arity = 2 ∧ op.isDateArithmetic = false
  | shiftDate op => op.arity = 2
  | relative op => op.arity = 1
  | aggregate kind => kind.arity = 1
  | _ => True

theorem table_supplies : ∀ entry ∈ table, entry.2.2.Supplies := by
  simp [table, Supplies, Operator.arity, Operator.isDateArithmetic, AggregateKind.arity]

theorem supplies_of_find? {name : String} {n : Nat} {callee : Callee}
    (h : find? name n = some callee) : callee.Supplies := by
  rcases find?_eq_some h with ⟨-, -, rfl⟩ | hentry
  · trivial
  · exact table_supplies _ hentry

section

attribute [local simp] Expr.parts partsAll partsOption Part.Supplied CallArg.parts

open CallArg

/-- What a callee builds of supplied arguments is supplied. -/
theorem Builds.allSupplied {name : String} {callee : Callee} {args : List CallArg} {e : Expr}
    (h : callee.Builds name args e) (hsupplies : callee.Supplies)
    (hargs : ∀ a ∈ args, AllSupplied a.parts) : AllSupplied (e.parts 0) := by
  cases h with
  | unary ha =>
    obtain ⟨harity, hdate⟩ := hsupplies
    simpa [harity, hdate, allSupplied_of_asExpr ha] using hargs
  | binary ha hb =>
    obtain ⟨harity, hdate⟩ := hsupplies
    simpa [harity, hdate, allSupplied_of_asExpr ha, allSupplied_of_asExpr hb] using hargs
  | subquery => simpa using hargs
  | countRows => simp [AggregateKind.arity]
  | aggregate ha =>
    rw [Supplies] at hsupplies
    simpa [hsupplies, allSupplied_of_asExpr ha] using hargs
  | countDistinct ha => simpa [AggregateKind.arity, allSupplied_of_asExpr ha] using hargs
  | filter ha hb =>
    simp only [List.forall_mem_cons, ← allSupplied_of_asExpr ha, ← allSupplied_of_asExpr hb]
      at hargs
    obtain ⟨htarget, hcondition, -⟩ := hargs
    -- The aggregate keeps its arguments, so it still has what it takes.
    simp only [Expr.parts, allSupplied_cons, allSupplied_append] at htarget ⊢
    exact ⟨htarget.1, htarget.2.1, hcondition⟩
  | shiftDate ha hb hc =>
    rw [Supplies] at hsupplies
    simp only [List.forall_mem_cons, ← allSupplied_of_asExpr ha, ← allSupplied_of_asExpr hb]
      at hargs
    simp [hsupplies, hargs.1, hargs.2.1]
  | relative ha hb =>
    rw [Supplies] at hsupplies
    simp only [List.forall_mem_cons, ← allSupplied_of_asExpr ha] at hargs
    simp [hsupplies, hargs.1]
  | fragment hrest => simpa [allSupplied_of_argues hrest] using hargs
  | values | field | projection | binding | parentBinding | aliasRef => simp
  | merge ha hb => simpa [allSupplied_of_asExpr ha, allSupplied_of_asExpr hb] using hargs
  | jsonPath ha => simpa [allSupplied_of_asExpr ha] using hargs
  | cast ha hb =>
    simp only [List.forall_mem_cons, ← allSupplied_of_asExpr ha] at hargs
    simpa using hargs.1
  | aliased ha => simpa [allSupplied_of_asExpr ha] using hargs

end

end Callee

/--
What a call builds of arguments in which every operator and every aggregate has what it takes is
such an expression again, and no call is missing an argument. Neither such an expression nor such a
query is refused by binding, wherever it stands, nor by compilation, for its operands or arguments;
an expression that does not have what it takes is refused for that.
-/
theorem call_supplied :
    (∀ name args e, call name args = .ok e → (∀ a ∈ args, AllSupplied a.parts) →
      AllSupplied (e.parts 0)) ∧
    (∀ name args other n, call name args ≠ .error (.invalid (.missingArgument other n))) ∧
    (∀ (e : Expr), AllSupplied (e.parts 0) → ∀ ctx o s error s',
      e.bind ctx o s = .error error s' → error.isSupply = false) ∧
    (∀ (query : Query), AllSupplied (query.parts 0) →
      (∀ ctx s error s', query.bind ctx s = .error error s' → error.isSupply = false) ∧
      ∀ catalog config error, query.compile catalog config = .error error →
        error.isSupply = false) ∧
    ∀ (e : Expr), ¬ (Part.expr e).Supplied → ∀ ctx o s,
      ∃ error, e.bind ctx o s = .error error s ∧ error.isSupply = true := by
  refine ⟨?_, ?_, ?_, fun query hquery => ⟨?_, ?_⟩, ?_⟩
  · intro name args e h hargs
    obtain ⟨callee, hfind, hbuilds⟩ := (call_yields name args).ok h
    exact hbuilds.allSupplied (Callee.supplies_of_find? hfind) hargs
  · intro name args other n h
    cases (call_yields name args).error h
  · intro e he ctx o s error s' h
    exact (Expr.throws_apart he ctx o s error s' h).isSupply_eq_false
  · intro ctx s error s' h
    exact (Query.throws_apart hquery ctx s error s' h).isSupply_eq_false
  · intro catalog config error h
    obtain ⟨s, s', hbind⟩ := bind_error_of_compile h
    exact (Query.throws_apart hquery _ s error s' hbind).isSupply_eq_false
  · intro e he ctx o s
    exact Expr.bind_of_not_supplied he ctx o s

/-- Three days after a post was written. -/
def threeDaysAfter : List CallArg :=
  [.expr (.field ⟨.position 0, .schema "inserted_at", none⟩),
    .expr (.param (.ofValue (.integer 3))), .atom "day"]

def movedDate : Expr :=
  .operator .datetimeAdd [.field ⟨.position 0, .schema "inserted_at", none⟩,
    .interval (.param (.ofValue (.integer 3))) .day]

/-- Without a source, what is built of a moved date is refused for the source and nothing else. -/
theorem call_supplied_movedDate :
    call "datetime_add" threeDaysAfter = .ok movedDate ∧
      ∃ isNull, call "is_nil" [.expr movedDate] = .ok isNull ∧ AllSupplied (isNull.parts 0) ∧
        ∃ error s', isNull.bind (.top .empty .default) false .start = .error error s' ∧
          error.isSupply = false := by
  have hdate : AllSupplied (movedDate.parts 0) := call_supplied.1 "datetime_add" threeDaysAfter _
    rfl (by simp [threeDaysAfter, CallArg.parts, Expr.parts, Part.Supplied])
  have hnull := call_supplied.1 "is_nil" [.expr movedDate] _ rfl (List.forall_mem_singleton.2 hdate)
  exact ⟨rfl, _, rfl, hnull, _, _, rfl,
    call_supplied.2.2.1 _ hnull (.top .empty .default) false .start _ _ rfl⟩

end QueryCompiler
