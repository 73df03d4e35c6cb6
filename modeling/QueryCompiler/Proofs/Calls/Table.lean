import Mathlib.Data.List.Basic
import QueryCompiler.Call
import QueryCompiler.Proofs.Parts

/-!
# What calls build

The entries of the table of calls are inverted once: what each callee makes of arguments of the
right shapes, and that a callee which is called with as many arguments as its entry says never runs
out of them.
-/

namespace QueryCompiler

/-! ### Results -/

/-- An error of a call that has too few arguments for its callee. -/
def CompileError.isMissing : CompileError → Bool
  | .invalid (.missingArgument _ _) => true
  | _ => false

/-- A value satisfies `P`; an error does not come from a missing argument. -/
def Yields {α : Type} (P : α → Prop) : Except CompileError α → Prop
  | .ok a => P a
  | .error e => e.isMissing = false

namespace Yields

variable {α β : Type} {P : α → Prop} {P' : β → Prop} {x : Except CompileError α}

theorem of_error (h : ∀ e, x = .error e → e.isMissing = false) : Yields (x = .ok ·) x := by
  cases x with
  | ok a => rfl
  | error e => exact h e rfl

theorem ok {a : α} (h : Yields P x) (hx : x = .ok a) : P a := by
  rw [hx] at h
  exact h

theorem error {e : CompileError} (h : Yields P x) (hx : x = .error e) : e.isMissing = false := by
  rw [hx] at h
  exact h

theorem imp {Q : α → Prop} (h : Yields P x) (himp : ∀ a, P a → Q a) : Yields Q x := by
  cases x with
  | ok a => exact himp a h
  | error e => exact h

theorem bind {f : α → Except CompileError β} (h : Yields P x) (hf : ∀ a, P a → Yields P' (f a)) :
    Yields P' (x >>= f) := by
  cases x with
  | ok a => exact hf a h
  | error e => exact h

end Yields

/-! ### Arguments -/

namespace CallArg

/--
What an argument consists of, at the levels at which a call brings it into its expression: a query
becomes a subquery.
-/
def parts : CallArg → List (Nat × Part)
  | expr e => e.parts 0
  | query q => q.parts 1
  | fragment (.mk _ e) => e.parts 0
  | path steps => partsPath 0 steps
  | atom _ | text _ | fields _ | source _ | type _ | rows _ | types _ => []

/-- An argument that is taken as an expression is one, or a query of which any row is meant. -/
theorem asExpr_eq_ok {name : String} {a : CallArg} {x : Expr} :
    a.asExpr name = .ok x ↔ a = .expr x ∨ ∃ q, a = .query q ∧ x = .subquery .any q := by
  cases a <;> simp [asExpr, eq_comm]

section

variable (name : String) (a : CallArg)

theorem asExpr_yields : Yields (a.asExpr name = .ok ·) (a.asExpr name) :=
  .of_error fun e h => by cases a <;> cases h <;> rfl

theorem asAtom_yields : Yields (a = .atom ·) (a.asAtom name) := by
  cases a <;> rfl

theorem asText_yields : Yields (a = .text ·) (a.asText name) := by
  cases a <;> rfl

theorem asQuery_yields : Yields (a = .query ·) (a.asQuery name) := by
  cases a <;> rfl

theorem asFieldName_yields : Yields (a.asFieldName name = .ok ·) (a.asFieldName name) :=
  .of_error fun e h => by cases a <;> cases h <;> rfl

theorem asFields_yields : Yields (a = .fields ·) (a.asFields name) := by
  cases a <;> rfl

theorem asPath_yields : Yields (a = .path ·) (a.asPath name) := by
  cases a <;> rfl

theorem asRows_yields : Yields (a = .rows ·) (a.asRows name) := by
  cases a <;> rfl

theorem asTypes_yields : Yields (a.asTypes name = .ok ·) (a.asTypes name) :=
  .of_error fun e h => by cases a <;> cases h <;> rfl

theorem asDistinct_yields : Yields (fun _ => a = .atom "distinct") (a.asDistinct name) := by
  cases a with
  | atom text =>
    rw [asDistinct]
    split
    · rename_i htext
      exact congrArg atom htext
    · rfl
  | _ => rfl

theorem asSource_yields : Yields (a.asSource name = .ok ·) (a.asSource name) := by
  refine .of_error fun e h => ?_
  cases a with
  | expr x => cases x <;> cases h <;> rfl
  | _ => cases h <;> rfl

theorem asType_yields : Yields (a.asType name = .ok ·) (a.asType name) := by
  refine .of_error fun e h => ?_
  cases a with
  | expr x => cases x <;> cases h <;> rfl
  | _ => cases h <;> rfl

theorem parse_isMissing {text : String} {e : CompileError}
    (h : IntervalUnit.parse text = .error e) : e.isMissing = false := by
  rw [IntervalUnit.parse] at h
  split at h <;> cases h
  rfl

theorem asUnit_yields : Yields (a.asUnit name = .ok ·) (a.asUnit name) := by
  refine .of_error fun e h => ?_
  cases a with
  | text unit | atom unit => exact parse_isMissing h
  | _ =>
    cases h
    rfl

end

/--
An argument is taken as one of a fragment: as it is if it is made for that, otherwise as an
expression.
-/
inductive Argues (name : String) : CallArg → FragmentArg → Prop
  | fragment {role : ArgRole} {x : Expr} : Argues name (.fragment (.mk role x)) (.mk role x)
  | parameter {a : CallArg} {x : Expr} (h : a.asExpr name = .ok x) :
      Argues name a (.mk .parameter x)

theorem asFragmentArgs_yields (name : String) (args : List CallArg) :
    Yields (List.Forall₂ (Argues name) args) (asFragmentArgs name args) := by
  induction args with
  | nil => exact List.Forall₂.nil
  | cons a rest ih =>
    cases a with
    | fragment arg =>
      obtain ⟨role, x⟩ := arg
      exact ih.bind fun _ hrest => List.Forall₂.cons .fragment hrest
    | _ =>
      exact (asExpr_yields name _).bind fun _ hx =>
        ih.bind fun _ hrest => List.Forall₂.cons (.parameter hx) hrest

end CallArg

/-! ### Callees -/

namespace Callee

/-- A callee takes so many arguments. -/
def Takes : Callee → Nat → Prop
  | countRows, n => n = 0
  | unary _, n | subquery _, n | aggregate _, n | wrapper, n | binding, n | parentBinding, n
  | aliasRef, n => n = 1
  | binary _, n | countDistinct, n | filter, n | relative _, n | values, n | field, n
  | projection _, n | merge, n | jsonPath, n | cast, n | aliased, n => n = 2
  | shiftDate _, n => n = 3
  | fragment, n => 1 ≤ n

/-- What a callee builds under a name from arguments of the shapes that it asks for. -/
inductive Builds (name : String) : Callee → List CallArg → Expr → Prop
  | unary {op a x} (ha : a.asExpr name = .ok x) : Builds name (unary op) [a] (.operator op [x])
  | binary {op a b x y} (ha : a.asExpr name = .ok x) (hb : b.asExpr name = .ok y) :
      Builds name (binary op) [a, b] (.operator op [x, y])
  | subquery {kind query} : Builds name (subquery kind) [.query query] (.subquery kind query)
  | countRows : Builds name countRows [] (.aggregate .countRows [] false none)
  | aggregate {kind a x} (ha : a.asExpr name = .ok x) :
      Builds name (aggregate kind) [a] (.aggregate kind [x] false none)
  | countDistinct {a x} (ha : a.asExpr name = .ok x) :
      Builds name countDistinct [a, .atom "distinct"] (.aggregate .countValues [x] true none)
  /-- The filter that the aggregate has is replaced. -/
  | filter {a b kind args distinct old condition}
      (ha : a.asExpr name = .ok (.aggregate kind args distinct old))
      (hb : b.asExpr name = .ok condition) :
      Builds name filter [a, b] (.aggregate kind args distinct (some condition))
  | shiftDate {op a b c x y unit} (ha : a.asExpr name = .ok x) (hb : b.asExpr name = .ok y)
      (hc : c.asUnit name = .ok unit) :
      Builds name (shiftDate op) [a, b, c] (.operator op [x, .interval y unit])
  | relative {op a b x unit} (ha : a.asExpr name = .ok x) (hb : b.asUnit name = .ok unit) :
      Builds name (relative op) [a, b] (.operator op [.interval x unit])
  | fragment {text rest args} (hrest : List.Forall₂ (CallArg.Argues name) rest args) :
      Builds name fragment (.text text :: rest) (.fragment text [] args)
  | values {rows b types} (hb : b.asTypes name = .ok types) :
      Builds name values [.rows rows, b] (.values (.ofRows rows types))
  | field {a b source fieldName} (ha : a.asSource name = .ok source)
      (hb : b.asFieldName name = .ok fieldName) :
      Builds name field [a, b] (.field ⟨source, fieldName, none⟩)
  | projection {kind a source set} (ha : a.asSource name = .ok source) :
      Builds name (projection kind) [a, .fields set] (.projection kind ⟨source, set, none⟩)
  | merge {a b x y} (ha : a.asExpr name = .ok x) (hb : b.asExpr name = .ok y) :
      Builds name merge [a, b] (.merge x y)
  | jsonPath {a x path} (ha : a.asExpr name = .ok x) :
      Builds name jsonPath [a, .path path] (.jsonPath x path)
  | cast {a b x target} (ha : a.asExpr name = .ok x) (hb : b.asType name = .ok target) :
      Builds name cast [a, b] (.cast x target none)
  | binding {source} : Builds name binding [.atom source] (.binding ⟨source, none⟩)
  | parentBinding {source} :
      Builds name parentBinding [.atom source] (.parentBinding ⟨source, none⟩)
  | aliasRef {label} : Builds name aliasRef [.atom label] (.aliasRef label)
  | aliased {a x label} (ha : a.asExpr name = .ok x) :
      Builds name aliased [a, .atom label] (.aliased x label)

/-- A callee with as many arguments as it takes builds from them, or refuses one that is there. -/
theorem build_yields (name : String) {callee : Callee} {args : List CallArg}
    (h : callee.Takes args.length) :
    Yields (callee.Builds name args) (callee.build name args) := by
  cases callee with
  | unary op =>
    obtain ⟨a, rfl⟩ := List.length_eq_one_iff.1 h
    exact (a.asExpr_yields name).bind fun _ ha => .unary ha
  | binary op =>
    obtain ⟨a, b, rfl⟩ := List.length_eq_two.1 h
    exact (a.asExpr_yields name).bind fun _ ha => (b.asExpr_yields name).bind fun _ hb =>
      .binary ha hb
  | subquery kind =>
    obtain ⟨a, rfl⟩ := List.length_eq_one_iff.1 h
    refine (a.asQuery_yields name).bind ?_
    rintro query rfl
    exact .subquery
  | countRows =>
    obtain rfl := List.length_eq_zero_iff.1 h
    exact .countRows
  | aggregate kind =>
    obtain ⟨a, rfl⟩ := List.length_eq_one_iff.1 h
    exact (a.asExpr_yields name).bind fun _ ha => .aggregate ha
  | countDistinct =>
    obtain ⟨a, b, rfl⟩ := List.length_eq_two.1 h
    refine (a.asExpr_yields name).bind fun _ ha => (b.asDistinct_yields name).bind ?_
    rintro _ rfl
    exact .countDistinct ha
  | filter =>
    obtain ⟨a, b, rfl⟩ := List.length_eq_two.1 h
    refine (a.asExpr_yields name).bind fun target ha => (b.asExpr_yields name).bind fun _ hb => ?_
    cases target with
    | aggregate kind args distinct old => exact .filter ha hb
    | _ => rfl
  | shiftDate op =>
    obtain ⟨a, b, c, rfl⟩ := List.length_eq_three.1 h
    exact (a.asExpr_yields name).bind fun _ ha => (b.asExpr_yields name).bind fun _ hb =>
      (c.asUnit_yields name).bind fun _ hc => .shiftDate ha hb hc
  | relative op =>
    obtain ⟨a, b, rfl⟩ := List.length_eq_two.1 h
    exact (a.asExpr_yields name).bind fun _ ha => (b.asUnit_yields name).bind fun _ hb =>
      .relative ha hb
  | fragment =>
    obtain ⟨a, rest, rfl⟩ := List.exists_cons_of_length_pos h
    refine (a.asText_yields name).bind ?_
    rintro text rfl
    exact (CallArg.asFragmentArgs_yields name rest).bind fun _ hrest => .fragment hrest
  | wrapper =>
    obtain ⟨a, rfl⟩ := List.length_eq_one_iff.1 h
    rfl
  | values =>
    obtain ⟨a, b, rfl⟩ := List.length_eq_two.1 h
    refine (a.asRows_yields name).bind ?_
    rintro rows rfl
    exact (b.asTypes_yields name).bind fun _ hb => .values hb
  | field =>
    obtain ⟨a, b, rfl⟩ := List.length_eq_two.1 h
    exact (a.asSource_yields name).bind fun _ ha => (b.asFieldName_yields name).bind fun _ hb =>
      .field ha hb
  | projection kind =>
    obtain ⟨a, b, rfl⟩ := List.length_eq_two.1 h
    refine (a.asSource_yields name).bind fun _ ha => (b.asFields_yields name).bind ?_
    rintro set rfl
    exact .projection ha
  | merge =>
    obtain ⟨a, b, rfl⟩ := List.length_eq_two.1 h
    exact (a.asExpr_yields name).bind fun _ ha => (b.asExpr_yields name).bind fun _ hb =>
      .merge ha hb
  | jsonPath =>
    obtain ⟨a, b, rfl⟩ := List.length_eq_two.1 h
    refine (a.asExpr_yields name).bind fun _ ha => (b.asPath_yields name).bind ?_
    rintro path rfl
    exact .jsonPath ha
  | cast =>
    obtain ⟨a, b, rfl⟩ := List.length_eq_two.1 h
    exact (a.asExpr_yields name).bind fun _ ha => (b.asType_yields name).bind fun _ hb =>
      .cast ha hb
  | binding =>
    obtain ⟨a, rfl⟩ := List.length_eq_one_iff.1 h
    refine (a.asAtom_yields name).bind ?_
    rintro text rfl
    exact .binding
  | parentBinding =>
    obtain ⟨a, rfl⟩ := List.length_eq_one_iff.1 h
    refine (a.asAtom_yields name).bind ?_
    rintro text rfl
    exact .parentBinding
  | aliasRef =>
    obtain ⟨a, rfl⟩ := List.length_eq_one_iff.1 h
    refine (a.asAtom_yields name).bind ?_
    rintro text rfl
    exact .aliasRef
  | aliased =>
    obtain ⟨a, b, rfl⟩ := List.length_eq_two.1 h
    refine (a.asExpr_yields name).bind fun _ ha => (b.asAtom_yields name).bind ?_
    rintro text rfl
    exact .aliased ha

/-! ### The table -/

/-- A callee that is found is a fragment with some arguments, or stands in the table. -/
theorem find?_eq_some {name : String} {n : Nat} {callee : Callee}
    (h : find? name n = some callee) :
    (name = "fragment" ∧ 1 ≤ n ∧ callee = .fragment) ∨ (name, n, callee) ∈ table := by
  rw [find?] at h
  split at h
  · rename_i hfragment
    cases h
    exact Or.inl ⟨hfragment.1, hfragment.2, rfl⟩
  · obtain ⟨⟨name', n', callee'⟩, hentry, rfl⟩ := Option.map_eq_some_iff.1 h
    have hfound := List.find?_some hentry
    simp only [Bool.and_eq_true, beq_iff_eq] at hfound
    obtain ⟨rfl, rfl⟩ := hfound
    exact Or.inr (List.mem_of_find?_eq_some hentry)

theorem table_takes : ∀ entry ∈ table, entry.2.2.Takes entry.2.1 := by
  simp [table, Takes]

/-- A callee is found for as many arguments as it takes. -/
theorem takes_of_find? {name : String} {n : Nat} {callee : Callee}
    (h : find? name n = some callee) : callee.Takes n := by
  rcases find?_eq_some h with ⟨-, hn, rfl⟩ | hentry
  · exact hn
  · exact table_takes _ hentry

end Callee

/-- A call builds its expression by the callee of its name, or fails with no argument missing. -/
theorem call_yields (name : String) (args : List CallArg) :
    Yields (fun e => ∃ callee, Callee.find? name args.length = some callee ∧
      callee.Builds name args e) (call name args) := by
  rw [call]
  cases hfind : Callee.find? name args.length with
  | none => rfl
  | some callee =>
    exact (Callee.build_yields name (Callee.takes_of_find? hfind)).imp
      fun e hbuilds => ⟨callee, rfl, hbuilds⟩

end QueryCompiler
