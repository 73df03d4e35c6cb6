import QueryCompiler.Error
import QueryCompiler.Query

/-!
# Fragments of backend text

A `?` in the text of a fragment is a placeholder unless a backslash stands directly before it; then
it is a plain `?` and the backslash is dropped. Every placeholder takes the next argument. Inline
arguments become literals and spliced lists become parameters; ordinary arguments are left as they
are.
-/

namespace QueryCompiler

/-! ### Placeholders -/

/-- Puts a character in front of the first piece. -/
def consFirst (c : Char) : List (List Char) → List (List Char)
  | [] => [[c]]
  | piece :: rest => (c :: piece) :: rest

/-- The pieces of a text between its placeholders, one more than there are placeholders. -/
def splitPlaceholders : List Char → List (List Char)
  | [] => [[]]
  | '\\' :: '?' :: rest => consFirst '?' (splitPlaceholders rest)
  | '?' :: rest => [] :: splitPlaceholders rest
  | c :: rest => consFirst c (splitPlaceholders rest)

def placeholderCount (text : String) : Nat := (splitPlaceholders text.toList).length - 1

/-- The pieces of a fragment text. -/
def fragmentParts (text : String) : List String := (splitPlaceholders text.toList).map String.ofList

theorem consFirst_ne_nil (c : Char) (pieces : List (List Char)) : consFirst c pieces ≠ [] := by
  cases pieces <;> simp [consFirst]

theorem splitPlaceholders_ne_nil (text : List Char) : splitPlaceholders text ≠ [] := by
  fun_cases splitPlaceholders text <;> simp [consFirst_ne_nil]

/-! ### Arguments -/

/-- The value of a literal or a parameter. -/
def Expr.value? : Expr → Option Value
  | .literal v => some v
  | .param p => some p.value
  | _ => none

namespace FragmentArg

/-- What is wrong with an argument, if anything. -/
def fault? : FragmentArg → Option ArgFault
  | mk .parameter _ => none
  | mk .identifier e => match e.value? with
    | none => some .identifierWithoutValue
    | some (.string s) => if s.isEmpty then some .identifierNotName else none
    | some _ => some .identifierNotName
  | mk .constant e => match e.value? with
    | none => some .constantWithoutValue
    | some (.string _) | some (.integer _) | some (.float _) | some (.decimal _) => none
    | some _ => some .constantNotScalar
  | mk .splice e => match e.value? with
    | none => some .spliceWithoutValue
    | some (.list []) => some .spliceEmpty
    | some (.list _) => none
    | some _ => some .spliceNotList

/--
An argument as it stands in a processed fragment: an inline one as a literal, a spliced list as a
parameter that has no index yet and keeps the type written on it.
-/
def inlined : FragmentArg → FragmentArg
  | mk .parameter e => mk .parameter e
  | mk .identifier e => mk .identifier (match e.value? with | some v => .literal v | none => e)
  | mk .constant e => mk .constant (match e.value? with | some v => .literal v | none => e)
  | mk .splice (.param p) => mk .splice (.param ⟨p.value, none, p.type, true⟩)
  | mk .splice (.literal v) => mk .splice (.param ⟨v, none, none, true⟩)
  | mk .splice e => mk .splice e

end FragmentArg

/-- The fault of an argument is seen from its value. -/
theorem fault?_of_value? {role : ArgRole} {e e' : Expr} (h : e'.value? = e.value?) :
    (FragmentArg.mk role e').fault? = (FragmentArg.mk role e).fault? := by
  cases role <;> simp only [FragmentArg.fault?, h]

/-- An argument that is not an ordinary expression is a value, unless it is faulty. -/
theorem value?_of_fault? {role : ArgRole} {e : Expr} (hrole : role ≠ .parameter)
    (hfault : (FragmentArg.mk role e).fault? = none) : ∃ v, e.value? = some v := by
  cases hvalue : e.value? with
  | some v => exact ⟨v, rfl⟩
  | none => cases role <;> simp_all [FragmentArg.fault?]

theorem inlined_of_value? {role : ArgRole} {e : Expr} {v : Value} (hrole : role.isInline = true)
    (h : e.value? = some v) : (FragmentArg.mk role e).inlined = .mk role (.literal v) := by
  cases role with
  | identifier | constant => simp [FragmentArg.inlined, h]
  | parameter | splice => cases hrole

/-- The first faulty argument of a list, counted from `index`. -/
def firstFault (index : Nat) : List FragmentArg → Option (Nat × ArgFault)
  | [] => none
  | arg :: rest => match arg.fault? with
    | some fault => some (index, fault)
    | none => firstFault (index + 1) rest

/-- A change of the arguments that keeps their faults keeps the first of them. -/
theorem firstFault_map {f : FragmentArg → FragmentArg} (h : ∀ arg, (f arg).fault? = arg.fault?)
    (index : Nat) (args : List FragmentArg) :
    firstFault index (args.map f) = firstFault index args := by
  induction args generalizing index with
  | nil => rfl
  | cons arg rest ih => rw [List.map_cons, firstFault, firstFault, h, ih]

/-! ### Processing -/

/-- A fragment by itself. -/
structure Fragment where
  text : String
  parts : List String
  args : List FragmentArg

namespace Fragment

def expr (f : Fragment) : Expr := .fragment f.text f.parts f.args

/--
Splits the text of a fragment and prepares its arguments. There must be as many arguments as
placeholders, and then no argument may be faulty.
-/
def process (f : Fragment) : Except CompileError Fragment :=
  let parts := fragmentParts f.text
  if parts.length - 1 ≠ f.args.length then
    .error (.fragmentArity f.text (parts.length - 1) f.args.length)
  else match firstFault 0 f.args with
    | some (index, fault) => .error (.fragmentArgument f.text index fault)
    | none => .ok ⟨f.text, parts, f.args.map FragmentArg.inlined⟩

end Fragment

end QueryCompiler
