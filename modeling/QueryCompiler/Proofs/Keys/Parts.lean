import QueryCompiler.Proofs.Keys.Erasure
import QueryCompiler.Proofs.Keys.Names

/-!
# Reading the parts of a shape

The text of a type, a parameter, a reference, a field set or a values table determines what it was
made from and where it ends, provided that the names in it are legible. This is said of two such
texts with anything behind them: if the whole texts agree, so do both halves.
-/

namespace QueryCompiler

/-! ### Texts of items in a row -/

/--
Items in a row end where their list ends, if each of them ends in front of the texts `F` and starts
with one of the texts `S`, which cannot follow the last.
-/
theorem flatMap_append_inj {α : Type} {f : α → List Char} {P : α → Prop}
    {S F : List Char → Prop} (hstarts : ∀ a r, P a → S (f a ++ r))
    (hfollows : ∀ r, S r → F r)
    (hread : ∀ a b r s, P a → P b → F r → F s → f a ++ r = f b ++ s → a = b ∧ r = s)
    {as bs : List α} {r s : List Char} (has : ∀ a ∈ as, P a) (hbs : ∀ b ∈ bs, P b)
    (hr : ¬ S r ∧ F r) (hs : ¬ S s ∧ F s)
    (h : as.flatMap f ++ r = bs.flatMap f ++ s) : as = bs ∧ r = s := by
  have hfollow (cs : List α) (hcs : ∀ c ∈ cs, P c) {t : List Char} (ht : F t) :
      F (cs.flatMap f ++ t) := by
    cases cs with
    | nil => exact ht
    | cons c cs =>
      rw [List.flatMap_cons, List.append_assoc]
      exact hfollows _ (hstarts c _ (hcs c List.mem_cons_self))
  induction as generalizing bs with
  | nil =>
    cases bs with
    | nil => exact ⟨rfl, h⟩
    | cons b bs =>
      rw [List.flatMap_cons, List.append_assoc, List.flatMap_nil, List.nil_append] at h
      rw [h] at hr
      exact absurd (hstarts b _ (hbs b List.mem_cons_self)) hr.1
  | cons a as ih =>
    rw [List.forall_mem_cons] at has
    cases bs with
    | nil =>
      rw [List.flatMap_cons, List.append_assoc, List.flatMap_nil, List.nil_append] at h
      rw [← h] at hs
      exact absurd (hstarts a _ has.1) hs.1
    | cons b bs =>
      rw [List.forall_mem_cons] at hbs
      rw [List.flatMap_cons, List.flatMap_cons, List.append_assoc, List.append_assoc] at h
      obtain ⟨rfl, hrest⟩ := hread a b _ _ has.1 hbs.1 (hfollow as has.2 hr.2)
        (hfollow bs hbs.2 hs.2) h
      obtain ⟨rfl, rfl⟩ := ih has.2 hbs.2 hrest
      exact ⟨rfl, rfl⟩

theorem intercalate_cons {separator text : List Char} {texts : List (List Char)} :
    separator.intercalate (text :: texts) = text ++ texts.flatMap (separator ++ ·) := by
  induction texts generalizing text with
  | nil => simp
  | cons text' texts ih =>
    rw [List.intercalate_cons_cons, ih]
    simp only [List.flatMap_cons, List.append_assoc]

/-- Items with commas between them, of which there is at least one. -/
theorem intercalate_append_inj {α : Type} {f : α → List Char} {P : α → Prop} {ends : Char → Prop}
    (hread : ∀ a b r s, P a → P b → Opens (fun c => c = ',' ∨ ends c) r →
      Opens (fun c => c = ',' ∨ ends c) s → f a ++ r = f b ++ s → a = b ∧ r = s)
    (hcomma : ¬ ends ',') {a b : α} {as bs : List α} {r s : List Char} (has : ∀ x ∈ a :: as, P x)
    (hbs : ∀ x ∈ b :: bs, P x) (hr : Opens ends r) (hs : Opens ends s)
    (h : [','].intercalate ((a :: as).map f) ++ r = [','].intercalate ((b :: bs).map f) ++ s) :
    a :: as = b :: bs ∧ r = s := by
  have hends {t : List Char} (ht : Opens ends t) :
      ¬ t.head? = some ',' ∧ Opens (fun c => c = ',' ∨ ends c) t := by
    cases t with
    | nil => exact ⟨nofun, trivial⟩
    | cons c t =>
      refine ⟨?_, .inr ht⟩
      intro hhead
      cases hhead
      exact hcomma ht
  have hfollow (xs : List α) {t : List Char} (ht : Opens ends t) :
      Opens (fun c => c = ',' ∨ ends c) (xs.flatMap (fun x => ',' :: f x) ++ t) := by
    cases xs with
    | nil => exact (hends ht).2
    | cons x xs => exact .inl rfl
  rw [List.forall_mem_cons] at has hbs
  simp only [List.map_cons, intercalate_cons, List.flatMap_map, List.append_assoc,
    List.singleton_append] at h
  obtain ⟨rfl, hrest⟩ := hread a b _ _ has.1 hbs.1 (hfollow as hr) (hfollow bs hs) h
  have hcommas (t : List Char) (ht : t.head? = some ',') :
      Opens (fun c => c = ',' ∨ ends c) t := by
    cases t with
    | nil => cases ht
    | cons c t => exact .inl (Option.some.inj ht)
  have hread' (x y : α) (t u : List Char) (hx : P x) (hy : P y)
      (ht : Opens (fun c => c = ',' ∨ ends c) t) (hu : Opens (fun c => c = ',' ∨ ends c) u)
      (htext : ',' :: f x ++ t = ',' :: f y ++ u) : x = y ∧ t = u :=
    hread x y t u hx hy ht hu (List.cons.inj htext).2
  obtain ⟨rfl, rfl⟩ := flatMap_append_inj (fun _ _ _ => rfl) hcommas hread' has.2 hbs.2 (hends hr)
    (hends hs) hrest
  exact ⟨rfl, rfl⟩

/-! ### Ends of expressions -/

/--
Where an expression may end: at a comma, at a closing parenthesis or brace, or at a space that does
not introduce the filter of an aggregate.
-/
def Ends : List Char → Bool
  | [] => true
  | ' ' :: 'f' :: 'i' :: 'l' :: 't' :: 'e' :: 'r' :: ' ' :: _ => false
  | c :: _ => [' ', ',', ')', '\x7d'].contains c

theorem opens_of_ends {r : List Char} (h : Ends r = true) :
    Opens (· ∈ [' ', ',', ')', '\x7d']) r := by
  rw [Ends.eq_def] at h
  split at h
  · trivial
  · cases h
  · exact List.contains_iff_mem.1 h

theorem head_ne_of_ends {r : List Char} (h : Ends r = true) {c : Char}
    (hc : c ∉ [' ', ',', ')', '\x7d'] := by decide) : r.head? ≠ some c := by
  intro hhead
  have hopens := opens_of_ends h
  cases r with
  | nil => cases hhead
  | cons d r =>
    cases hhead
    exact hc hopens

/-- Numbers end where expressions may end. -/
theorem opens_not_digit {r : List Char} (h : Ends r = true) :
    Opens (fun c => c.isDigit = false) r :=
  opens_mono (by simp) (opens_of_ends h)

/-! ### Types -/

theorem DataType.name_inj {t u : DataType} (h : t.name = u.name) : t = u := by
  have hfound := DataType.ofName?_name t
  rw [h, DataType.ofName?_name] at hfound
  exact (Option.some.inj hfound).symm

/-- What the name of a type cannot contain: the beginning of another type, or its own end. -/
def typeStops : List Char := ['(', ' ', ',', ')', '\x7b', '\x7d']

theorem DataType.avoids_name (t : DataType) : avoids t.name typeStops = true := by
  cases t <;> decide

/-- The text of a type in two parts: the name in front, and all that follows it. -/
def ResolvedType.nameText : ResolvedType → String
  | builtin t => t.name
  | array _ => ""
  | parameterized d => d.name

def TypeDescriptor.paramText (e : String × String) : List Char :=
  e.1.toList ++ '=' :: e.2.toList

def ResolvedType.detailText : ResolvedType → List Char
  | builtin _ => []
  | array t => ['\x7b', 'a', 'r', 'r', 'a', 'y', ','] ++ t.name.toList ++ ['\x7d']
  | parameterized d =>
    '(' :: ([','].intercalate (d.params.entries.map TypeDescriptor.paramText) ++ [')'])

theorem ResolvedType.toList_text (t : ResolvedType) :
    t.text.toList = t.nameText.toList ++ t.detailText := by
  cases t with
  | builtin t => simp [text, nameText, detailText]
  | array t => simp [text, nameText, detailText]
  | parameterized d =>
    have hparams : TypeDescriptor.paramText = fun e => e.1.toList ++ '=' :: e.2.toList := rfl
    simp [text, nameText, detailText, String.toList_intercalate, hparams, Function.comp_def]

theorem ResolvedType.avoids_nameText {t : ResolvedType} (h : t.legible = true) :
    avoids t.nameText typeStops = true := by
  cases t with
  | builtin t => exact t.avoids_name
  | array t => rfl
  | parameterized d =>
    rw [legible, TypeDescriptor.legible, Bool.and_eq_true] at h
    exact h.1

/-- The parameters of a descriptor end at its closing parenthesis. -/
theorem TypeDescriptor.params_append_inj {es fs : List (String × String)}
    (hes : ∀ e ∈ es, avoids e.1 ['=', ')'] = true ∧ avoids e.2 [',', ')'] = true)
    (hfs : ∀ f ∈ fs, avoids f.1 ['=', ')'] = true ∧ avoids f.2 [',', ')'] = true) {r s : List Char}
    (h : [','].intercalate (es.map paramText) ++ ')' :: r =
      [','].intercalate (fs.map paramText) ++ ')' :: s) : es = fs ∧ r = s := by
  have hread (e f : String × String) (t u : List Char)
      (he : avoids e.1 ['=', ')'] = true ∧ avoids e.2 [',', ')'] = true)
      (hf : avoids f.1 ['=', ')'] = true ∧ avoids f.2 [',', ')'] = true)
      (ht : Opens (fun c => c = ',' ∨ c = ')') t) (hu : Opens (fun c => c = ',' ∨ c = ')') u)
      (htext : paramText e ++ t = paramText f ++ u) : e = f ∧ t = u := by
    rw [paramText, paramText, List.append_assoc, List.append_assoc] at htext
    obtain ⟨hkey, hrest⟩ := name_append_inj he.1 hf.1 (opens_cons.2 (by decide))
      (opens_cons.2 (by decide)) htext
    obtain ⟨hvalue, htail⟩ := name_append_inj he.2 hf.2 (opens_mono (by simp) ht)
      (opens_mono (by simp) hu) (List.cons.inj hrest).2
    exact ⟨Prod.ext hkey hvalue, htail⟩
  have hnonempty (e : String × String) (he : avoids e.1 ['=', ')'] = true) (t u : List Char) :
      ')' :: t ≠ paramText e ++ u := by
    intro htext
    have hkey : avoids "" ['=', ')'] = true := rfl
    rw [paramText, List.append_assoc] at htext
    obtain ⟨-, hrest⟩ := name_append_inj (r := ')' :: t) hkey he (opens_cons.2 (by decide))
      (opens_cons.2 (by decide)) htext
    cases hrest
  have hsplit (e : String × String) (es : List (String × String)) (t : List Char) :
      ∃ u, [','].intercalate ((e :: es).map paramText) ++ t = paramText e ++ u := by
    rw [List.map_cons, intercalate_cons, List.append_assoc]
    exact ⟨_, rfl⟩
  cases es with
  | nil =>
    cases fs with
    | nil => exact ⟨rfl, (List.cons.inj h).2⟩
    | cons f fs =>
      obtain ⟨u, hu⟩ := hsplit f fs (')' :: s)
      exact absurd (h.trans hu) (hnonempty f (hfs f List.mem_cons_self).1 r u)
  | cons e es =>
    cases fs with
    | nil =>
      obtain ⟨u, hu⟩ := hsplit e es (')' :: r)
      exact absurd (h.symm.trans hu) (hnonempty e (hes e List.mem_cons_self).1 s u)
    | cons f fs =>
      obtain ⟨heq, hrest⟩ := intercalate_append_inj hread (by decide) hes hfs
        (opens_cons.2 rfl) (opens_cons.2 rfl) h
      exact ⟨heq, (List.cons.inj hrest).2⟩

/-- The text of a type ends where an expression may end. -/
theorem ResolvedType.text_append_inj {t u : ResolvedType} (ht : t.legible = true)
    (hu : u.legible = true) {r s : List Char} (hr : Opens (· ∈ [' ', ',', ')', '\x7d']) r)
    (hs : Opens (· ∈ [' ', ',', ')', '\x7d']) s) (h : t.text.toList ++ r = u.text.toList ++ s) :
    t = u ∧ r = s := by
  have hopens {v : ResolvedType} {w : List Char} (hw : Opens (· ∈ [' ', ',', ')', '\x7d']) w) :
      Opens (· ∈ typeStops) (v.detailText ++ w) := by
    cases v with
    | builtin _ => exact opens_mono (by simp [typeStops]) hw
    | array _ | parameterized _ => exact opens_cons.2 (by decide)
  rw [t.toList_text, u.toList_text, List.append_assoc, List.append_assoc] at h
  obtain ⟨hname, hdetail⟩ :=
    name_append_inj (avoids_nameText ht) (avoids_nameText hu) (hopens hr) (hopens hs) h
  -- The names agree, and what follows them starts differently for different kinds of types.
  cases t with
  | builtin t =>
    cases u with
    | builtin u => exact ⟨congrArg builtin (DataType.name_inj hname), hdetail⟩
    | array _ | parameterized _ =>
      obtain rfl : r = _ := hdetail
      exact absurd (opens_cons.1 hr) (by decide)
  | array t =>
    cases u with
    | builtin _ =>
      obtain rfl : _ = s := hdetail
      exact absurd (opens_cons.1 hs) (by decide)
    | array u =>
      rw [detailText, detailText, List.append_assoc, List.append_assoc, List.append_assoc,
        List.append_assoc] at hdetail
      obtain ⟨hname, hrest⟩ := name_append_inj
        (by cases t <;> decide : avoids t.name ['\x7d'] = true) (by cases u <;> decide)
        (opens_cons.2 (by decide)) (opens_cons.2 (by decide)) (List.append_cancel_left hdetail)
      exact ⟨congrArg array (DataType.name_inj hname), (List.cons.inj hrest).2⟩
    | parameterized _ => cases hdetail
  | parameterized d =>
    cases u with
    | builtin _ =>
      obtain rfl : _ = s := hdetail
      exact absurd (opens_cons.1 hs) (by decide)
    | array _ => cases hdetail
    | parameterized e =>
      simp only [legible, TypeDescriptor.legible, Bool.and_eq_true, List.all_eq_true] at ht hu
      rw [detailText, detailText, List.cons_append, List.cons_append, List.append_assoc,
        List.append_assoc] at hdetail
      obtain ⟨hparams, hrest⟩ :=
        TypeDescriptor.params_append_inj ht.2 hu.2 (List.cons.inj hdetail).2
      obtain ⟨name, params⟩ := d
      obtain ⟨name', params'⟩ := e
      obtain rfl : name = name' := hname
      obtain rfl := SortedMap.ext hparams
      exact ⟨rfl, hrest⟩

/-! ### Parameters -/

def indexText : Option Nat → List Char
  | some i => natText i
  | none => []

def spliceText (splice : Bool) (width : Nat) : List Char :=
  if splice then '*' :: natText width else []

def typeText : Option ResolvedType → List Char
  | some t => ':' :: t.text.toList
  | none => []

theorem Param.shape_append (p : Param) (r : List Char) :
    p.shape ++ r = '?' :: (indexText p.index ++
      (spliceText p.splice p.value.spliceWidth ++ (typeText p.type ++ r))) := by
  rw [shape, List.cons_append, List.append_assoc, List.append_assoc]
  rfl

theorem indexText_append_inj {i j : Option Nat} {r s : List Char}
    (hr : Opens (fun c => c.isDigit = false) r) (hs : Opens (fun c => c.isDigit = false) s)
    (h : indexText i ++ r = indexText j ++ s) : i = j ∧ r = s := by
  have hdigits (i : Option Nat) : ∀ c ∈ indexText i, ¬ c.isDigit = false := by
    intro c hc
    cases i with
    | none => cases hc
    | some i =>
      rw [isDigit_of_mem_natText hc]
      decide
  obtain ⟨htext, hrest⟩ := append_inj_of_opens (hdigits i) (hdigits j) hr hs h
  refine ⟨?_, hrest⟩
  cases i with
  | none =>
    cases j with
    | none => rfl
    | some j => exact absurd htext.symm (natText_ne_nil j)
  | some i =>
    cases j with
    | none => exact absurd htext (natText_ne_nil i)
    | some j => exact congrArg some (natText_append_inj hr hs h).1

theorem typeText_append_inj {t u : Option ResolvedType} (ht : t.all ResolvedType.legible = true)
    (hu : u.all ResolvedType.legible = true) {r s : List Char} (hr : Ends r = true)
    (hs : Ends s = true) (h : typeText t ++ r = typeText u ++ s) : t = u ∧ r = s := by
  cases t with
  | none =>
    cases u with
    | none => exact ⟨rfl, h⟩
    | some u => exact absurd (congrArg List.head? h) (head_ne_of_ends hr)
  | some t =>
    cases u with
    | none => exact absurd (congrArg List.head? h).symm (head_ne_of_ends hs)
    | some u =>
      obtain ⟨rfl, hrest⟩ := ResolvedType.text_append_inj ht hu (opens_of_ends hr)
        (opens_of_ends hs) (List.cons.inj h).2
      exact ⟨rfl, hrest⟩

/-- The text of a parameter determines it up to its value. -/
theorem Param.shape_append_inj {p q : Param} (hp : p.type.all ResolvedType.legible = true)
    (hq : q.type.all ResolvedType.legible = true) {r s : List Char} (hr : Ends r = true)
    (hs : Ends s = true) (h : p.shape ++ r = q.shape ++ s) : p.erase = q.erase ∧ r = s := by
  obtain ⟨value, index, type, splice⟩ := p
  obtain ⟨value', index', type', splice'⟩ := q
  -- Neither the type nor what follows it starts with a star or goes on a number.
  have hstar (t : Option ResolvedType) {w : List Char} (hw : Ends w = true) :
      (typeText t ++ w).head? ≠ some '*' := by
    cases t with
    | none => exact head_ne_of_ends hw
    | some t => exact nofun
  have hdigit (t : Option ResolvedType) {w : List Char} (hw : Ends w = true) :
      Opens (fun c => c.isDigit = false) (typeText t ++ w) := by
    cases t with
    | none => exact opens_not_digit hw
    | some t => exact opens_cons.2 rfl
  have hsplice (splice : Bool) (width : Nat) {w : List Char}
      (hw : Opens (fun c => c.isDigit = false) w) :
      Opens (fun c => c.isDigit = false) (spliceText splice width ++ w) := by
    cases splice with
    | false => exact hw
    | true => exact opens_cons.2 rfl
  rw [shape_append, shape_append] at h
  obtain ⟨rfl, hsuffix⟩ := indexText_append_inj (hsplice _ _ (hdigit type hr))
    (hsplice _ _ (hdigit type' hs)) (List.cons.inj h).2
  cases splice with
  | false =>
    cases splice' with
    | false =>
      obtain ⟨rfl, hrest⟩ := typeText_append_inj hp hq hr hs hsuffix
      exact ⟨rfl, hrest⟩
    | true => exact absurd (congrArg List.head? hsuffix) (hstar type hr)
  | true =>
    cases splice' with
    | false => exact absurd (congrArg List.head? hsuffix).symm (hstar type' hs)
    | true =>
      obtain ⟨hwidth, htype⟩ := natText_append_inj (hdigit type hr) (hdigit type' hs)
        (List.cons.inj hsuffix).2
      obtain ⟨rfl, hrest⟩ := typeText_append_inj hp hq hr hs htype
      refine ⟨?_, hrest⟩
      simp only [erase, hwidth]

/-! ### References -/

/-- A name in parentheses behind a word. -/
theorem parenthesized_append_inj {word : List Char} {name name' : String}
    (hname : avoids name [')'] = true) (hname' : avoids name' [')'] = true) {r s : List Char}
    (h : word ++ name.toList ++ [')'] ++ r = word ++ name'.toList ++ [')'] ++ s) :
    name = name' ∧ r = s := by
  simp only [List.append_assoc] at h
  obtain ⟨rfl, hrest⟩ := name_append_inj hname hname' (opens_cons.2 (by decide))
    (opens_cons.2 (by decide)) (List.append_cancel_left h)
  exact ⟨rfl, (List.cons.inj hrest).2⟩

theorem SourceRef.shape_append_inj {ref ref' : SourceRef} (href : ref.legible = true)
    (href' : ref'.legible = true) {r s : List Char} (hr : Opens (fun c => c.isDigit = false) r)
    (hs : Opens (fun c => c.isDigit = false) s) (h : ref.shape ++ r = ref'.shape ++ s) :
    ref = ref' ∧ r = s := by
  cases ref with
  | position i =>
    cases ref' with
    | position j =>
      obtain ⟨rfl, hrest⟩ := natText_append_inj hr hs (List.cons.inj h).2
      exact ⟨rfl, hrest⟩
    | binding _ | parentBinding _ => cases (List.cons.inj h).1
  | binding name =>
    cases ref' with
    | position _ | parentBinding _ => cases (List.cons.inj h).1
    | binding name' =>
      obtain ⟨rfl, hrest⟩ := parenthesized_append_inj href href' h
      exact ⟨rfl, hrest⟩
  | parentBinding name =>
    cases ref' with
    | position _ | binding _ => cases (List.cons.inj h).1
    | parentBinding name' =>
      obtain ⟨rfl, hrest⟩ := parenthesized_append_inj href href' h
      exact ⟨rfl, hrest⟩

theorem FieldName.shape_append_inj {name name' : FieldName} (hname : name.legible = true)
    (hname' : name'.legible = true) {r s : List Char} (hr : Ends r = true) (hs : Ends s = true)
    (h : name.shape ++ r = name'.shape ++ s) : name = name' ∧ r = s := by
  -- A quote behind the dot belongs to a raw name, as no other name starts with one.
  have hquote {name : String} {r s : List Char} (hname : (schema name).legible = true)
      (hr : Ends r = true) : name.toList ++ r ≠ '"' :: s := by
    rw [legible, Bool.and_eq_true, bne_iff_ne] at hname
    intro htext
    cases hlist : name.toList with
    | nil =>
      rw [hlist, List.nil_append] at htext
      exact absurd (congrArg List.head? htext) (head_ne_of_ends hr)
    | cons c cs =>
      rw [hlist, List.cons_append] at htext
      rw [hlist, (List.cons.inj htext).1] at hname
      exact hname.2 rfl
  cases name with
  | schema name =>
    cases name' with
    | schema name' =>
      rw [legible, Bool.and_eq_true] at hname hname'
      obtain ⟨rfl, hrest⟩ := name_append_inj hname.1 hname'.1 (opens_of_ends hr)
        (opens_of_ends hs) (List.cons.inj h).2
      exact ⟨rfl, hrest⟩
    | raw name' => exact absurd (List.cons.inj h).2 (hquote hname hr)
  | raw name =>
    cases name' with
    | schema name' => exact absurd (List.cons.inj h).2.symm (hquote hname' hs)
    | raw name' =>
      simp only [shape, List.append_assoc] at h
      obtain ⟨rfl, hrest⟩ := name_append_inj hname hname' (opens_cons.2 (by decide))
        (opens_cons.2 (by decide)) (List.append_cancel_left h)
      exact ⟨rfl, (List.cons.inj hrest).2⟩

/-! ### Field sets -/

/-- Field names with commas between them end at a space or a closing bracket. -/
theorem fields_append_inj {fields fields' : List String}
    (hfields : ∀ f ∈ fields, avoids f [',', ' ', ']'] = true) (hne : fields ≠ [""])
    (hfields' : ∀ f ∈ fields', avoids f [',', ' ', ']'] = true) (hne' : fields' ≠ [""])
    {r s : List Char} (hr : Opens (· ∈ [' ', ']']) r) (hs : Opens (· ∈ [' ', ']']) s)
    (h : [','].intercalate (fields.map String.toList) ++ r =
      [','].intercalate (fields'.map String.toList) ++ s) : fields = fields' ∧ r = s := by
  have hread (f g : String) (t u : List Char) (hf : avoids f [',', ' ', ']'] = true)
      (hg : avoids g [',', ' ', ']'] = true) (ht : Opens (fun c => c = ',' ∨ c ∈ [' ', ']']) t)
      (hu : Opens (fun c => c = ',' ∨ c ∈ [' ', ']']) u) (htext : f.toList ++ t = g.toList ++ u) :
      f = g ∧ t = u :=
    name_append_inj hf hg (opens_mono (by simp) ht) (opens_mono (by simp) hu) htext
  -- No field has the empty text, and neither has one field with a name.
  have hempty {f : String} {fs : List String} {t u : List Char}
      (hf : avoids f [',', ' ', ']'] = true) (hne : f :: fs ≠ [""]) (ht : Opens (· ∈ [' ', ']']) t)
      (hu : Opens (· ∈ [' ', ']']) u) :
      t ≠ [','].intercalate ((f :: fs).map String.toList) ++ u := by
    intro htext
    rw [List.map_cons, intercalate_cons, List.append_assoc] at htext
    cases fs with
    | nil =>
      obtain ⟨rfl, -⟩ := hread "" f t _ rfl hf (opens_mono (fun _ => .inr) ht)
        (opens_mono (fun _ => .inr) hu) htext
      exact hne rfl
    | cons g gs =>
      obtain ⟨-, rfl⟩ := hread "" f t _ rfl hf (opens_mono (fun _ => .inr) ht)
        (opens_cons.2 (.inl rfl)) htext
      exact absurd (opens_cons.1 ht) (by decide)
  cases fields with
  | nil =>
    cases fields' with
    | nil => exact ⟨rfl, h⟩
    | cons f fs => exact absurd h (hempty (hfields' f List.mem_cons_self) hne' hr hs)
  | cons f fs =>
    cases fields' with
    | nil => exact absurd h.symm (hempty (hfields f List.mem_cons_self) hne hs hr)
    | cons g gs => exact intercalate_append_inj hread (by decide) hfields hfields' hr hs h

theorem ProjectionKind.label_append_inj {kind kind' : ProjectionKind} {r s : List Char}
    (h : kind.label.toList ++ r = kind'.label.toList ++ s) : kind = kind' ∧ r = s := by
  cases kind <;> cases kind'
  · exact ⟨rfl, List.append_cancel_left h⟩
  · cases (List.cons.inj h).1
  · cases (List.cons.inj h).1
  · exact ⟨rfl, List.append_cancel_left h⟩

mutual

theorem FieldSet.shape_append_inj {set set' : FieldSet} (hset : set.legible = true)
    (hset' : set'.legible = true) {r s : List Char} (h : set.shape ++ r = set'.shape ++ s) :
    set = set' ∧ r = s := by
  match set, set' with
  | .mk fields nested, .mk fields' nested' =>
    simp only [FieldSet.legible, Bool.and_eq_true, List.all_eq_true, bne_iff_ne] at hset hset'
    obtain ⟨⟨hfields, hne⟩, hnested⟩ := hset
    obtain ⟨⟨hfields', hne'⟩, hnested'⟩ := hset'
    have hopens (nested : List NestedSelect) (t : List Char) :
        Opens (· ∈ [' ', ']']) (nestedShape nested ++ ']' :: t) := by
      match nested with
      | [] => exact opens_cons.2 (by decide)
      | .mk _ _ _ :: _ => exact opens_cons.2 (by decide)
    simp only [FieldSet.shape, List.cons_append, List.append_assoc, List.nil_append] at h
    obtain ⟨rfl, hrest⟩ := fields_append_inj hfields hne hfields' hne' (hopens nested r)
      (hopens nested' s) (List.cons.inj h).2
    obtain ⟨rfl, hr⟩ := nestedShape_append_inj hnested hnested' hrest
    exact ⟨rfl, hr⟩

theorem nestedShape_append_inj {nested nested' : List NestedSelect}
    (hnested : legibleNested nested = true) (hnested' : legibleNested nested' = true)
    {r s : List Char} (h : nestedShape nested ++ ']' :: r = nestedShape nested' ++ ']' :: s) :
    nested = nested' ∧ r = s := by
  match nested, nested' with
  | [], [] => exact ⟨rfl, (List.cons.inj h).2⟩
  | [], .mk _ _ _ :: _ | .mk _ _ _ :: _, [] => cases h
  | .mk association kind set :: rest, .mk association' kind' set' :: rest' =>
    simp only [legibleNested, Bool.and_eq_true] at hnested hnested'
    obtain ⟨⟨hname, hset⟩, hrest⟩ := hnested
    obtain ⟨⟨hname', hset'⟩, hrest'⟩ := hnested'
    simp only [nestedShape, List.cons_append, List.append_assoc] at h
    obtain ⟨rfl, hkind⟩ := name_append_inj hname hname' (opens_cons.2 (by decide))
      (opens_cons.2 (by decide)) (List.cons.inj h).2
    obtain ⟨rfl, hset₂⟩ := ProjectionKind.label_append_inj (List.cons.inj hkind).2
    obtain ⟨rfl, hrest₂⟩ := FieldSet.shape_append_inj hset hset' hset₂
    obtain ⟨rfl, hr⟩ := nestedShape_append_inj hrest hrest' hrest₂
    exact ⟨rfl, hr⟩

end

theorem Projection.shape_append_inj {kind : ProjectionKind} {p q : Projection}
    (hp : p.source.legible = true ∧ p.set.legible = true)
    (hq : q.source.legible = true ∧ q.set.legible = true) {r s : List Char}
    (h : p.shape kind ++ r = q.shape kind ++ s) :
    (p.source = q.source ∧ p.set = q.set) ∧ r = s := by
  simp only [shape, List.append_assoc, List.cons_append, List.append_cancel_left_eq] at h
  obtain ⟨hsource, hrest⟩ := SourceRef.shape_append_inj hp.1 hq.1 (opens_cons.2 rfl)
    (opens_cons.2 rfl) (List.cons.inj h).2
  obtain ⟨hset, hrest⟩ := FieldSet.shape_append_inj hp.2 hq.2 (List.cons.inj hrest).2
  exact ⟨⟨hsource, hset⟩, (List.cons.inj hrest).2⟩

/-! ### Values tables -/

def columnText (e : String × ResolvedType) : List Char :=
  e.1.toList ++ ':' :: (e.2.text.toList ++ [' '])

theorem ValuesTable.shape_append (table : ValuesTable) (r : List Char) :
    table.shape ++ r = "values[".toList ++ (natText table.rows.length ++
      ']' :: '(' :: (table.resolved.entries.flatMap columnText ++ ')' :: r)) := by
  have hbrackets : "](".toList = [']', '('] := rfl
  have hcolumns : columnText = fun e => e.1.toList ++ ':' :: (e.2.text.toList ++ [' ']) := rfl
  delta shape
  rw [hbrackets, hcolumns]
  simp only [List.append_assoc, List.cons_append, List.nil_append]

/-- The text of a values table determines how many rows it has and its columns with their types. -/
theorem ValuesTable.shape_append_inj {table table' : ValuesTable} (htable : table.legible = true)
    (htable' : table'.legible = true) {r s : List Char} (h : table.shape ++ r = table'.shape ++ s) :
    (table.rows.length = table'.rows.length ∧ table.resolved = table'.resolved) ∧ r = s := by
  simp only [legible, List.all_eq_true, Bool.and_eq_true] at htable htable'
  have hcolumns (e f : String × ResolvedType) (t u : List Char)
      (he : avoids e.1 [':', ')'] = true ∧ e.2.legible = true)
      (hf : avoids f.1 [':', ')'] = true ∧ f.2.legible = true)
      (htext : columnText e ++ t = columnText f ++ u) : e = f ∧ t = u := by
    simp only [columnText, List.append_assoc, List.cons_append] at htext
    obtain ⟨hname, hrest⟩ := name_append_inj he.1 hf.1 (opens_cons.2 (by decide))
      (opens_cons.2 (by decide)) htext
    obtain ⟨htype, hrest⟩ := ResolvedType.text_append_inj he.2 hf.2 (opens_cons.2 (by decide))
      (opens_cons.2 (by decide)) (List.cons.inj hrest).2
    exact ⟨Prod.ext hname htype, (List.cons.inj hrest).2⟩
  have hstarts (e : String × ResolvedType) (t : List Char)
      (he : avoids e.1 [':', ')'] = true ∧ e.2.legible = true) :
      (columnText e ++ t).head? ≠ some ')' := by
    intro hhead
    cases hname : e.1.toList with
    | nil =>
      rw [columnText, hname] at hhead
      cases hhead
    | cons c cs =>
      rw [columnText, hname] at hhead
      cases hhead
      exact avoids_iff.1 he.1 ')' (hname ▸ List.mem_cons_self) (by decide)
  rw [shape_append, shape_append, List.append_cancel_left_eq] at h
  obtain ⟨hlength, hrest⟩ := natText_append_inj (opens_cons.2 rfl) (opens_cons.2 rfl) h
  obtain ⟨hentries, hrest⟩ := flatMap_append_inj (S := (List.head? · ≠ some ')'))
    (F := fun _ => True) hstarts
    (fun _ _ => trivial) (fun e f t u he hf _ _ => hcolumns e f t u he hf) htable htable'
    ⟨fun hhead => hhead rfl, trivial⟩ ⟨fun hhead => hhead rfl, trivial⟩
    (List.cons.inj (List.cons.inj hrest).2).2
  exact ⟨⟨hlength, SortedMap.ext hentries⟩, (List.cons.inj hrest).2⟩

end QueryCompiler
