import QueryCompiler.Compilation.Shape

/-!
# Texts that end where they say

A text that avoids some characters ends where one of them follows, so that it can be told from the
text after it. Numbers end at the first character that is no digit, and quoted texts and the texts
of values end at their closing quote or parenthesis, whatever they contain.
-/

namespace QueryCompiler

/-- A text that is empty or starts with a character of some kind. -/
def Opens (P : Char → Prop) : List Char → Prop
  | [] => True
  | c :: _ => P c

theorem opens_cons {P : Char → Prop} {c : Char} {r : List Char} : Opens P (c :: r) ↔ P c := Iff.rfl

theorem opens_mono {P Q : Char → Prop} (hPQ : ∀ c, P c → Q c) {r : List Char} (h : Opens P r) :
    Opens Q r := by
  cases r with
  | nil => trivial
  | cons c r => exact hPQ c h

/-- Two texts that avoid what follows them are equal if they are so with what follows. -/
theorem append_inj_of_opens {P : Char → Prop} {a b r s : List Char} (ha : ∀ c ∈ a, ¬ P c)
    (hb : ∀ c ∈ b, ¬ P c) (hr : Opens P r) (hs : Opens P s) (h : a ++ r = b ++ s) :
    a = b ∧ r = s := by
  induction a generalizing b with
  | nil =>
    cases b with
    | nil => exact ⟨rfl, h⟩
    | cons d b =>
      rw [List.nil_append] at h
      rw [h] at hr
      exact absurd hr (hb d List.mem_cons_self)
  | cons c a ih =>
    cases b with
    | nil =>
      rw [List.nil_append] at h
      rw [← h] at hs
      exact absurd hs (ha c List.mem_cons_self)
    | cons d b =>
      rw [List.cons_append, List.cons_append] at h
      injection h with hc h
      obtain ⟨rfl, rfl⟩ := ih (fun c hmem => ha c (List.mem_cons_of_mem _ hmem))
        (fun c hmem => hb c (List.mem_cons_of_mem _ hmem)) h
      exact ⟨by rw [hc], rfl⟩

/-! ### Names -/

/-- A name without any of some characters. -/
def avoids (name : String) (stops : List Char) : Bool := name.toList.all fun c => !stops.contains c

theorem avoids_iff {name : String} {stops : List Char} :
    avoids name stops = true ↔ ∀ c ∈ name.toList, c ∉ stops := by
  simp [avoids]

/-- Names end at the first of the characters that they avoid. -/
theorem name_append_inj {stops : List Char} {name name' : String} {r s : List Char}
    (hname : avoids name stops = true) (hname' : avoids name' stops = true)
    (hr : Opens (· ∈ stops) r) (hs : Opens (· ∈ stops) s)
    (h : name.toList ++ r = name'.toList ++ s) : name = name' ∧ r = s := by
  obtain ⟨hlist, hrest⟩ :=
    append_inj_of_opens (avoids_iff.1 hname) (avoids_iff.1 hname') hr hs h
  exact ⟨String.toList_inj.1 hlist, hrest⟩

/-! ### Numbers -/

theorem isDigit_of_mem_natText {n : Nat} {c : Char} (h : c ∈ natText n) : c.isDigit = true :=
  Nat.isDigit_of_mem_toDigits (by decide) (by decide) h

theorem natText_ne_nil (n : Nat) : natText n ≠ [] := by
  rw [natText, Nat.toDigits_eq_if (by decide)]
  split <;> simp

/-- Numbers end at the first character that is no digit. -/
theorem natText_append_inj {m n : Nat} {r s : List Char}
    (hr : Opens (fun c => c.isDigit = false) r) (hs : Opens (fun c => c.isDigit = false) s)
    (h : natText m ++ r = natText n ++ s) : m = n ∧ r = s := by
  have hdigits (k : Nat) : ∀ c ∈ natText k, ¬ c.isDigit = false := by
    intro c hc
    rw [isDigit_of_mem_natText hc]
    decide
  obtain ⟨hlist, hrest⟩ := append_inj_of_opens (hdigits m) (hdigits n) hr hs h
  have hvalue := congrArg (Nat.ofDigitChars 10 · 0) hlist
  simp only [natText, Nat.ofDigitChars_ten_toDigits] at hvalue
  exact ⟨hvalue, hrest⟩

/-! ### Quoted texts -/

/-- What follows the quote that closes a quoted text. -/
def afterQuote : List Char → List Char
  | '\\' :: _ :: rest => afterQuote rest
  | '"' :: rest => rest
  | _ :: rest => afterQuote rest
  | [] => []

theorem afterQuote_cons {c : Char} (h : c ≠ '"' ∧ c ≠ '\\') (r : List Char) :
    afterQuote (c :: r) = afterQuote r := by
  obtain ⟨hquote, hescape⟩ := h
  cases r with
  | nil => rw [afterQuote] <;> simp_all
  | cons d r => rw [afterQuote] <;> simp_all

/-- Characters that neither close a quoted text nor escape the next one are passed over. -/
theorem afterQuote_append {cs : List Char} (h : ∀ c ∈ cs, c ≠ '"' ∧ c ≠ '\\') (r : List Char) :
    afterQuote (cs ++ r) = afterQuote r := by
  induction cs with
  | nil => rfl
  | cons c cs ih =>
    rw [List.forall_mem_cons] at h
    rw [List.cons_append, afterQuote_cons h.1, ih h.2]

theorem forall_mem_hexDigits {P : Char → Prop} (h : ∀ n < 16, P n.digitChar) (n : Nat) :
    ∀ c ∈ hexDigits n, P c := by
  induction n using Nat.strongRecOn with
  | ind n ih =>
    rw [hexDigits, Nat.toDigits_eq_if (by decide)]
    split
    · rename_i hn
      rw [List.forall_mem_singleton]
      exact h n hn
    · rw [List.forall_mem_append, List.forall_mem_singleton]
      exact ⟨ih (n / 16) (by omega), h (n % 16) (by omega)⟩

theorem hexDigits_plain {n : Nat} : ∀ c ∈ hexDigits n, c ≠ '"' ∧ c ≠ '\\' :=
  forall_mem_hexDigits (by decide) n

theorem afterQuote_escapeChar (c : Char) (r : List Char) :
    afterQuote (escapeChar c ++ r) = afterQuote r := by
  rw [escapeChar]
  split
  · rfl
  split
  · rfl
  split
  · rfl
  split
  · rfl
  split
  · rfl
  split
  · rfl
  rename_i hquote hescape _ _ _ _
  split
  · rw [List.append_assoc, List.append_assoc]
    change afterQuote ('\x7b' :: (hexDigits c.toNat ++ ('\x7d' :: r))) = _
    rw [afterQuote_cons (by decide), afterQuote_append hexDigits_plain, afterQuote_cons (by decide)]
  · exact afterQuote_cons ⟨hquote, hescape⟩ r

/-- Quoted texts end at the quote that closes them. -/
theorem afterQuote_escapeChars (cs r : List Char) :
    afterQuote (escapeChars cs ++ '"' :: r) = r := by
  induction cs with
  | nil => rfl
  | cons c cs ih =>
    rw [escapeChars, List.flatMap_cons, List.append_assoc, afterQuote_escapeChar]
    exact ih

theorem toList_quoted (s : String) :
    (quoted s).toList = '"' :: (escapeChars s.toList ++ ['"']) := by
  simp [quoted]

theorem quoted_append_cancel {s t : String} {r r' : List Char}
    (h : (quoted s).toList ++ r = (quoted t).toList ++ r') : r = r' := by
  have hafter := congrArg (fun text => afterQuote text.tail) h
  simpa only [toList_quoted, List.cons_append, List.tail_cons, List.append_assoc,
    List.nil_append, afterQuote_escapeChars] using hafter

/-! ### Texts of values -/

/--
What follows the parenthesis that closes one more than `depth` open ones. Parentheses in quoted
texts do not count; the flag says whether the text starts inside of one.
-/
def afterClose : Bool → Nat → List Char → List Char
  | true, depth, '\\' :: _ :: rest => afterClose true depth rest
  | true, depth, '"' :: rest => afterClose false depth rest
  | true, depth, _ :: rest => afterClose true depth rest
  | false, depth, '"' :: rest => afterClose true depth rest
  | false, depth, '(' :: rest => afterClose false (depth + 1) rest
  | false, depth + 1, ')' :: rest => afterClose false depth rest
  | false, 0, ')' :: rest => rest
  | false, depth, _ :: rest => afterClose false depth rest
  | _, _, [] => []

theorem afterClose_quoted (depth : Nat) (r : List Char) :
    afterClose true depth r = afterClose false depth (afterQuote r) := by
  fun_induction afterQuote r with
  | case1 c rest ih => simpa only [afterClose] using ih
  | case2 rest => simp only [afterClose]
  | case3 c rest hescape hquote ih => rw [← ih, afterClose] <;> simp_all
  | case4 => rfl

/-- A text whose parentheses and quotes outside of each other are all closed. -/
def Balanced (cs : List Char) : Prop :=
  ∀ depth r, afterClose false depth (cs ++ r) = afterClose false depth r

namespace Balanced

theorem nil : Balanced [] := fun _ _ => rfl

theorem append {cs ds : List Char} (h : Balanced cs) (h' : Balanced ds) : Balanced (cs ++ ds) := by
  intro depth r
  rw [List.append_assoc, h, h']

theorem plain {cs : List Char} (h : ∀ c ∈ cs, c ≠ '"' ∧ c ≠ '(' ∧ c ≠ ')') : Balanced cs := by
  induction cs with
  | nil => exact nil
  | cons c cs ih =>
    intro depth r
    rw [List.forall_mem_cons] at h
    obtain ⟨⟨hquote, hopen, hclose⟩, hrest⟩ := h
    rw [← ih hrest depth r, List.cons_append, afterClose] <;> simp_all

theorem quoted (s : String) : Balanced (quoted s).toList := by
  intro depth r
  rw [toList_quoted, List.cons_append, List.append_assoc]
  change afterClose true depth (escapeChars s.toList ++ '"' :: r) = _
  rw [afterClose_quoted, afterQuote_escapeChars]

theorem parens {cs : List Char} (h : Balanced cs) : Balanced ('(' :: (cs ++ [')'])) := by
  intro depth r
  rw [List.cons_append, List.append_assoc]
  change afterClose false (depth + 1) (cs ++ ([')'] ++ r)) = _
  rw [h]
  rfl

theorem intercalate {separator : List Char} (hseparator : Balanced separator)
    {texts : List (List Char)} (h : ∀ text ∈ texts, Balanced text) :
    Balanced (separator.intercalate texts) := by
  induction texts with
  | nil => exact nil
  | cons text rest ih =>
    rw [List.forall_mem_cons] at h
    cases rest with
    | nil => simpa using h.1
    | cons text' rest =>
      rw [List.intercalate_cons_cons]
      exact (h.1.append hseparator).append (ih h.2)

end Balanced

end QueryCompiler
