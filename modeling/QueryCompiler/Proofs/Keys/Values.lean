import QueryCompiler.Proofs.Keys.Text

/-!
# Texts of literals

The structural text of a value is closed by the parenthesis that it opens, or it is the text of the
null value. What follows it is therefore determined, whatever the value is.
-/

namespace QueryCompiler

/-! ### Numbers -/

/-- A character that is neither a quote nor a parenthesis. -/
def Plain (c : Char) : Prop := c ≠ '"' ∧ c ≠ '(' ∧ c ≠ ')'

instance : DecidablePred Plain := fun c =>
  inferInstanceAs (Decidable (c ≠ '"' ∧ c ≠ '(' ∧ c ≠ ')'))

theorem forall_plain {cs : List Char} (h : cs.all (fun c => decide (Plain c)) = true) :
    ∀ c ∈ cs, Plain c := by
  simpa using h

theorem plain_of_isDigit {c : Char} (h : c.isDigit = true) : Plain c := by
  refine ⟨?_, ?_, ?_⟩
  all_goals
    rintro rfl
    cases h

theorem plain_natText (n : Nat) : ∀ c ∈ Nat.toDigits 10 n, Plain c :=
  fun _ hc => plain_of_isDigit (isDigit_of_mem_natText hc)

theorem plain_int (i : Int) : ∀ c ∈ (toString i).toList, Plain c := by
  rw [Int.toString_eq_repr, Int.repr_eq_if]
  split
  · rw [Nat.toList_repr]
    exact plain_natText _
  · rw [String.toList_append, Nat.toList_repr, List.forall_mem_append]
    exact ⟨forall_plain (by decide), plain_natText _⟩

theorem plain_decimalText (d : Decimal) : ∀ c ∈ (Binary64.decimalText d).toList, Plain c := by
  have hdigits := plain_natText d.digits
  have hzeros (n : Nat) : ∀ c ∈ List.replicate n '0', Plain c := by
    intro c hc
    rw [(List.mem_replicate.1 hc).2]
    decide
  rw [Binary64.decimalText]
  split
  · split
    · simp only [String.toList_append, String.toList_ofList, List.forall_mem_append]
      exact ⟨forall_plain (by decide), hzeros _, hdigits⟩
    · dsimp only
      split
      · simp only [String.toList_append, String.toList_ofList, List.forall_mem_append]
        exact ⟨⟨hdigits, hzeros _⟩, forall_plain (by decide)⟩
      · simp only [String.toList_append, String.toList_ofList, List.forall_mem_append]
        exact ⟨⟨fun c hc => hdigits c (List.mem_of_mem_take hc), forall_plain (by decide)⟩,
          fun c hc => hdigits c (List.mem_of_mem_drop hc)⟩
  · simp only [String.toList_append, List.forall_mem_append]
    refine ⟨⟨?_, forall_plain (by decide)⟩, plain_int _⟩
    split
    · rename_i c heq
      rw [String.toList_ofList, ← heq]
      exact hdigits
    · rename_i c cs heq
      rw [heq, List.forall_mem_cons] at hdigits
      rw [String.toList_ofList, List.forall_mem_cons, List.forall_mem_cons]
      exact ⟨hdigits.1, by decide, hdigits.2⟩
    · simp

theorem plain_float (x : Binary64) : ∀ c ∈ x.text.toList, Plain c := by
  cases x with
  | nan => simp [Binary64.text, Plain]
  | infinite negative => cases negative <;> simp [Binary64.text, Plain]
  | finite negative exponent fraction =>
    have hmagnitude : ∀ c ∈ (if exponent.val = 0 ∧ fraction.val = 0 then "0.0" else
        Binary64.decimalText (Binary64.shortestDecimal exponent fraction)).toList, Plain c := by
      split
      · simp [Plain]
      · exact plain_decimalText _
    rw [Binary64.text]
    split
    · rw [String.toList_append, List.forall_mem_append]
      exact ⟨forall_plain (by decide), hmagnitude⟩
    · exact hmagnitude

/-! ### Values -/

theorem balanced_comma : Balanced ", ".toList := .plain (forall_plain (by decide))

/-- Balanced texts with commas between them and brackets of any kind around them are balanced. -/
theorem balanced_items (c d : Char) (hends : Plain c ∧ Plain d) {texts : List (List Char)}
    (h : ∀ text ∈ texts, Balanced text) :
    Balanced (c :: ((", ".toList).intercalate texts ++ [d])) :=
  (Balanced.plain (List.forall_mem_singleton.2 hends.1)).append
    ((balanced_comma.intercalate h).append (.plain (List.forall_mem_singleton.2 hends.2)))

theorem balanced_byteTexts (bytes : List UInt8) :
    ∀ text ∈ bytes.map (fun b => (toString b.toNat).toList), Balanced text := by
  intro text hmem
  obtain ⟨b, -, rfl⟩ := List.mem_map.1 hmem
  refine .plain ?_
  rw [Nat.toString_eq_repr, Nat.toList_repr]
  exact plain_natText b.toNat

/--
Whether a text has no parentheses and starts with a capital letter other than that of the text of
null.
-/
def isValueWord (word : List Char) : Bool :=
  word.all (fun c => decide (Plain c)) && word.head?.any fun c => c.isUpper && c != 'N'

/-- A word with a balanced text in parentheses behind it. -/
def Worded (cs : List Char) : Prop :=
  ∃ word body, cs = word ++ '(' :: (body ++ [')']) ∧ isValueWord word = true ∧ Balanced body

theorem Worded.balanced {cs : List Char} (h : Worded cs) : Balanced cs := by
  obtain ⟨word, body, rfl, hword, hbody⟩ := h
  rw [isValueWord, Bool.and_eq_true] at hword
  exact (Balanced.plain (forall_plain hword.1)).append hbody.parens

mutual

theorem Value.worded_shape (v : Value) : v = .null ∨ Worded v.shape := by
  match v with
  | .null => exact .inl rfl
  | .bool b =>
    refine .inr ⟨"Bool".toList, _, rfl, by decide, .plain ?_⟩
    cases b <;> exact forall_plain (by decide)
  | .integer i => exact .inr ⟨"Integer".toList, _, rfl, by decide, .plain (plain_int _)⟩
  | .float x => exact .inr ⟨"Float".toList, _, rfl, by decide, .plain (plain_float x)⟩
  | .decimal d => exact .inr ⟨"Decimal".toList, _, rfl, by decide, .quoted d⟩
  | .string s => exact .inr ⟨"String".toList, _, rfl, by decide, .quoted s⟩
  | .binary bytes =>
    have hbody := balanced_items '[' ']' (by decide) (balanced_byteTexts bytes)
    refine .inr ⟨"Binary".toList, _, ?_, by decide, hbody⟩
    change "Binary([".toList ++ (", ".toList).intercalate _ ++ "])".toList = _
    simp
  | .date d => exact .inr ⟨"Date".toList, _, rfl, by decide, .plain (plain_int _)⟩
  | .time t => exact .inr ⟨"Time".toList, _, rfl, by decide, .plain (plain_int _)⟩
  | .timestamp t =>
    exact .inr ⟨"Timestamp".toList, _, rfl, by decide, .plain (plain_int _)⟩
  | .list items =>
    have hbody := balanced_items '[' ']' (by decide) (balanced_shapeAll items)
    refine .inr ⟨"List".toList, _, ?_, by decide, hbody⟩
    change "List([".toList ++ (", ".toList).intercalate _ ++ "])".toList = _
    simp
  | .map entries =>
    have hbody := balanced_items '\x7b' '\x7d' (by decide) (balanced_shapeEntries entries)
    refine .inr ⟨"Map".toList, _, ?_, by decide, hbody⟩
    change "Map(\x7b".toList ++ (", ".toList).intercalate _ ++ "\x7d)".toList = _
    simp

theorem Value.balanced_shape (v : Value) : Balanced v.shape := by
  rcases Value.worded_shape v with rfl | hworded
  · exact .plain (forall_plain (by decide))
  · exact hworded.balanced

theorem balanced_shapeAll (vs : List Value) : ∀ text ∈ Value.shapeAll vs, Balanced text := by
  match vs with
  | [] => simp [Value.shapeAll]
  | v :: rest =>
    rw [Value.shapeAll, List.forall_mem_cons]
    exact ⟨Value.balanced_shape v, balanced_shapeAll rest⟩

theorem balanced_shapeEntries (entries : List (String × Value)) :
    ∀ text ∈ Value.shapeEntries entries, Balanced text := by
  match entries with
  | [] => simp [Value.shapeEntries]
  | (k, v) :: rest =>
    rw [Value.shapeEntries, List.forall_mem_cons]
    have hcolon : Balanced ": ".toList := .plain (forall_plain (by decide))
    exact ⟨((Balanced.quoted k).append hcolon).append (Value.balanced_shape v),
      balanced_shapeEntries rest⟩

end

/-! ### What follows a value -/

/-- What follows the text of a value. -/
def afterValue : List Char → List Char
  | 'N' :: rest => rest.drop 3
  | cs => afterClose false 0 (cs.dropWhile (· != '(')).tail

theorem Worded.afterValue {cs : List Char} (h : Worded cs) (r : List Char) :
    afterValue (cs ++ r) = r := by
  obtain ⟨word, body, rfl, hword, hbody⟩ := h
  rw [isValueWord, Bool.and_eq_true] at hword
  obtain ⟨hword, hcapital⟩ := hword
  have hafter : (word ++ '(' :: (body ++ [')']) ++ r).dropWhile (· != '(') =
      '(' :: (body ++ ')' :: r) := by
    rw [List.append_assoc, List.dropWhile_append_of_pos]
    · simp
    · intro c hc
      simpa using (forall_plain hword c hc).2.1
  have hclose : afterClose false 0 (body ++ ')' :: r) = r := hbody 0 _
  rw [QueryCompiler.afterValue]
  · rw [hafter]
    exact hclose
  · intro rest hnull
    cases word with
    | nil => cases hcapital
    | cons c word =>
      injection hnull with hc
      rw [hc] at hcapital
      cases hcapital

theorem Value.afterValue_shape (v : Value) (r : List Char) : afterValue (v.shape ++ r) = r := by
  rcases v.worded_shape with rfl | hworded
  · rfl
  · exact hworded.afterValue r

theorem Value.shape_append_cancel {v w : Value} {r s : List Char}
    (h : v.shape ++ r = w.shape ++ s) : r = s := by
  rw [← v.afterValue_shape r, h, w.afterValue_shape]

/-- The text of a value starts with a capital letter. -/
theorem Value.exists_shape_eq_cons (v : Value) :
    ∃ c cs, v.shape = c :: cs ∧ c.isUpper = true := by
  rcases v.worded_shape with rfl | ⟨word, body, hshape, hword, -⟩
  · exact ⟨'N', "ull".toList, rfl, rfl⟩
  · rw [isValueWord, Bool.and_eq_true] at hword
    obtain ⟨-, hcapital⟩ := hword
    cases word with
    | nil => cases hcapital
    | cons c word =>
      rw [List.head?_cons, Option.any_some, Bool.and_eq_true] at hcapital
      exact ⟨c, _, hshape, hcapital.1⟩

end QueryCompiler
