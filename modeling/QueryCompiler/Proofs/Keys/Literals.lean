import QueryCompiler.Proofs.Keys.Numbers
import QueryCompiler.Proofs.Keys.Parts
import QueryCompiler.Proofs.Keys.Values

/-!
# Texts of values tell them apart

Different values have different structural texts. Escaping is a code in which no character begins
with another, whole numbers and floats read back, and the texts of the items of a list end where
they say, so that a difference in one of them cannot be made up for by the next.
-/

namespace QueryCompiler

/-! ### Quoted texts -/

def hexDigitValue (c : Char) : Nat := if c.isDigit then c.toNat - 48 else c.toNat - 87

theorem hexDigitValue_digitChar : ∀ n < 16, hexDigitValue n.digitChar = n := by
  decide

/-- The number that lowercase hexadecimal digits write. -/
def hexValue (cs : List Char) : Nat := cs.foldl (fun n c => n * 16 + hexDigitValue c) 0

theorem hexValue_hexDigits (n : Nat) : hexValue (hexDigits n) = n := by
  induction n using Nat.strongRecOn with
  | ind n ih =>
    rw [hexDigits, Nat.toDigits_eq_if (by decide)]
    split
    · rename_i hn
      simp [hexValue, hexDigitValue_digitChar n hn]
    · have hfront := ih (n / 16) (by omega)
      rw [hexDigits, hexValue] at hfront
      rw [hexValue, List.foldl_append, hfront, List.foldl_cons, List.foldl_nil,
        hexDigitValue_digitChar (n % 16) (by omega)]
      omega

/-- The character whose escape a text starts with. -/
def unescaped : List Char → Char
  | '\\' :: '"' :: _ => '"'
  | '\\' :: '0' :: _ => '\x00'
  | '\\' :: 't' :: _ => '\t'
  | '\\' :: 'n' :: _ => '\n'
  | '\\' :: 'r' :: _ => '\r'
  | '\\' :: 'u' :: '\x7b' :: rest => Char.ofNat (hexValue (rest.takeWhile (· != '\x7d')))
  | c :: _ => c
  | [] => '\x00'

theorem unescaped_escapeChar (c : Char) (r : List Char) : unescaped (escapeChar c ++ r) = c := by
  rw [escapeChar]
  split
  · subst c
    rfl
  split
  · subst c
    rfl
  split
  · subst c
    rfl
  split
  · subst c
    rfl
  split
  · subst c
    rfl
  split
  · subst c
    rfl
  rename_i hescape _ _ _ _
  split
  · have htake : (hexDigits c.toNat ++ ['\x7d'] ++ r).takeWhile (· != '\x7d') =
        hexDigits c.toNat := by
      rw [List.append_assoc, List.takeWhile_append_of_pos]
      · simp
      · intro d hd
        simpa using forall_mem_hexDigits (P := (· ≠ '\x7d')) (by decide) c.toNat d hd
    change Char.ofNat (hexValue ((hexDigits c.toNat ++ ['\x7d'] ++ r).takeWhile (· != '\x7d'))) = c
    rw [htake, hexValue_hexDigits, Char.ofNat_toNat]
  · rw [List.singleton_append, unescaped] <;> simp_all

theorem escapeChars_inj {cs ds : List Char} (h : escapeChars cs = escapeChars ds) : cs = ds := by
  have hne (c : Char) : escapeChar c ≠ [] := by
    fun_cases escapeChar c <;> simp
  induction cs generalizing ds with
  | nil =>
    cases ds with
    | nil => rfl
    | cons d ds => exact absurd (List.append_eq_nil_iff.1 h.symm).1 (hne d)
  | cons c cs ih =>
    cases ds with
    | nil => exact absurd (List.append_eq_nil_iff.1 h).1 (hne c)
    | cons d ds =>
      have hfirst := congrArg unescaped h
      rw [escapeChars, escapeChars, List.flatMap_cons, List.flatMap_cons, unescaped_escapeChar,
        unescaped_escapeChar] at hfirst
      subst hfirst
      rw [ih (List.append_cancel_left h)]

theorem quoted_append_inj {s t : String} {r r' : List Char}
    (h : (quoted s).toList ++ r = (quoted t).toList ++ r') : s = t ∧ r = r' := by
  have hrest := quoted_append_cancel h
  subst hrest
  have hquoted := List.append_cancel_right h
  rw [toList_quoted, toList_quoted] at hquoted
  have hescaped := List.append_cancel_right (List.cons.inj hquoted).2
  exact ⟨String.toList_inj.1 (escapeChars_inj hescaped), rfl⟩

/-! ### Numbers -/

theorem intText_inj {i j : Int} (h : (toString i).toList = (toString j).toList) : i = j := by
  have hread := Decimal.readExponent_toString i
  rw [h, Decimal.readExponent_toString] at hread
  exact (Option.some.inj hread).symm

/-! ### Items -/

/-- Items with separators between them are items with a separator in front of each. -/
theorem flatMap_of_intercalate {separator : List Char} {texts texts' : List (List Char)}
    (htexts : [] ∉ texts) (htexts' : [] ∉ texts')
    (h : separator.intercalate texts = separator.intercalate texts') :
    texts.flatMap (separator ++ ·) = texts'.flatMap (separator ++ ·) := by
  cases texts with
  | nil =>
    cases texts' with
    | nil => rfl
    | cons text' texts' =>
      rw [intercalate_cons] at h
      obtain rfl := (List.append_eq_nil_iff.1 h.symm).1
      exact absurd List.mem_cons_self htexts'
  | cons text texts =>
    cases texts' with
    | nil =>
      rw [intercalate_cons] at h
      obtain rfl := (List.append_eq_nil_iff.1 h).1
      exact absurd List.mem_cons_self htexts
    | cons text' texts' =>
      rw [intercalate_cons, intercalate_cons] at h
      rw [List.flatMap_cons, List.flatMap_cons, List.append_assoc, List.append_assoc, h]

theorem byteTexts_inj {bytes bytes' : List UInt8}
    (h : (", ".toList).intercalate (bytes.map fun b => (toString b.toNat).toList) =
      (", ".toList).intercalate (bytes'.map fun b => (toString b.toNat).toList)) :
    bytes = bytes' := by
  have hne (bs : List UInt8) : [] ∉ bs.map fun b => (toString b.toNat).toList := by
    intro hmem
    obtain ⟨b, -, hb⟩ := List.mem_map.1 hmem
    rw [Nat.toString_eq_repr, Nat.toList_repr] at hb
    exact natText_ne_nil b.toNat hb
  have htexts := flatMap_of_intercalate (hne bytes) (hne bytes') h
  rw [List.flatMap_map, List.flatMap_map] at htexts
  have hread (b b' : UInt8) (r s : List Char) (hr : Opens (fun c => c.isDigit = false) r)
      (hs : Opens (fun c => c.isDigit = false) s)
      (hb : ", ".toList ++ (toString b.toNat).toList ++ r =
        ", ".toList ++ (toString b'.toNat).toList ++ s) : b = b' ∧ r = s := by
    rw [List.append_assoc, List.append_assoc, Nat.toString_eq_repr, Nat.toString_eq_repr,
      Nat.toList_repr, Nat.toList_repr] at hb
    obtain ⟨hvalue, hrest⟩ := natText_append_inj hr hs (List.append_cancel_left hb)
    exact ⟨UInt8.toNat_inj.1 hvalue, hrest⟩
  have hcomma (r : List Char) (hr : r.head? = some ',') : Opens (fun c => c.isDigit = false) r := by
    cases r with
    | nil => cases hr
    | cons c r =>
      cases hr
      exact opens_cons.2 rfl
  exact (flatMap_append_inj (P := fun _ => True) (S := (List.head? · = some ','))
    (F := Opens (fun c => c.isDigit = false)) (r := []) (s := []) (fun _ _ _ => rfl) hcomma
    (fun b b' r s _ _ hr hs hb => hread b b' r s hr hs hb) (fun _ _ => trivial)
    (fun _ _ => trivial) ⟨nofun, trivial⟩ ⟨nofun, trivial⟩ (congrArg (· ++ []) htexts)).1

/-! ### Values -/

theorem shapeAll_nonempty (vs : List Value) : [] ∉ Value.shapeAll vs := by
  induction vs with
  | nil => simp [Value.shapeAll]
  | cons v vs ih =>
    obtain ⟨c, cs, hshape, -⟩ := v.exists_shape_eq_cons
    simp [Value.shapeAll, hshape, ih]

theorem shapeEntries_nonempty (entries : List (String × Value)) :
    [] ∉ Value.shapeEntries entries := by
  induction entries with
  | nil => simp [Value.shapeEntries]
  | cons entry entries ih => simp [Value.shapeEntries, ih]

inductive ValueKind where
  | null | bool | integer | float | decimal | string | binary | date | time | timestamp | list | map
  deriving DecidableEq

def Value.kind : Value → ValueKind
  | null => .null
  | bool _ => .bool
  | integer _ => .integer
  | float _ => .float
  | decimal _ => .decimal
  | string _ => .string
  | binary _ => .binary
  | date _ => .date
  | time _ => .time
  | timestamp _ => .timestamp
  | list _ => .list
  | map _ => .map

namespace ValueKind

/-- The word that the text of a value starts with. -/
def word : ValueKind → List Char
  | null => "Null".toList
  | bool => "Bool".toList
  | integer => "Integer".toList
  | float => "Float".toList
  | decimal => "Decimal".toList
  | string => "String".toList
  | binary => "Binary".toList
  | date => "Date".toList
  | time => "Time".toList
  | timestamp => "Timestamp".toList
  | list => "List".toList
  | map => "Map".toList

theorem word_inj {k l : ValueKind} (h : k.word = l.word) : k = l := by
  revert h
  cases k <;> cases l <;> decide

theorem word_plain (k : ValueKind) : k.word.all (· != '(') = true := by
  cases k <;> decide

end ValueKind

theorem Value.shape_eq_word (v : Value) :
    v = .null ∨ ∃ rest, v.shape = v.kind.word ++ '(' :: rest := by
  cases v with
  | null => exact .inl rfl
  | _ => exact .inr ⟨_, rfl⟩

theorem Value.takeWhile_shape (v : Value) : v.shape.takeWhile (· != '(') = v.kind.word := by
  rcases v.shape_eq_word with rfl | ⟨rest, hshape⟩
  · decide
  · rw [hshape, List.takeWhile_append_of_pos (List.all_eq_true.1 v.kind.word_plain)]
    simp

theorem Value.kind_eq_of_shape {v w : Value} (h : v.shape = w.shape) : v.kind = w.kind := by
  have hwords := congrArg (List.takeWhile (· != '(')) h
  rw [v.takeWhile_shape, w.takeWhile_shape] at hwords
  exact ValueKind.word_inj hwords

mutual

theorem Value.shape_inj {v w : Value} (h : v.shape = w.shape) : v = w := by
  have hkind := Value.kind_eq_of_shape h
  match v with
  | .null =>
    cases w with
    | null => rfl
    | _ => cases hkind
  | .bool b =>
    cases w with
    | bool b' => cases b <;> cases b' <;> first | rfl | cases h
    | _ => cases hkind
  | .integer i =>
    cases w with
    | integer i' =>
      have htext := List.append_cancel_left (List.append_cancel_right h)
      rw [Int64.toInt_inj.1 (intText_inj htext)]
    | _ => cases hkind
  | .float x =>
    cases w with
    | float y =>
      have htext := List.append_cancel_left (List.append_cancel_right h)
      rw [Binary64.text_injective (String.toList_inj.1 htext)]
    | _ => cases hkind
  | .decimal d =>
    cases w with
    | decimal d' =>
      have htext := List.append_cancel_left (List.append_cancel_right h)
      rw [(quoted_append_inj (congrArg (· ++ []) htext)).1]
    | _ => cases hkind
  | .string d =>
    cases w with
    | string d' =>
      have htext := List.append_cancel_left (List.append_cancel_right h)
      rw [(quoted_append_inj (congrArg (· ++ []) htext)).1]
    | _ => cases hkind
  | .binary bytes =>
    cases w with
    | binary bytes' =>
      have htext := List.append_cancel_left (List.append_cancel_right h)
      rw [byteTexts_inj htext]
    | _ => cases hkind
  | .date d =>
    cases w with
    | date d' =>
      have htext := List.append_cancel_left (List.append_cancel_right h)
      rw [Int32.toInt_inj.1 (intText_inj htext)]
    | _ => cases hkind
  | .time t =>
    cases w with
    | time t' =>
      have htext := List.append_cancel_left (List.append_cancel_right h)
      rw [Int64.toInt_inj.1 (intText_inj htext)]
    | _ => cases hkind
  | .timestamp t =>
    cases w with
    | timestamp t' =>
      have htext := List.append_cancel_left (List.append_cancel_right h)
      rw [Int64.toInt_inj.1 (intText_inj htext)]
    | _ => cases hkind
  | .list items =>
    cases w with
    | list items' =>
      have htext := List.append_cancel_left (List.append_cancel_right h)
      rw [shapeAll_inj (flatMap_of_intercalate (shapeAll_nonempty items)
        (shapeAll_nonempty items') htext)]
    | _ => cases hkind
  | .map entries =>
    cases w with
    | map entries' =>
      have htext := List.append_cancel_left (List.append_cancel_right h)
      rw [shapeEntries_inj (flatMap_of_intercalate (shapeEntries_nonempty entries)
        (shapeEntries_nonempty entries') htext)]
    | _ => cases hkind
termination_by structural v

theorem shapeAll_inj {vs ws : List Value}
    (h : (Value.shapeAll vs).flatMap (", ".toList ++ ·) =
      (Value.shapeAll ws).flatMap (", ".toList ++ ·)) : vs = ws := by
  match vs, ws with
  | [], [] => rfl
  | [], w :: ws => cases h
  | v :: vs, [] => cases h
  | v :: vs, w :: ws =>
    rw [Value.shapeAll, Value.shapeAll, List.flatMap_cons, List.flatMap_cons, List.append_assoc,
      List.append_assoc, List.append_cancel_left_eq] at h
    have hrest := Value.shape_append_cancel h
    rw [hrest, List.append_cancel_right_eq] at h
    rw [Value.shape_inj h, shapeAll_inj hrest]
termination_by structural vs

theorem shapeEntries_inj {es fs : List (String × Value)}
    (h : (Value.shapeEntries es).flatMap (", ".toList ++ ·) =
      (Value.shapeEntries fs).flatMap (", ".toList ++ ·)) : es = fs := by
  match es, fs with
  | [], [] => rfl
  | [], f :: fs => cases h
  | e :: es, [] => cases h
  | (k, v) :: es, (l, w) :: fs =>
    simp only [Value.shapeEntries, List.flatMap_cons, List.append_assoc,
      List.append_cancel_left_eq] at h
    obtain ⟨hkey, hvalue⟩ := quoted_append_inj h
    rw [List.append_cancel_left_eq] at hvalue
    have hrest := Value.shape_append_cancel hvalue
    rw [hrest, List.append_cancel_right_eq] at hvalue
    rw [hkey, Value.shape_inj hvalue, shapeEntries_inj hrest]
termination_by structural es

end

theorem Value.shape_append_inj {v w : Value} {r s : List Char}
    (h : v.shape ++ r = w.shape ++ s) : v = w ∧ r = s := by
  have hrest := shape_append_cancel h
  rw [hrest, List.append_cancel_right_eq] at h
  exact ⟨Value.shape_inj h, hrest⟩

end QueryCompiler
