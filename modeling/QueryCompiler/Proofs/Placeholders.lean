import QueryCompiler.Query.Fragment

/-!
# Placeholders

Splitting the text of a fragment loses nothing. A piece is written back with a backslash in front of
every `?` of its own, and a placeholder stands between two pieces. Splitting and joining undo each
other on all texts and on all lists of pieces that can be joined, which are the lists that splitting
gives: a piece that ends with a backslash would escape the placeholder after it.
-/

namespace QueryCompiler

/-! ### Joining pieces -/

/-- A piece as it is written in a text. -/
def writtenPiece (piece : List Char) : List Char :=
  piece.flatMap fun c => if c = '?' then ['\\', '?'] else [c]

/-- The text with placeholders between some pieces. -/
def joinPieces (pieces : List (List Char)) : List Char :=
  ['?'].intercalate (pieces.map writtenPiece)

/-- The fragment text with placeholders between some parts. -/
def joinParts (parts : List String) : String :=
  String.ofList (joinPieces (parts.map String.toList))

/-- A `?` after the piece is not escaped by the end of the piece. -/
def LeavesOpen (piece : List Char) : Prop := piece.getLast? ≠ some '\\'

instance : DecidablePred LeavesOpen := fun _ => inferInstanceAs (Decidable (_ ≠ _))

/-- There are pieces, and none of them escapes the placeholder after it. -/
def Joinable (pieces : List (List Char)) : Prop :=
  pieces ≠ [] ∧ ∀ piece ∈ pieces.dropLast, LeavesOpen piece

instance : DecidablePred Joinable := fun _ => inferInstanceAs (Decidable (_ ∧ _))

/-- How many `?` of a text that follows a character have no backslash directly in front of them. -/
def openAfter (before : Option Char) (text : List Char) : Nat :=
  ((before :: text.map some).zip text).countP fun (before, c) => c = '?' ∧ before ≠ some '\\'

/-- How many `?` of a text have no backslash directly in front of them. -/
def openPlaceholders (text : String) : Nat := openAfter none text.toList

/-! ### Steps of splitting -/

theorem splitPlaceholders_placeholder (rest : List Char) :
    splitPlaceholders ('?' :: rest) = [] :: splitPlaceholders rest := rfl

theorem splitPlaceholders_escaped (rest : List Char) :
    splitPlaceholders ('\\' :: '?' :: rest) = consFirst '?' (splitPlaceholders rest) := rfl

/-- A character that is no placeholder and does not escape one belongs to a piece as it stands. -/
theorem splitPlaceholders_plain {c : Char} {rest : List Char} (hc : c ≠ '?')
    (h : c = '\\' → rest.head? ≠ some '?') :
    splitPlaceholders (c :: rest) = consFirst c (splitPlaceholders rest) := by
  rw [splitPlaceholders]
  · rintro rest' rfl rfl
    exact h rfl rfl
  · exact hc

/-- Induction over the steps of splitting. -/
theorem splitPlaceholders_cases {motive : List Char → Prop} (nil : motive [])
    (escaped : ∀ rest, motive rest → motive ('\\' :: '?' :: rest))
    (placeholder : ∀ rest, motive rest → motive ('?' :: rest))
    (plain : ∀ c rest, c ≠ '?' → (c = '\\' → rest.head? ≠ some '?') → motive rest →
      motive (c :: rest)) (text : List Char) : motive text := by
  fun_induction splitPlaceholders text with
  | case1 => exact nil
  | case2 rest ih => exact escaped rest ih
  | case3 rest ih => exact placeholder rest ih
  | case4 c rest hescaped hc ih =>
    refine plain c rest hc ?_ ih
    rintro rfl hhead
    obtain ⟨rest', rfl⟩ := List.head?_eq_some_iff.1 hhead
    exact hescaped rest' rfl rfl

/-! ### Splitting loses nothing -/

theorem joinPieces_cons (piece : List Char) {rest : List (List Char)} (h : rest ≠ []) :
    joinPieces (piece :: rest) = writtenPiece piece ++ '?' :: joinPieces rest := by
  cases rest with
  | nil => exact absurd rfl h
  | cons next rest =>
    simp only [joinPieces, List.map_cons, List.intercalate_cons_cons, List.append_assoc,
      List.singleton_append]

theorem joinPieces_consFirst (c : Char) {pieces : List (List Char)} (h : pieces ≠ []) :
    joinPieces (consFirst c pieces) = writtenPiece [c] ++ joinPieces pieces := by
  cases pieces with
  | nil => exact absurd rfl h
  | cons piece rest =>
    have hcons : writtenPiece (c :: piece) = writtenPiece [c] ++ writtenPiece piece := by
      simp [writtenPiece]
    cases rest with
    | nil => simp [consFirst, joinPieces, hcons]
    | cons next rest =>
      rw [consFirst, joinPieces_cons _ (List.cons_ne_nil next rest),
        joinPieces_cons _ (List.cons_ne_nil next rest), hcons, List.append_assoc]

theorem joinPieces_splitPlaceholders (text : List Char) :
    joinPieces (splitPlaceholders text) = text := by
  induction text using splitPlaceholders_cases with
  | nil => rfl
  | escaped rest ih =>
    rw [splitPlaceholders_escaped, joinPieces_consFirst _ (splitPlaceholders_ne_nil rest), ih]
    rfl
  | placeholder rest ih =>
    rw [splitPlaceholders_placeholder, joinPieces_cons _ (splitPlaceholders_ne_nil rest), ih]
    rfl
  | plain c rest hc hplain ih =>
    rw [splitPlaceholders_plain hc hplain, joinPieces_consFirst _ (splitPlaceholders_ne_nil rest),
      ih]
    simp [writtenPiece, hc]

/-! ### Pieces that can be joined -/

theorem LeavesOpen.cons {c : Char} {piece : List Char} (h : LeavesOpen piece)
    (hc : c = '\\' → piece ≠ []) : LeavesOpen (c :: piece) := by
  intro hlast
  cases piece with
  | nil =>
    rw [List.getLast?_singleton] at hlast
    exact hc (Option.some.inj hlast) rfl
  | cons d piece =>
    rw [List.getLast?_cons_cons] at hlast
    exact h hlast

/-- A first piece that is empty and not the last one comes of a placeholder at the start. -/
theorem head?_of_splitPlaceholders {text : List Char} {next : List Char} {rest : List (List Char)}
    (h : splitPlaceholders text = [] :: next :: rest) : text.head? = some '?' := by
  have hjoin := joinPieces_splitPlaceholders text
  rw [h, joinPieces_cons _ (by simp)] at hjoin
  rw [← hjoin]
  rfl

/-- A character can come in front of pieces unless it escapes the placeholder after the first. -/
theorem leavesOpen_consFirst {c : Char} {pieces : List (List Char)}
    (hc : c = '\\' → ∀ next rest, pieces ≠ [] :: next :: rest)
    (h : ∀ piece ∈ pieces.dropLast, LeavesOpen piece) :
    ∀ piece ∈ (consFirst c pieces).dropLast, LeavesOpen piece := by
  match pieces with
  | [] | [_] => simp [consFirst]
  | first :: next :: rest =>
    rw [consFirst, List.dropLast_cons_cons, List.forall_mem_cons]
    rw [List.dropLast_cons_cons, List.forall_mem_cons] at h
    refine ⟨h.1.cons ?_, h.2⟩
    rintro hescape rfl
    exact hc hescape next rest rfl

theorem joinable_splitPlaceholders (text : List Char) : Joinable (splitPlaceholders text) := by
  refine ⟨splitPlaceholders_ne_nil text, ?_⟩
  induction text using splitPlaceholders_cases with
  | nil => simp [splitPlaceholders]
  | escaped rest ih =>
    rw [splitPlaceholders_escaped]
    exact leavesOpen_consFirst (by simp) ih
  | placeholder rest ih =>
    rw [splitPlaceholders_placeholder,
      List.dropLast_cons_of_ne_nil (splitPlaceholders_ne_nil rest), List.forall_mem_cons]
    exact ⟨by simp [LeavesOpen], ih⟩
  | plain c rest hc hplain ih =>
    rw [splitPlaceholders_plain hc hplain]
    refine leavesOpen_consFirst ?_ ih
    intro hescape next more hsplit
    exact hplain hescape (head?_of_splitPlaceholders hsplit)

/-! ### Splitting what was joined -/

/--
A piece is read back in front of any text, unless it ends with a backslash and the text starts with
a placeholder.
-/
theorem splitPlaceholders_writtenPiece_append (piece rest : List Char)
    (h : LeavesOpen piece ∨ rest.head? ≠ some '?') :
    splitPlaceholders (writtenPiece piece ++ rest) =
      piece.foldr consFirst (splitPlaceholders rest) := by
  induction piece with
  | nil => rfl
  | cons c piece ih =>
    have hpiece : LeavesOpen piece ∨ rest.head? ≠ some '?' := by
      refine h.imp_left fun hopen hlast => hopen ?_
      cases piece with
      | nil => cases hlast
      | cons d piece => rwa [List.getLast?_cons_cons]
    by_cases hc : c = '?'
    · subst hc
      exact congrArg (consFirst '?') (ih hpiece)
    · have hwritten : writtenPiece (c :: piece) = c :: writtenPiece piece := by
        simp [writtenPiece, hc]
      rw [hwritten, List.cons_append, splitPlaceholders_plain hc, ih hpiece]
      · rfl
      · -- what follows the character is a backslash, another character, or the text
        rintro rfl
        cases piece with
        | nil =>
          rcases h with h | h
          · exact absurd rfl h
          · exact h
        | cons d piece =>
          by_cases hd : d = '?' <;> simp [writtenPiece, hd]

theorem foldr_consFirst (piece first : List Char) (rest : List (List Char)) :
    piece.foldr consFirst (first :: rest) = (piece ++ first) :: rest := by
  induction piece with
  | nil => rfl
  | cons c piece ih =>
    rw [List.foldr_cons, ih]
    rfl

theorem splitPlaceholders_joinPieces {pieces : List (List Char)} (h : Joinable pieces) :
    splitPlaceholders (joinPieces pieces) = pieces := by
  obtain ⟨hne, hopen⟩ := h
  induction pieces with
  | nil => exact absurd rfl hne
  | cons piece rest ih =>
    cases rest with
    | nil =>
      have hsplit := splitPlaceholders_writtenPiece_append piece [] (Or.inr (by simp))
      rw [splitPlaceholders, foldr_consFirst, List.append_nil, List.append_nil] at hsplit
      simpa [joinPieces] using hsplit
    | cons next rest =>
      rw [List.dropLast_cons_cons, List.forall_mem_cons] at hopen
      rw [joinPieces_cons piece (List.cons_ne_nil next rest),
        splitPlaceholders_writtenPiece_append piece _ (Or.inl hopen.1),
        splitPlaceholders_placeholder, foldr_consFirst, List.append_nil,
        ih (List.cons_ne_nil next rest) hopen.2]

/-! ### Counting placeholders -/

theorem length_consFirst (c : Char) {pieces : List (List Char)} (h : pieces ≠ []) :
    (consFirst c pieces).length = pieces.length := by
  cases pieces with
  | nil => exact absurd rfl h
  | cons piece rest => rfl

theorem openAfter_cons (before : Option Char) (c : Char) (rest : List Char) :
    openAfter before (c :: rest) =
      openAfter (some c) rest + if c = '?' ∧ before ≠ some '\\' then 1 else 0 := by
  simp [openAfter, List.countP_cons]

theorem length_splitPlaceholders (before : Option Char) {text : List Char}
    (h : before = some '\\' → text.head? ≠ some '?') :
    (splitPlaceholders text).length = openAfter before text + 1 := by
  induction text using splitPlaceholders_cases generalizing before with
  | nil => rfl
  | escaped rest ih =>
    rw [splitPlaceholders_escaped, length_consFirst _ (splitPlaceholders_ne_nil rest),
      ih (some '?') (by simp), openAfter_cons, openAfter_cons]
    simp
  | placeholder rest ih =>
    have hbefore : before ≠ some '\\' := fun heq => h heq rfl
    rw [splitPlaceholders_placeholder, List.length_cons, ih (some '?') (by simp),
      openAfter_cons, if_pos ⟨rfl, hbefore⟩]
  | plain c rest hc hplain ih =>
    rw [splitPlaceholders_plain hc hplain, length_consFirst _ (splitPlaceholders_ne_nil rest),
      ih (some c) (by simpa using hplain), openAfter_cons,
      if_neg (fun hopen => hc hopen.1)]

theorem placeholderCount_eq (text : String) : placeholderCount text = openPlaceholders text := by
  rw [placeholderCount, length_splitPlaceholders none (by simp)]
  rfl

/-! ### Texts and their parts -/

theorem toList_fragmentParts (text : String) :
    (fragmentParts text).map String.toList = splitPlaceholders text.toList := by
  simp [fragmentParts]

theorem joinParts_fragmentParts (text : String) : joinParts (fragmentParts text) = text := by
  rw [joinParts, toList_fragmentParts, joinPieces_splitPlaceholders, String.ofList_toList]

theorem fragmentParts_joinParts {parts : List String} (h : Joinable (parts.map String.toList)) :
    fragmentParts (joinParts parts) = parts := by
  rw [fragmentParts, joinParts, String.toList_ofList, splitPlaceholders_joinPieces h]
  simp

/--
Joining the parts of a text gives the text, and splitting joined parts gives the parts, provided
that they can be joined, as those of a text can. A text has a placeholder for every `?` without a
backslash directly in front of it.
-/
theorem fragmentParts_lossless :
    (∀ text, joinParts (fragmentParts text) = text ∧
      Joinable ((fragmentParts text).map String.toList) ∧
      placeholderCount text = openPlaceholders text) ∧
    ∀ parts : List String, Joinable (parts.map String.toList) →
      fragmentParts (joinParts parts) = parts := by
  refine ⟨fun text => ⟨joinParts_fragmentParts text, ?_, placeholderCount_eq text⟩, ?_⟩
  · rw [toList_fragmentParts]
    exact joinable_splitPlaceholders text.toList
  · intro parts h
    exact fragmentParts_joinParts h

/-- A backslash inside of a part, one in front of a `?` of the part, and one at the very end. -/
theorem fragmentParts_lossless_backslashes :
    Joinable (["a\\b", "\\?", "", "\\"].map String.toList) ∧
      joinParts ["a\\b", "\\?", "", "\\"] = "a\\b?\\\\???\\" ∧
      fragmentParts "a\\b?\\\\???\\" = ["a\\b", "\\?", "", "\\"] := by
  have h : Joinable (["a\\b", "\\?", "", "\\"].map String.toList) := by decide
  have hjoin : joinParts ["a\\b", "\\?", "", "\\"] = "a\\b?\\\\???\\" := by decide
  refine ⟨h, hjoin, ?_⟩
  rw [← hjoin]
  exact fragmentParts_lossless.2 _ h

end QueryCompiler
