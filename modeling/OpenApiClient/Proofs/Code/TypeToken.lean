import OpenApiClient.Proofs.Code.Comment
import OpenApiClient.Proofs.Code.Numeral
import OpenApiClient.Proofs.Gives
import OpenApiClient.Proofs.Names.Identifiers

/-!
# The tokens of type expressions

The text of a type is read as words and marks; white space and comments are skipped. A word is a
name, a quoted string with its escapes resolved, or a numeral, and a keyword is a name like all
others. Names and numerals go on as far as they can, so a text that ends in one is read as its
tokens only in front of something else (`LexesBefore`), any other text in front of everything
(`Lexes`).
-/

namespace OpenApiClient

namespace Json

theorem gives_failHex {α : Type} (P : α → Prop) (rest : List Char) :
    Gives P (failHex rest) := by
  unfold failHex
  dsimp only
  split_ifs <;> exact Gives.error

theorem gives_failPair {α : Type} (P : α → Prop) (rest : List Char) :
    Gives P (failPair rest) := by
  unfold failPair
  split
  · exact Gives.error
  · exact Gives.error
  · exact gives_failHex P _
  · exact Gives.error
  · exact Gives.error

/-- The rest behind a string is shorter than the text from after its opening quote. -/
theorem gives_stringBody (cs : List Char) :
    Gives (fun r => r.2.length < cs.length) (stringBody cs) := by
  fun_induction stringBody cs with
  | case1 => exact Gives.error
  | case2 => exact Gives.ok (by simp)
  | case3 => exact gives_failHex _ _
  | case4 => exact Gives.error
  | case5 => exact gives_failHex _ _
  | case6 _ _ _ _ _ _ _ _ _ _ _ _ _ _ _ _ ih =>
    exact ih.bind fun r hr => Gives.ok (Nat.lt_trans hr (by simp only [List.length_cons]; omega))
  | case7 => exact Gives.error
  | case8 => exact gives_failPair _ _
  | case9 _ _ _ _ _ _ _ _ _ ih =>
    exact ih.bind fun r hr => Gives.ok (Nat.lt_trans hr (by simp only [List.length_cons]; omega))
  | case10 => exact gives_failHex _ _
  | case11 => exact Gives.error
  | case12 => exact Gives.error
  | case13 _ _ _ _ _ _ ih =>
    exact ih.bind fun r hr => Gives.ok (Nat.lt_trans hr (by simp only [List.length_cons]; omega))
  | case14 => exact Gives.error
  | case15 _ _ _ _ _ _ _ _ ih =>
    exact ih.bind fun r hr => Gives.ok (Nat.lt_trans hr (by simp))

end Json

namespace Code

/-! ## Tokens -/

/-- A word of a type expression. -/
inductive Atom where
  | name (text : String)
  /-- A quoted string, with its value. -/
  | string (value : String)
  | number (text : String)
  deriving DecidableEq, Repr

inductive Token where
  | atom (a : Atom)
  | mark (c : Char)
  deriving DecidableEq, Repr

def marks : List Char :=
  ['(', ')', '[', ']', '\x7b', '\x7d', '<', '>', '|', ':', ';', ',', '?']

def afterComment? : List Char → Option (List Char)
  | [] => none
  | '*' :: '/' :: rest => some rest
  | _ :: rest => afterComment? rest

/-- What follows a comment of one of the two kinds, from after its first slash. -/
def afterSlash? : List Char → Option (List Char)
  | '*' :: rest => afterComment? rest
  | '/' :: rest => some (rest.dropWhile (· != '\n'))
  | _ => none

/-- The first token of a text, none if white space or a comment comes first, and the rest. -/
def lexeme? (c : Char) (rest : List Char) : Option (Option Token × List Char) :=
  if Json.isSpace c then some (none, rest)
  else if c ∈ marks then some (some (.mark c), rest)
  else if c = '/' then (afterSlash? rest).map (none, ·)
  else if c = '"' then
    match Json.stringBody rest with
    | .ok (value, after) => some (some (.atom (.string (String.ofList value))), after)
    | .error _ => none
  else if isIdentifierStart c then
    some (some (.atom (.name (String.ofList (c :: rest.takeWhile isIdentifierPart)))),
      rest.dropWhile isIdentifierPart)
  else
    let numeral := c :: rest.takeWhile isNumeralPart
    if isNumeral numeral then
      some (some (.atom (.number (String.ofList numeral))), rest.dropWhile isNumeralPart)
    else none

theorem length_afterComment? {cs rest : List Char} (h : afterComment? cs = some rest) :
    rest.length ≤ cs.length := by
  fun_induction afterComment? cs with
  | case1 => simp at h
  | case2 after =>
    rw [Option.some.injEq] at h
    subst h
    simp only [List.length_cons]
    omega
  | case3 c after _ ih =>
    have hle := ih h
    simp only [List.length_cons]
    omega

theorem length_dropWhile_le (p : Char → Bool) (cs : List Char) :
    (cs.dropWhile p).length ≤ cs.length :=
  (List.dropWhile_sublist p).length_le

theorem length_afterSlash? {cs rest : List Char} (h : afterSlash? cs = some rest) :
    rest.length ≤ cs.length := by
  unfold afterSlash? at h
  split at h
  · have hle := length_afterComment? h
    simp only [List.length_cons]
    omega
  · next after =>
    rw [Option.some.injEq] at h
    subst h
    have hle := length_dropWhile_le (· != '\n') after
    simp only [List.length_cons]
    omega
  · simp at h

/-- The rest behind a lexeme is shorter than the text. -/
theorem length_lexeme? {c : Char} {rest after : List Char} {token : Option Token}
    (h : lexeme? c rest = some (token, after)) : after.length ≤ rest.length := by
  unfold lexeme? at h
  dsimp only at h
  split_ifs at h with _ _ _ _ _ hnumeral
  · cases h
    exact Nat.le_refl _
  · cases h
    exact Nat.le_refl _
  · obtain ⟨after', hafter, hpair⟩ := Option.map_eq_some_iff.mp h
    cases hpair
    exact length_afterSlash? hafter
  · split at h
    · next value after' hbody =>
      cases h
      exact Nat.le_of_lt (Json.gives_stringBody rest _ hbody)
    · simp at h
  · cases h
    exact length_dropWhile_le _ _
  · cases h
    exact length_dropWhile_le _ _

def tokens? (cs : List Char) : Option (List Token) :=
  match cs with
  | [] => some []
  | c :: rest =>
    match h : lexeme? c rest with
    | none => none
    | some (token, after) =>
      have : after.length ≤ rest.length := length_lexeme? h
      (tokens? after).map (token.toList ++ ·)
termination_by cs.length

theorem tokens?_nil : tokens? [] = some [] := by
  rw [tokens?]

theorem tokens?_cons {c : Char} {rest after : List Char} {token : Option Token}
    (h : lexeme? c rest = some (token, after)) :
    tokens? (c :: rest) = (tokens? after).map (token.toList ++ ·) := by
  rw [tokens?]
  split
  next hnone => simp [h] at hnone
  next token' after' hsome =>
    rw [h, Option.some.injEq, Prod.mk.injEq] at hsome
    rw [hsome.1, hsome.2]

/-! ## Texts in front of others -/

/-- A text is read as tokens in front of everything. -/
def Lexes (text : List Char) (ts : List Token) : Prop :=
  ∀ rest, tokens? (text ++ rest) = (tokens? rest).map (ts ++ ·)

/-- Whether neither a name nor a numeral can go on with a character. -/
def isDelimiter (c : Char) : Bool :=
  !isIdentifierPart c && !isNumeralPart c

/-- A text is read as tokens in front of everything that does not go on with its last word. -/
def LexesBefore (text : List Char) (ts : List Token) : Prop :=
  ∀ rest : List Char, (∀ c ∈ rest.head?, isDelimiter c = true) →
    tokens? (text ++ rest) = (tokens? rest).map (ts ++ ·)

section Lexes

variable {a b : List Char} {s t : List Token} {c : Char}

theorem Lexes.nil : Lexes [] [] := by
  intro rest
  simp

theorem Lexes.append (ha : Lexes a s) (hb : Lexes b t) : Lexes (a ++ b) (s ++ t) := by
  intro rest
  rw [List.append_assoc, ha, hb, Option.map_map]
  simp only [Function.comp_def, List.append_assoc]

theorem Lexes.before (h : Lexes a s) : LexesBefore a s :=
  fun rest _ => h rest

theorem Lexes.append_before (ha : Lexes a s) (hb : LexesBefore b t) :
    LexesBefore (a ++ b) (s ++ t) := by
  intro rest hrest
  rw [List.append_assoc, ha, hb rest hrest, Option.map_map]
  simp only [Function.comp_def, List.append_assoc]

/-- A delimiter ends the last word in front of it. -/
theorem LexesBefore.append (ha : LexesBefore a s) (hc : isDelimiter c = true)
    (hb : Lexes (c :: b) t) : Lexes (a ++ c :: b) (s ++ t) := by
  intro rest
  have hdelimiter : ∀ d ∈ (c :: b ++ rest).head?, isDelimiter d = true := by
    rintro d ⟨⟩
    exact hc
  rw [List.append_assoc, ha _ hdelimiter, hb, Option.map_map]
  simp only [Function.comp_def, List.append_assoc]

theorem LexesBefore.append_before (ha : LexesBefore a s) (hc : isDelimiter c = true)
    (hb : LexesBefore (c :: b) t) : LexesBefore (a ++ c :: b) (s ++ t) := by
  intro rest hrest
  have hdelimiter : ∀ d ∈ (c :: b ++ rest).head?, isDelimiter d = true := by
    rintro d ⟨⟩
    exact hc
  rw [List.append_assoc, ha _ hdelimiter, hb rest hrest, Option.map_map]
  simp only [Function.comp_def, List.append_assoc]

/-- A whole text is read as its tokens. -/
theorem LexesBefore.tokens? (h : LexesBefore a s) : tokens? a = some s := by
  have hread := h [] (by simp)
  simpa [tokens?_nil] using hread

/-! ## White space, marks and comments -/

theorem lexes_space (hc : Json.isSpace c = true) : Lexes [c] [] := by
  intro rest
  have hlexeme : lexeme? c rest = some (none, rest) := by rw [lexeme?, if_pos hc]
  exact tokens?_cons hlexeme

theorem lexes_spaces (h : ∀ c ∈ a, Json.isSpace c = true) : Lexes a [] := by
  induction a with
  | nil => exact .nil
  | cons c a ih =>
    have hrest := ih fun d hd => h d (List.mem_cons_of_mem _ hd)
    exact (lexes_space (h c List.mem_cons_self)).append hrest

theorem lexes_mark (hc : c ∈ marks) : Lexes [c] [.mark c] := by
  intro rest
  have hspaces : marks.all (fun d => !Json.isSpace d) = true := by decide
  have hspace : ¬Json.isSpace c = true := by
    simpa using List.all_eq_true.mp hspaces c hc
  have hlexeme : lexeme? c rest = some (some (.mark c), rest) := by
    rw [lexeme?, if_neg hspace, if_pos hc]
  exact tokens?_cons hlexeme

/-- A comment goes on up to the first text that closes it. -/
theorem afterComment?_append {body : List Char} (h : closings body = 0) (rest : List Char) :
    afterComment? (body ++ '*' :: '/' :: rest) = some rest := by
  induction body with
  | nil => rfl
  | cons d body ih =>
    -- a star in front of the closing is followed by another star, and so closes nothing itself
    have hopen : ∀ after, d = '*' → body ++ '*' :: '/' :: rest = '/' :: after → False := by
      rintro after rfl heq
      cases body with
      | nil => simp at heq
      | cons e body =>
        rw [List.cons_append, List.cons.injEq] at heq
        rw [heq.1, closings] at h
        omega
    have hbody : closings body = 0 := by
      rw [closings] at h
      · exact h
      · rintro after rfl rfl
        exact hopen (after ++ '*' :: '/' :: rest) rfl rfl
    rw [List.cons_append, afterComment?, ih hbody]
    exact hopen

theorem lexes_docLine (text : List Char) : Lexes (docLine text) [] := by
  intro rest
  have hclosings : closings ("* ".toList ++ guardComment text ++ [' ']) = 0 := by
    rw [List.append_assoc, closings_append_of_getLast? (by decide),
      closings_append fun _ => by decide, closings_guardComment]
    rfl
  have hafter := afterComment?_append hclosings rest
  have hlexeme : lexeme? '/' ('*' :: ("* ".toList ++ guardComment text ++ [' '] ++
      '*' :: '/' :: rest)) = some (none, rest) := by
    rw [lexeme?, if_neg (by decide), if_neg (by decide), if_pos rfl, afterSlash?, hafter]
    rfl
  have htext : docLine text ++ rest = '/' :: '*' :: ("* ".toList ++ guardComment text ++ [' '] ++
      '*' :: '/' :: rest) := by
    simp [docLine]
  rw [htext]
  exact tokens?_cons hlexeme

/-! ## Words -/

theorem lexes_quote (s : String) : Lexes (Json.quote s).toList [.atom (.string s)] := by
  intro rest
  have hbody := Json.stringBody_flatMap_escapeChar rest s.toList
  have hlexeme : lexeme? '"' (s.toList.flatMap Json.escapeChar ++ '"' :: rest) =
      some (some (.atom (.string s)), rest) := by
    rw [lexeme?, if_neg (by decide), if_neg (by decide), if_neg (by decide), if_pos rfl, hbody]
    simp
  have htext : (Json.quote s).toList ++ rest =
      '"' :: (s.toList.flatMap Json.escapeChar ++ '"' :: rest) := by
    simp [toList_quote]
  rw [htext]
  exact tokens?_cons hlexeme

/-- A character that begins a name or a numeral begins nothing else. -/
theorem word_first (h : isIdentifierStart c = true ∨ c = '-' ∨ c.isDigit = true) :
    ¬Json.isSpace c = true ∧ c ∉ marks ∧ c ≠ '/' ∧ c ≠ '"' := by
  have hothers : (' ' :: '\n' :: '\t' :: '\r' :: '/' :: '"' :: marks).all
      (fun d => !(isIdentifierStart d || d == '-' || d.isDigit)) = true := by
    decide
  have hnone : ∀ d ∈ ' ' :: '\n' :: '\t' :: '\r' :: '/' :: '"' :: marks,
      ¬(isIdentifierStart d = true ∨ d = '-' ∨ d.isDigit = true) := by
    intro d hd
    simpa [not_or, and_assoc] using List.all_eq_true.mp hothers d hd
  refine ⟨?_, ?_, ?_, ?_⟩
  · intro hspace
    simp only [Json.isSpace, Bool.or_eq_true, beq_iff_eq] at hspace
    rcases hspace with ((rfl | rfl) | rfl) | rfl
    · exact hnone _ (by decide) h
    · exact hnone _ (by decide) h
    · exact hnone _ (by decide) h
    · exact hnone _ (by decide) h
  · intro hmark
    exact hnone c (by simp [hmark]) h
  · rintro rfl
    exact hnone _ (by decide) h
  · rintro rfl
    exact hnone _ (by decide) h

theorem lexesBefore_name {name : String} (h : isIdentifier name = true) :
    LexesBefore name.toList [.atom (.name name)] := by
  intro rest hrest
  unfold isIdentifier at h
  split at h
  · simp at h
  · next c cs hname =>
    obtain ⟨hstart, hparts⟩ := Bool.and_eq_true_iff.mp h
    obtain ⟨hspace, hmark, hslash, hquote⟩ := word_first (Or.inl hstart)
    have hstop : ∀ d ∈ rest.head?, isIdentifierPart d = false := by
      intro d hd
      have hdelimiter := hrest d hd
      simp only [isDelimiter, Bool.and_eq_true, Bool.not_eq_true'] at hdelimiter
      exact hdelimiter.1
    obtain ⟨htake, hdrop⟩ := Text.span_append (List.all_eq_true.mp hparts) hstop
    have hlexeme : lexeme? c (cs ++ rest) = some (some (.atom (.name name)), rest) := by
      rw [lexeme?, if_neg hspace, if_neg hmark, if_neg hslash, if_neg hquote, if_pos hstart, htake,
        hdrop, ← hname, String.ofList_toList]
    rw [hname, List.cons_append]
    exact tokens?_cons hlexeme

theorem not_isIdentifierStart_of_isDigit (h : c.isDigit = true) : ¬isIdentifierStart c = true := by
  have halphanum : c.isAlphanum = true := by rw [Char.isAlphanum, h, Bool.or_true]
  exact Text.forall_isAlphanum (p := fun d => d.isDigit = true → ¬isIdentifierStart d = true)
    (by decide +kernel) halphanum h

theorem lexesBefore_numeral {text : String} (h : isNumeral text.toList = true) :
    LexesBefore text.toList [.atom (.number text)] := by
  intro rest hrest
  obtain ⟨c, cs, htext, hfirst, hparts⟩ := exists_of_isNumeral h
  obtain ⟨hspace, hmark, hslash, hquote⟩ := word_first (Or.inr hfirst)
  have hstart : ¬isIdentifierStart c = true := by
    rcases hfirst with rfl | hdigit
    · decide
    · exact not_isIdentifierStart_of_isDigit hdigit
  have hstop : ∀ d ∈ rest.head?, isNumeralPart d = false := by
    intro d hd
    have hdelimiter := hrest d hd
    simp only [isDelimiter, Bool.and_eq_true, Bool.not_eq_true'] at hdelimiter
    exact hdelimiter.2
  obtain ⟨htake, hdrop⟩ := Text.span_append hparts hstop
  have hlexeme : lexeme? c (cs ++ rest) = some (some (.atom (.number text)), rest) := by
    rw [lexeme?, if_neg hspace, if_neg hmark, if_neg hslash, if_neg hquote, if_neg hstart, htake,
      hdrop, ← htext]
    dsimp only
    rw [if_pos h, String.ofList_toList]
  rw [htext, List.cons_append]
  exact tokens?_cons hlexeme

end Lexes

end Code

end OpenApiClient
