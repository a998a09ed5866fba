import OpenApiClient.Proofs.Names.Segmentation

/-!
# Formatting a formatted name

A formatted name that is formatted again is not always cut into the words that it was made of: in
Pascal case the three words of `A_B_c` give `ABC`, which is one word. But all its words except the
first begin with a capital (`flatMap_capitalize_tail_words`), and a word that does not begin with
one has none (`isUpper_eq_false_of_mem_words`). So casing the words once more changes nothing.
Letters and digits are kept up to their case, and snake case keeps the words too
(`formatted_names`).
-/

namespace OpenApiClient

namespace Text

theorem toLower_of_isUpper_eq_false {c : Char} (h : c.isUpper = false) : c.toLower = c :=
  dif_neg (of_decide_eq_false h)

theorem toLower_toUpper {c : Char} (h : c.isAlphanum = true) : c.toUpper.toLower = c.toLower :=
  forall_isAlphanum (p := fun c => c.toUpper.toLower = c.toLower) (by decide +kernel) h

/-- What a capital letter and a letter in lower case are for the other casing. -/
theorem isUpper_casing {c : Char} (h : c.isAlphanum = true) :
    c.toUpper.toUpper = c.toUpper ∧ c.toLower.isUpper = false ∧
      (c.isUpper = true → c.toUpper = c) :=
  forall_isAlphanum (p := fun c => c.toUpper.toUpper = c.toUpper ∧ c.toLower.isUpper = false ∧
    (c.isUpper = true → c.toUpper = c)) (by decide +kernel) h

theorem tail_extendFirst (c : Char) (ws : List (List Char)) :
    (extendFirst c ws).tail = ws.tail := by
  cases ws <;> rfl

/-- A letter or a digit begins the first word. -/
theorem exists_words_cons {c : Char} (hc : c.isAlphanum = true) (rest : List Char) :
    ∃ w ws, words (c :: rest) = (c :: w) :: ws := by
  cases rest with
  | nil => exact ⟨[], [], by simp [words, hc]⟩
  | cons d after =>
    rw [words, if_pos hc]
    split_ifs with hword
    · cases words (d :: after) with
      | nil => exact ⟨[], [], rfl⟩
      | cons w ws => exact ⟨w, ws, rfl⟩
    · exact ⟨[], _, rfl⟩

open NameStyle (capitalize lower)

/-- In a text of letters and digits alone, every word but the first begins with a capital. -/
theorem flatMap_capitalize_tail_words {cs : List Char} (h : ∀ c ∈ cs, c.isAlphanum = true) :
    (words cs).tail.flatMap capitalize = (words cs).tail.flatten := by
  fun_induction words cs with
  | case1 => rfl
  | case2 c hc => rfl
  | case3 c hc d after hword ih =>
    rw [tail_extendFirst]
    exact ih fun x hx => h x (List.mem_cons_of_mem c hx)
  | case4 c hc d after hword ih =>
    have hd : d.isAlphanum = true := h d (by simp)
    have hupper : d.isUpper = true := by
      simp only [hd, Bool.true_and, Bool.not_eq_true', Bool.not_eq_false, isWordEnd,
        Bool.and_eq_true] at hword
      exact hword.1
    have hrest := ih fun x hx => h x (List.mem_cons_of_mem c hx)
    obtain ⟨w, ws, hwords⟩ := exists_words_cons hd after
    rw [hwords] at hrest ⊢
    rw [List.tail_cons] at hrest ⊢
    rw [List.flatMap_cons, List.flatten_cons, hrest, capitalize, (isUpper_casing hd).2.2 hupper]
  | case5 c after hc ih => exact absurd (h c List.mem_cons_self) hc

/-- A word that begins without a capital has none. -/
theorem isUpper_eq_false_of_mem_words {cs w : List Char} (hw : w ∈ words cs)
    (hfirst : ∀ c ∈ w.head?, c.isUpper = false) : ∀ c ∈ w, c.isUpper = false := by
  fun_induction words cs generalizing w with
  | case1 => exact absurd hw List.not_mem_nil
  | case2 c hc =>
    rw [List.mem_singleton.mp hw] at hfirst ⊢
    simpa using hfirst
  | case3 c hc d after hword ih =>
    obtain ⟨hd, hend⟩ := Bool.and_eq_true_iff.mp hword
    obtain ⟨v, vs, hwords⟩ := exists_words_cons hd after
    rw [hwords] at hw ih
    rcases List.mem_cons.mp hw with rfl | hw
    · -- the word goes on from `c` to `d`, which is no capital if `c` is none
      have hc' : c.isUpper = false := hfirst c rfl
      have hd' : d.isUpper = false := by
        rw [Bool.eq_false_iff]
        intro hupper
        have hkind : (c.isUpper || c.isLower || c.isDigit) = true := hc
        rw [hc', Bool.false_or] at hkind
        simp [isWordEnd, hupper, hkind] at hend
      intro x hx
      rcases List.mem_cons.mp hx with rfl | hx
      · exact hc'
      · exact ih List.mem_cons_self (by simpa using hd') x hx
    · exact ih (List.mem_cons_of_mem _ hw) hfirst
  | case4 c hc d after hword ih =>
    rcases List.mem_cons.mp hw with rfl | hw
    · simpa using hfirst
    · exact ih hw hfirst
  | case5 c after hc ih => exact ih hw hfirst

end Text

namespace NameStyle

open Text (words)

/-! ## Formatting twice -/

/-- What is put in front of a name belongs to no word. -/
theorem words_guardStart (cs : List Char) : words (guardStart cs) = words cs := by
  cases cs with
  | nil => rfl
  | cons c rest =>
    rw [guardStart]
    split_ifs
    · exact Text.words_of_separator (by decide) (c :: rest)
    · rfl

/-- The words of a text of letters and digits alone: only the first may be changed by casing. -/
theorem exists_words_eq {c : Char} {rest : List Char}
    (h : ∀ x ∈ c :: rest, x.isAlphanum = true) :
    ∃ w ws, words (c :: rest) = (c :: w) :: ws ∧ w ++ ws.flatten = rest ∧
      ws.flatMap capitalize = ws.flatten := by
  obtain ⟨w, ws, hwords⟩ := Text.exists_words_cons (h c List.mem_cons_self) rest
  have hflatten := Text.flatten_words (c :: rest)
  have htail := Text.flatMap_capitalize_tail_words h
  rw [hwords, List.filter_eq_self.mpr h] at hflatten
  rw [hwords] at htail
  refine ⟨w, ws, hwords, ?_, htail⟩
  rw [List.flatten_cons, List.cons_append, List.cons.injEq] at hflatten
  exact hflatten.2

theorem assemble_pascal_words {cs : List Char} (h : ∀ c ∈ cs, c.isAlphanum = true) :
    pascal.assemble (words cs) = capitalize cs := by
  cases cs with
  | nil => rfl
  | cons c rest =>
    obtain ⟨w, ws, hwords, hrest, htail⟩ := exists_words_eq h
    rw [hwords, assemble, List.flatMap_cons, htail, capitalize, List.cons_append, hrest, capitalize]

theorem assemble_camel_words {cs : List Char} (h : ∀ c ∈ cs, c.isAlphanum = true)
    (hfirst : ∀ c ∈ cs.head?, c.isUpper = false) : camel.assemble (words cs) = cs := by
  cases cs with
  | nil => rfl
  | cons c rest =>
    obtain ⟨w, ws, hwords, hrest, htail⟩ := exists_words_eq h
    have hmem : c :: w ∈ words (c :: rest) := by
      rw [hwords]
      exact List.mem_cons_self
    have hlower : lower (c :: w) = c :: w := by
      have hnone := Text.isUpper_eq_false_of_mem_words hmem hfirst
      have hid : (c :: w).map Char.toLower = (c :: w).map id :=
        List.map_congr_left fun x hx => Text.toLower_of_isUpper_eq_false (hnone x hx)
      rw [lower, hid, List.map_id]
    rw [hwords, assemble, htail, hlower, List.cons_append, hrest]

theorem capitalize_flatMap_capitalize {ws : List (List Char)}
    (h : ∀ w ∈ ws, ∀ c ∈ w, c.isAlphanum = true) :
    capitalize (ws.flatMap capitalize) = ws.flatMap capitalize := by
  induction ws with
  | nil => rfl
  | cons w ws ih =>
    rw [List.forall_mem_cons] at h
    cases w with
    | nil => exact ih h.2
    | cons c rest =>
      rw [List.flatMap_cons, capitalize, List.cons_append, capitalize,
        (Text.isUpper_casing (h.1 c List.mem_cons_self)).1]

theorem lower_lower {w : List Char} (h : ∀ c ∈ w, c.isAlphanum = true) :
    lower (lower w) = lower w := by
  rw [lower, lower, List.map_map]
  apply List.map_congr_left
  intro c hc
  exact Text.toLower_of_isUpper_eq_false (Text.isUpper_casing (h c hc)).2.1

theorem isRun_lower {cs w : List Char} (hw : w ∈ words cs) : Text.IsRun (lower w) := by
  have hletters : ∀ c ∈ w, c.isAlphanum = true := fun c hc => Text.isAlphanum_of_mem_words hw hc
  constructor
  · have hne := Text.ne_nil_of_mem_words hw
    simpa [lower] using hne
  · intro c hc
    obtain ⟨x, hx, rfl⟩ := List.mem_map.mp hc
    have halphanum := hletters x hx
    exact ⟨(Text.isAlphanum_casing halphanum).2, (Text.isUpper_casing halphanum).2.1⟩

/-- Runs that are joined by underscores are the words of what they are joined to. -/
theorem words_join_runs {runs : List (List Char)} (h : ∀ run ∈ runs, Text.IsRun run) :
    words (Text.join ['_'] runs) = runs := by
  induction runs with
  | nil => rfl
  | cons run runs ih =>
    rw [List.forall_mem_cons] at h
    cases runs with
    | nil => exact Text.words_run h.1
    | cons next runs =>
      rw [Text.join, List.append_assoc]
      · have hseparator : '_'.isAlphanum = false := by decide
        have hcut := Text.words_append_separator hseparator (Text.join ['_'] (next :: runs)) run
        rw [ih h.2, Text.words_run h.1] at hcut
        exact hcut
      · simp

/-- In snake case the words of a name are those of the text in lower case. -/
theorem words_assemble_snake (cs : List Char) :
    words (snake.assemble (words cs)) = (words cs).map lower := by
  apply words_join_runs
  intro run hrun
  obtain ⟨w, hw, rfl⟩ := List.mem_map.mp hrun
  exact isRun_lower hw

theorem assemble_words_assemble (style : NameStyle) (cs : List Char) :
    style.assemble (words (style.assemble (words cs))) = style.assemble (words cs) := by
  have hletters : ∀ w ∈ words cs, ∀ c ∈ w, c.isAlphanum = true :=
    fun w hw c hc => Text.isAlphanum_of_mem_words hw hc
  cases style with
  | camel =>
    apply assemble_camel_words (isAlphanum_of_mem_assemble (by decide) hletters)
    intro c hc
    cases hwords : words cs with
    | nil => simp [hwords, assemble] at hc
    | cons w ws =>
      have hw : w ∈ words cs := hwords ▸ List.mem_cons_self
      rw [hwords, assemble, List.head?_append_of_ne_nil _ (isRun_lower hw).1] at hc
      exact ((isRun_lower hw).2 c (List.mem_of_head? hc)).2
  | snake =>
    rw [words_assemble_snake, assemble, assemble, List.map_map]
    exact congrArg (Text.join ['_'])
      (List.map_congr_left fun w hw => lower_lower (hletters w hw))
  | pascal =>
    rw [assemble_pascal_words (isAlphanum_of_mem_assemble (by decide) hletters)]
    exact capitalize_flatMap_capitalize hletters

theorem words_format (style : NameStyle) (s : String) :
    words (style.format s).toList = words (style.assemble (words s.toList)) := by
  rw [format, String.toList_ofList, words_guardStart]

/-- A formatted name stays as it is when it is formatted again. -/
theorem format_format (style : NameStyle) (s : String) :
    style.format (style.format s) = style.format s := by
  show String.ofList (guardStart (style.assemble (words (style.format s).toList))) = _
  rw [words_format, assemble_words_assemble]
  rfl

/-! ## Letters that are kept -/

theorem lower_append (w v : List Char) : lower (w ++ v) = lower w ++ lower v :=
  List.map_append

theorem lower_flatMap_capitalize {ws : List (List Char)}
    (h : ∀ w ∈ ws, ∀ c ∈ w, c.isAlphanum = true) :
    lower (ws.flatMap capitalize) = lower ws.flatten := by
  induction ws with
  | nil => rfl
  | cons w ws ih =>
    rw [List.forall_mem_cons] at h
    have hfirst : lower (capitalize w) = lower w := by
      cases w with
      | nil => rfl
      | cons c rest =>
        rw [capitalize, lower, List.map_cons, Text.toLower_toUpper (h.1 c List.mem_cons_self)]
        rfl
    rw [List.flatMap_cons, List.flatten_cons, lower_append, lower_append, hfirst, ih h.2]

/-- Without separators nothing is changed but the case of letters. -/
theorem lower_assemble {style : NameStyle} (hstyle : style ≠ snake) {ws : List (List Char)}
    (h : ∀ w ∈ ws, ∀ c ∈ w, c.isAlphanum = true) :
    lower (style.assemble ws) = lower ws.flatten := by
  cases style with
  | camel =>
    cases ws with
    | nil => rfl
    | cons w ws =>
      rw [List.forall_mem_cons] at h
      rw [assemble, List.flatten_cons, lower_append, lower_append, lower_lower h.1,
        lower_flatMap_capitalize h.2]
  | snake => exact absurd rfl hstyle
  | pascal => exact lower_flatMap_capitalize h

/-- A name has the letters and digits of a text, in order and up to their case. An underscore stands
in front of them exactly if there are none or the first is a digit. -/
def KeepsLetters (s name : String) : Prop :=
  ∃ letters : List Char, lower letters = lower (s.toList.filter Char.isAlphanum) ∧
    name.toList = if letters.head?.all Char.isDigit = true then '_' :: letters else letters

theorem guardStart_eq (cs : List Char) :
    guardStart cs = if cs.head?.all Char.isDigit = true then '_' :: cs else cs := by
  cases cs <;> rfl

theorem keepsLetters_format {style : NameStyle} (hstyle : style ≠ snake) (s : String) :
    KeepsLetters s (style.format s) := by
  refine ⟨style.assemble (words s.toList), ?_, ?_⟩
  · rw [lower_assemble hstyle fun w hw c hc => Text.isAlphanum_of_mem_words hw hc,
      Text.flatten_words]
  · rw [format, String.toList_ofList, guardStart_eq]

/-- **Formatted names.** Every name is an identifier and stays as it is when it is formatted again.
Camel and Pascal case keep all letters and digits, snake case keeps the words. -/
theorem formatted_names (s : String) :
    (∀ style : NameStyle, Code.isWord (style.format s) = true ∧
      style.format (style.format s) = style.format s) ∧
    KeepsLetters s (camel.format s) ∧ KeepsLetters s (pascal.format s) ∧
    words (snake.recase s).toList = (words s.toList).map lower := by
  have hsnake : words (snake.recase s).toList = (words s.toList).map lower := by
    rw [recase, String.toList_ofList]
    exact words_assemble_snake s.toList
  exact ⟨fun style => ⟨isWord_format style s, format_format style s⟩,
    keepsLetters_format (by decide) s, keepsLetters_format (by decide) s, hsnake⟩

example : pascal.format "A_B_c" = "ABC" ∧ camel.format "a_b_cd" = "aBCd" ∧
    snake.format "2faToken" = "_2fa_token" := by decide

end NameStyle

end OpenApiClient
