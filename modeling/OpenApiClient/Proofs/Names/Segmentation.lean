import Mathlib.Order.Monotone.Basic
import OpenApiClient.Proofs.Names.Identifiers

/-!
# Where words begin and end

The words of a text are found in one walk that looks at two neighbours and at what follows them.
Here they are described by the places of the text alone. A place has a number of letters and digits
in front of it, and so stands in a certain one of the words (`standsIn`). From one place to the
next this number grows by one if a word ends there and stays the same otherwise
(`standsIn_words_succ`); from this step follows which characters stand in different words
(`segments_words`).
-/

namespace OpenApiClient.Text

/-- The number of letters and digits in front of a place of a text. -/
def lettersBefore (cs : List Char) (i : Nat) : Nat :=
  (cs.take i).countP Char.isAlphanum

/-- The number of the word that a character stands in which has `p` characters of the words in
front of it. -/
def indexOfLetter : List (List Char) → Nat → Nat
  | [], _ => 0
  | word :: words, p =>
    if p < word.length then 0 else indexOfLetter words (p - word.length) + 1

/-- The number of the word that a place of a text stands in, when its letters and digits are
divided into these words. -/
def standsIn (cs : List Char) (words : List (List Char)) (i : Nat) : Nat :=
  indexOfLetter words (lettersBefore cs i)

/-- What it means that a text is cut into words. -/
structure Segments (cs : List Char) (words : List (List Char)) : Prop where
  /-- Words are not empty, and hold letters and digits only. -/
  letters : ∀ word ∈ words, word ≠ [] ∧ ∀ c ∈ word, c.isAlphanum = true
  /-- Put together, they are the text without all other characters. -/
  flatten : words.flatten = cs.filter Char.isAlphanum
  /-- The word that a letter or digit stands in has it. -/
  stands : ∀ i a, cs[i]? = some a → a.isAlphanum = true →
    ∃ word, words[standsIn cs words i]? = some word ∧ a ∈ word
  /-- Two of them with another kind of character in between stand in different words. -/
  apart : ∀ i j k a b c, i < j → j < k →
    cs[i]? = some a → cs[j]? = some b → cs[k]? = some c →
    a.isAlphanum = true → b.isAlphanum = false → c.isAlphanum = true →
      standsIn cs words i ≠ standsIn cs words k
  /-- Neighbours stand in different words at a hump and at the end of an acronym. -/
  neighbours : ∀ i a b, cs[i]? = some a → cs[i + 1]? = some b →
    a.isAlphanum = true → b.isAlphanum = true →
      (standsIn cs words i ≠ standsIn cs words (i + 1) ↔
        b.isUpper = true ∧ (a.isLower = true ∨ a.isDigit = true) ∨
        a.isUpper = true ∧ b.isUpper = true ∧ ∃ c, cs[i + 2]? = some c ∧ c.isLower = true)

variable {cs : List Char}

theorem lettersBefore_zero (cs : List Char) : lettersBefore cs 0 = 0 := rfl

theorem lettersBefore_cons_succ (c : Char) (rest : List Char) (i : Nat) :
    lettersBefore (c :: rest) (i + 1) =
      lettersBefore rest i + if c.isAlphanum = true then 1 else 0 := by
  rw [lettersBefore, List.take_succ_cons, List.countP_cons, lettersBefore]

/-- A letter has its number among the letters. -/
theorem getElem?_filter_lettersBefore {i : Nat} {a : Char} (hi : cs[i]? = some a)
    (ha : a.isAlphanum = true) :
    (cs.filter Char.isAlphanum)[lettersBefore cs i]? = some a := by
  induction cs generalizing i with
  | nil => exact absurd hi (by simp)
  | cons c rest ih =>
    cases i with
    | zero =>
      obtain rfl : c = a := by simpa using hi
      rw [lettersBefore_zero, List.filter_cons_of_pos ha]
      rfl
    | succ i =>
      have hrest := ih (by simpa using hi)
      rw [lettersBefore_cons_succ, List.filter_cons]
      split_ifs with hc
      · rwa [List.getElem?_cons_succ]
      · exact hrest

theorem exists_word_of_getElem?_flatten {words : List (List Char)} {p : Nat} {a : Char}
    (h : words.flatten[p]? = some a) :
    ∃ word, words[indexOfLetter words p]? = some word ∧ a ∈ word := by
  induction words generalizing p with
  | nil => exact absurd h (by simp)
  | cons word words ih =>
    rw [List.flatten_cons, List.getElem?_append] at h
    rw [indexOfLetter]
    split_ifs at h ⊢ with hp
    · exact ⟨word, rfl, List.mem_of_getElem? h⟩
    · exact ih h

/-! ## Steps of the walk -/

def endsWord : List Char → Bool
  | [] => false
  | [c] => c.isAlphanum
  | c :: d :: after => c.isAlphanum && (!d.isAlphanum || isWordEnd c d after)

theorem flatten_extendFirst (c : Char) (ws : List (List Char)) :
    (extendFirst c ws).flatten = c :: ws.flatten := by
  cases ws <;> rfl

/-- Words are made of all letters and digits, in order. -/
theorem flatten_words (cs : List Char) : (words cs).flatten = cs.filter Char.isAlphanum := by
  fun_induction words cs with
  | case1 => rfl
  | case2 c hc => simp [hc]
  | case3 c hc d after hword ih =>
    rw [flatten_extendFirst, ih, List.filter_cons_of_pos hc]
  | case4 c hc d after hword ih =>
    rw [List.flatten_cons, ih, List.filter_cons_of_pos hc]
    rfl
  | case5 c after hc ih => rw [ih, List.filter_cons_of_neg hc]

theorem indexOfLetter_zero {words : List (List Char)} (h : ∀ word ∈ words, word ≠ []) :
    indexOfLetter words 0 = 0 := by
  cases words with
  | nil => rfl
  | cons word words =>
    rw [indexOfLetter, if_pos (List.length_pos_iff.mpr (h word List.mem_cons_self))]

theorem indexOfLetter_extendFirst (c : Char) {ws : List (List Char)} (h : ws ≠ []) (p : Nat) :
    indexOfLetter (extendFirst c ws) (p + 1) = indexOfLetter ws p := by
  cases ws with
  | nil => exact absurd rfl h
  | cons w ws =>
    simp only [extendFirst, indexOfLetter, List.length_cons, Nat.add_lt_add_iff_right,
      Nat.add_sub_add_right]

theorem standsIn_words_zero (cs : List Char) : standsIn cs (words cs) 0 = 0 :=
  indexOfLetter_zero fun _ => ne_nil_of_mem_words

/-- With one more character in front, places move by one, and words by one if it is a word of its
own. -/
theorem standsIn_words_cons (c : Char) (rest : List Char) (i : Nat) :
    standsIn (c :: rest) (words (c :: rest)) (i + 1) =
      standsIn rest (words rest) i + if endsWord (c :: rest) = true then 1 else 0 := by
  rw [standsIn, lettersBefore_cons_succ, standsIn]
  by_cases hc : c.isAlphanum = true
  · rw [if_pos hc]
    cases rest with
    | nil =>
      have hnone : lettersBefore [] i = 0 := by simp [lettersBefore]
      simp [words, hc, hnone, indexOfLetter, endsWord]
    | cons d after =>
      rw [words, if_pos hc]
      split_ifs with hword hends hends
      · -- `c` is put in front of the word of `d`, so it ends none
        simp_all [endsWord]
      · have hd : d.isAlphanum = true := (Bool.and_eq_true_iff.mp hword).1
        exact indexOfLetter_extendFirst c (words_ne_nil hd after) _
      · -- `c` is a word of its own
        rw [indexOfLetter, if_neg (by simp), List.length_singleton, Nat.add_sub_cancel]
      · simp_all [endsWord]
  · have hends : endsWord (c :: rest) = false := by
      cases rest <;> simp [endsWord, hc]
    have hwords : words (c :: rest) = words rest := words_of_separator (by simpa using hc) rest
    simp [hc, hends, hwords]

/-- **Step.** From a place to the next, the number of the word grows by one if a word ends. -/
theorem standsIn_words_succ (cs : List Char) (i : Nat) :
    standsIn cs (words cs) (i + 1) =
      standsIn cs (words cs) i + if endsWord (cs.drop i) = true then 1 else 0 := by
  induction i generalizing cs with
  | zero =>
    cases cs with
    | nil => rfl
    | cons c rest =>
      rw [standsIn_words_cons, standsIn_words_zero, standsIn_words_zero, List.drop_zero]
  | succ i ih =>
    cases cs with
    | nil => simp [standsIn, lettersBefore, endsWord]
    | cons c rest =>
      rw [standsIn_words_cons, standsIn_words_cons, ih, List.drop_succ_cons]
      omega

theorem standsIn_words_mono (cs : List Char) : Monotone (standsIn cs (words cs)) := by
  apply monotone_nat_of_le_succ
  intro i
  rw [standsIn_words_succ]
  exact Nat.le_add_right _ _

theorem drop_eq_cons_cons {i : Nat} {a b : Char} (hi : cs[i]? = some a)
    (hnext : cs[i + 1]? = some b) : cs.drop i = a :: b :: cs.drop (i + 2) := by
  rw [List.drop_eq_getElem?_toList_append, hi, List.drop_eq_getElem?_toList_append, hnext]
  rfl

/-- A word has ended where another kind of character stands. -/
theorem standsIn_words_lt {i j : Nat} {a b : Char} (hij : i < j) (hi : cs[i]? = some a)
    (hj : cs[j]? = some b) (ha : a.isAlphanum = true) (hb : b.isAlphanum = false) :
    standsIn cs (words cs) i < standsIn cs (words cs) j := by
  obtain ⟨hlen, -⟩ := List.getElem?_eq_some_iff.mp hj
  -- going from `i` towards `j`, the first character of the other kind ends the word
  induction hd : j - i generalizing i a with
  | zero => omega
  | succ n ih =>
    obtain ⟨d, hnext⟩ : ∃ d, cs[i + 1]? = some d := ⟨_, List.getElem?_eq_getElem (by omega)⟩
    by_cases halphanum : d.isAlphanum = true
    · have hne : i + 1 ≠ j := by
        rintro rfl
        rw [hnext, Option.some.injEq] at hj
        rw [hj, hb] at halphanum
        exact absurd halphanum (by decide)
      have hle : standsIn cs (words cs) i ≤ standsIn cs (words cs) (i + 1) :=
        standsIn_words_mono cs (Nat.le_succ i)
      exact Nat.lt_of_le_of_lt hle (ih (by omega) hnext halphanum (by omega))
    · have hends : endsWord (cs.drop i) = true := by
        simp [drop_eq_cons_cons hi hnext, endsWord, ha, halphanum]
      have hle : standsIn cs (words cs) (i + 1) ≤ standsIn cs (words cs) j :=
        standsIn_words_mono cs hij
      rw [standsIn_words_succ, if_pos hends] at hle
      omega

theorem standsIn_words_ne_iff {i : Nat} {a b : Char} (hi : cs[i]? = some a)
    (hnext : cs[i + 1]? = some b) (ha : a.isAlphanum = true) (hb : b.isAlphanum = true) :
    standsIn cs (words cs) i ≠ standsIn cs (words cs) (i + 1) ↔
      isWordEnd a b (cs.drop (i + 2)) = true := by
  have hends : endsWord (cs.drop i) = isWordEnd a b (cs.drop (i + 2)) := by
    rw [drop_eq_cons_cons hi hnext, endsWord, ha, hb]
    rfl
  rw [standsIn_words_succ, hends]
  split_ifs with hend
  · simp [hend]
  · simp [hend]

theorem isWordEnd_drop_iff {a b : Char} (cs : List Char) (i : Nat) :
    isWordEnd a b (cs.drop i) = true ↔
      b.isUpper = true ∧ (a.isLower = true ∨ a.isDigit = true) ∨
      a.isUpper = true ∧ b.isUpper = true ∧ ∃ c, cs[i]? = some c ∧ c.isLower = true := by
  have hafter : (cs.drop i).head?.any Char.isLower = true ↔
      ∃ c, cs[i]? = some c ∧ c.isLower = true := by
    rw [List.head?_drop, Option.any_eq_true]
  rw [isWordEnd, Bool.and_eq_true, Bool.or_eq_true, Bool.or_eq_true, Bool.and_eq_true, hafter]
  constructor
  · rintro ⟨hb, ha | ⟨ha, hc⟩⟩
    · exact Or.inl ⟨hb, ha⟩
    · exact Or.inr ⟨ha, hb, hc⟩
  · rintro (⟨hb, ha⟩ | ⟨ha, hb, hc⟩)
    · exact ⟨hb, Or.inl ha⟩
    · exact ⟨hb, Or.inr ⟨ha, hc⟩⟩

/-- **Words.** Every text is cut into words at its other characters, at humps and at the ends of
acronyms, and nowhere else. -/
theorem segments_words (s : String) : Segments s.toList (words s.toList) := by
  constructor
  case letters =>
    intro word hword
    exact ⟨ne_nil_of_mem_words hword, fun c hc => isAlphanum_of_mem_words hword hc⟩
  case flatten => exact flatten_words s.toList
  case stands =>
    intro i a hi ha
    apply exists_word_of_getElem?_flatten
    rw [flatten_words]
    exact getElem?_filter_lettersBefore hi ha
  case apart =>
    intro i j k a b c hij hjk hi hj hk ha hb hc
    have hlt := standsIn_words_lt hij hi hj ha hb
    have hle : standsIn s.toList (words s.toList) j ≤ standsIn s.toList (words s.toList) k :=
      standsIn_words_mono s.toList (Nat.le_of_lt hjk)
    omega
  case neighbours =>
    intro i a b hi hnext ha hb
    rw [standsIn_words_ne_iff hi hnext ha hb]
    exact isWordEnd_drop_iff s.toList (i + 2)

example : words "getHTTPServer2x".toList =
    ["get".toList, "HTTP".toList, "Server2x".toList] := by decide

end OpenApiClient.Text
