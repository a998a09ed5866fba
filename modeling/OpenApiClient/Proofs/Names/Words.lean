import Mathlib.Data.List.Basic
import OpenApiClient.Client.Names

/-!
# Words of names that are put together

Names of operations are made by joining parts with underscores: the method with the segments of the
path, a base with a number, a base with what kind of type it names. An underscore belongs to no word
and ends the word in front of it, so the words of such a name are the words of its parts one after
another (`words_append_separator`, `words_joinStrings`), and a part of lower-case letters or digits
is a single word (`words_run`).
-/

namespace OpenApiClient

namespace Text

theorem words_of_separator {sep : Char} (hsep : sep.isAlphanum = false) (b : List Char) :
    words (sep :: b) = words b := by
  cases b <;> simp [words, hsep]

/-- A letter or a digit is always in a word. -/
theorem words_ne_nil {c : Char} (hc : c.isAlphanum = true) (rest : List Char) :
    words (c :: rest) ≠ [] := by
  cases rest with
  | nil => simp [words, hc]
  | cons d after =>
    rw [words, if_pos hc]
    split
    · cases words (d :: after) <;> simp [extendFirst]
    · simp

theorem extendFirst_append {c : Char} {ws : List (List Char)} (h : ws ≠ [])
    (vs : List (List Char)) : extendFirst c (ws ++ vs) = extendFirst c ws ++ vs := by
  cases ws with
  | nil => exact absurd rfl h
  | cons w ws => rfl

/-- Whether a word ends is decided by letters; a separator further on has no say in it. -/
theorem isWordEnd_append_separator {sep : Char} (hsep : sep.isAlphanum = false) (a b : Char)
    (after rest : List Char) :
    isWordEnd a b (after ++ sep :: rest) = isWordEnd a b after := by
  have hletter : sep.isAlpha = false := (Bool.or_eq_false_iff.mp hsep).1
  have hlower : sep.isLower = false := (Bool.or_eq_false_iff.mp hletter).2
  cases after <;> simp [isWordEnd, hlower]

/-- A separator cuts a text into two texts with words of their own. -/
theorem words_append_separator {sep : Char} (hsep : sep.isAlphanum = false) (b : List Char) :
    ∀ a : List Char, words (a ++ sep :: b) = words a ++ words b
  | [] => by simp [words_of_separator hsep, words]
  | [c] => by by_cases hc : c.isAlphanum = true <;> simp [words, hc, hsep]
  | c :: d :: a => by
    have ih := words_append_separator hsep b (d :: a)
    simp only [List.cons_append] at ih ⊢
    by_cases hc : c.isAlphanum = true
    · -- `c` starts a word, or goes to the front of the first word of what follows
      rw [words, words, if_pos hc, if_pos hc, isWordEnd_append_separator hsep, ih]
      split
      next h =>
        have hd : d.isAlphanum = true := by
          simp only [Bool.and_eq_true] at h
          exact h.1
        exact extendFirst_append (words_ne_nil hd a) (words b)
      next => rfl
    · rw [words, words, if_neg hc, if_neg hc, ih]

/-! ## Runs -/

/-- A text of lower-case letters and digits. -/
def IsRun (run : List Char) : Prop :=
  run ≠ [] ∧ ∀ c ∈ run, c.isAlphanum = true ∧ c.isUpper = false

instance (run : List Char) : Decidable (IsRun run) :=
  decidable_of_iff (run ≠ [] ∧ run.all (fun c => c.isAlphanum && !c.isUpper) = true)
    (by simp [IsRun])

/-- Without upper-case letters there are neither humps nor acronyms. -/
theorem words_run {run : List Char} (h : IsRun run) : words run = [run] := by
  induction run with
  | nil => exact absurd rfl h.1
  | cons c run ih =>
    have hc := (h.2 c List.mem_cons_self).1
    cases run with
    | nil => simp [words, hc]
    | cons d after =>
      have hd := h.2 d (by simp)
      have hrest : words (d :: after) = [d :: after] :=
        ih ⟨by simp, fun x hx => h.2 x (List.mem_cons_of_mem c hx)⟩
      rw [words, if_pos hc, if_pos (by simp [isWordEnd, hd.1, hd.2]), hrest]
      rfl

theorem isDigit_of_mem_toString {n : Nat} {c : Char} (h : c ∈ (toString n).toList) :
    c.isDigit = true := by
  rw [Nat.toString_eq_repr, Nat.toList_repr] at h
  exact Nat.isDigit_of_mem_toDigits (by decide) (by decide) h

/-- The digits of a number are a run. -/
theorem isRun_toString (n : Nat) : IsRun (toString n).toList := by
  refine ⟨?_, fun c hc => ?_⟩
  · rw [Nat.toString_eq_repr, Nat.toList_repr]
    exact Nat.toDigits_ne_nil
  · have hd := isDigit_of_mem_toString hc
    have hle : c.toNat ≤ 57 := (Char.isDigit_iff_toNat.mp hd).2
    refine ⟨?_, ?_⟩
    · show (c.isAlpha || c.isDigit) = true
      rw [hd, Bool.or_true]
    · rw [Bool.eq_false_iff]
      intro hu
      have hge : 65 ≤ c.toNat := UInt32.le_iff_toNat_le.mp (of_decide_eq_true hu).1
      omega

/-- A number is read back from its digits. -/
theorem ofDigitChars_toString (n : Nat) : Nat.ofDigitChars 10 (toString n).toList 0 = n := by
  rw [Nat.toString_eq_repr, Nat.toList_repr, Nat.ofDigitChars_ten_toDigits]

theorem eq_of_toString_eq {m n : Nat} (h : toString m = toString n) : m = n := by
  rw [← ofDigitChars_toString m, h, ofDigitChars_toString]

/-! ## Joined texts -/

/-- What is joined has the characters of the pieces and those of the separator. -/
theorem mem_join {sep : List Char} {c : Char} {pieces : List (List Char)}
    (h : c ∈ join sep pieces) : c ∈ sep ∨ ∃ piece ∈ pieces, c ∈ piece := by
  induction pieces with
  | nil => exact absurd h List.not_mem_nil
  | cons piece pieces ih =>
    cases pieces with
    | nil => exact Or.inr ⟨piece, List.mem_cons_self, h⟩
    | cons next pieces =>
      rw [join, List.mem_append, List.mem_append] at h
      · rcases h with (h | h) | h
        · exact Or.inr ⟨piece, List.mem_cons_self, h⟩
        · exact Or.inl h
        · rcases ih h with hsep | ⟨p, hp, hc⟩
          · exact Or.inl hsep
          · exact Or.inr ⟨p, List.mem_cons_of_mem piece hp, hc⟩
      · simp

theorem join_append (sep : List Char) {rest : List (List Char)} (hrest : rest ≠ []) :
    ∀ {pieces : List (List Char)}, pieces ≠ [] →
      join sep (pieces ++ rest) = join sep pieces ++ (sep ++ join sep rest)
  | [], h => absurd rfl h
  | [piece], _ => by
    obtain ⟨next, rest, rfl⟩ := List.exists_cons_of_ne_nil hrest
    rw [List.singleton_append, join, join, List.append_assoc]
    simp
  | piece :: next :: pieces, _ => by
    have ih := join_append sep hrest (List.cons_ne_nil next pieces)
    simp only [List.cons_append] at ih ⊢
    simp only [join, ih, List.append_assoc]

theorem join_concat (sep word : List Char) (pieces : List (List Char)) :
    join sep (pieces ++ [word]) = join sep pieces ++ (if pieces = [] then [] else sep) ++ word := by
  by_cases hempty : pieces = []
  · simp [hempty, join]
  · rw [if_neg hempty, join_append sep (List.cons_ne_nil word []) hempty, List.append_assoc]
    rfl

/-- The words of a text and a run with an underscore between them. -/
theorem words_append_run (s run : String) (h : IsRun run.toList) :
    words (s ++ "_" ++ run).toList = words s.toList ++ [run.toList] := by
  rw [String.toList_append, String.toList_append, List.append_assoc, ← words_run h]
  exact words_append_separator (by decide) run.toList s.toList

theorem words_joinStrings : ∀ parts : List String,
    words (joinStrings "_" parts).toList = parts.flatMap fun s => words s.toList
  | [] => rfl
  | [s] => by simp [joinStrings]
  | s :: t :: parts => by
    have ih := words_joinStrings (t :: parts)
    rw [joinStrings, String.toList_append, String.toList_append, List.append_assoc,
      List.flatMap_cons, ← ih]
    · exact words_append_separator (by decide) _ s.toList
    · simp

end Text

/-! ## Names of operations -/

/-- The name of a method is a single word. -/
theorem Method.isRun_name (m : Method) : Text.IsRun m.name.toList := by
  cases m <;> decide

/-- The words of the base of an operation begin with the method. -/
theorem words_nameBase (m : Method) (path : String) :
    Text.words (nameBase m path).toList =
      m.name.toList :: (fixedSegments path).flatMap fun s => Text.words s.toList := by
  rw [nameBase, Text.words_joinStrings, List.flatMap_cons, Text.words_run m.isRun_name]
  rfl

end OpenApiClient
