import Mathlib.Tactic.IntervalCases
import OpenApiClient.Json.Writer
import OpenApiClient.Proofs.Text.Lines

/-!
# The texts of numbers

A number is written as a numeral: perhaps a sign, a whole part without leading zeros, perhaps a
fraction and perhaps an exponent. The texts of all integers and of all finite doubles are numerals
(`isNumeral_text`).
-/

namespace OpenApiClient

namespace Code

/-- Whether a text consists of digits, at least one. -/
def isDigits (cs : List Char) : Bool :=
  !cs.isEmpty && cs.all Char.isDigit

/-- Whether a text is the whole part of a number. -/
def isWhole (cs : List Char) : Bool :=
  isDigits cs && (cs.head? != some '0' || cs.length == 1)

/-- Whether a text is an exponent with its letter and perhaps a sign, or nothing. -/
def isExponent : List Char → Bool
  | [] => true
  | c :: rest =>
    (c == 'e' || c == 'E') &&
      isDigits (if rest.head? = some '-' ∨ rest.head? = some '+' then rest.tail else rest)

/-- Whether a text is a fraction with its point, or nothing, and then an exponent or nothing. -/
def isFraction : List Char → Bool
  | '.' :: rest =>
    isDigits (rest.takeWhile Char.isDigit) && isExponent (rest.dropWhile Char.isDigit)
  | rest => isExponent rest

def isNumeral (cs : List Char) : Bool :=
  let body := if cs.head? = some '-' then cs.tail else cs
  isWhole (body.takeWhile Char.isDigit) && isFraction (body.dropWhile Char.isDigit)

section Parts

variable {whole digits rest : List Char}

theorem isDigits_iff : isDigits digits = true ↔ digits ≠ [] ∧ ∀ c ∈ digits, c.isDigit = true := by
  simp [isDigits]

/-- Some of the digits of a text, but at least one. -/
theorem isDigits_of_subset (h : isDigits digits = true) (hne : whole ≠ [])
    (hsub : ∀ c ∈ whole, c ∈ digits) : isDigits whole = true :=
  isDigits_iff.mpr ⟨hne, fun c hc => (isDigits_iff.mp h).2 c (hsub c hc)⟩

theorem isWhole_of_isDigits (h : isDigits whole = true)
    (hzero : whole.head? ≠ some '0' ∨ whole.length = 1) : isWhole whole = true := by
  rw [isWhole, h, Bool.true_and, Bool.or_eq_true, bne_iff_ne, beq_iff_eq]
  exact hzero

theorem span_digits (h : isDigits digits = true) (hrest : ∀ c ∈ rest.head?, c.isDigit = false) :
    (digits ++ rest).takeWhile Char.isDigit = digits ∧
      (digits ++ rest).dropWhile Char.isDigit = rest :=
  Text.span_append (isDigits_iff.mp h).2 hrest

theorem isExponent_digits (h : isDigits digits = true) (sign : List Char)
    (hsign : sign = [] ∨ sign = ['-'] ∨ sign = ['+']) :
    isExponent ('e' :: sign ++ digits) = true := by
  rcases hsign with rfl | rfl | rfl
  · -- without a sign the first digit must not be taken for one
    obtain ⟨hne, hall⟩ := isDigits_iff.mp h
    cases digits with
    | nil => exact absurd rfl hne
    | cons d digits =>
      have hd : d.isDigit = true := hall d List.mem_cons_self
      have hminus : d ≠ '-' := by rintro rfl; simp at hd
      have hplus : d ≠ '+' := by rintro rfl; simp at hd
      simp [isExponent, hminus, hplus, h]
  · simp [isExponent, h]
  · simp [isExponent, h]

theorem head?_of_isExponent (h : isExponent rest = true) : ∀ c ∈ rest.head?, c.isDigit = false := by
  cases rest with
  | nil => simp
  | cons c rest =>
    simp only [isExponent, Bool.and_eq_true, Bool.or_eq_true, beq_iff_eq] at h
    rintro d ⟨⟩
    rcases h.1 with rfl | rfl <;> decide

theorem isFraction_point (h : isDigits digits = true) (hrest : isExponent rest = true) :
    isFraction ('.' :: (digits ++ rest)) = true := by
  have hparts := span_digits h (head?_of_isExponent hrest)
  rw [isFraction, hparts.1, hparts.2, h, hrest]
  rfl

theorem isFraction_of_isExponent (h : isExponent rest = true) : isFraction rest = true := by
  unfold isFraction
  split
  · simp [isExponent] at h
  · exact h

theorem head?_of_isFraction (h : isFraction rest = true) : ∀ c ∈ rest.head?, c.isDigit = false := by
  cases rest with
  | nil => simp
  | cons c rest =>
    by_cases hc : c = '.'
    · rintro d ⟨⟩
      rw [hc]
      decide
    · rw [isFraction] at h
      · exact head?_of_isExponent h
      · rintro after ⟨⟩
        exact hc rfl

theorem head?_isDigit (h : isDigits digits = true) :
    ∃ c, digits.head? = some c ∧ c.isDigit = true := by
  obtain ⟨hne, hall⟩ := isDigits_iff.mp h
  cases digits with
  | nil => exact absurd rfl hne
  | cons d digits => exact ⟨d, rfl, hall d List.mem_cons_self⟩

/-- The parts of a numeral, with or without a sign. -/
theorem isNumeral_parts (hwhole : isWhole whole = true) (hrest : isFraction rest = true) :
    isNumeral (whole ++ rest) = true ∧ isNumeral ('-' :: (whole ++ rest)) = true := by
  have hdigits := (Bool.and_eq_true_iff.mp hwhole).1
  have hparts := span_digits hdigits (head?_of_isFraction hrest)
  have hhead : (whole ++ rest).head? ≠ some '-' := by
    obtain ⟨c, hc, hdigit⟩ := head?_isDigit hdigits
    rw [List.head?_append, hc, Option.some_or]
    rintro ⟨⟩
    exact absurd hdigit (by decide)
  constructor
  · simp only [isNumeral, if_neg hhead, hparts.1, hparts.2, hwhole, hrest, Bool.and_self]
  · simp [isNumeral, hparts.1, hparts.2, hwhole, hrest]

end Parts

/-! ## Characters of numerals -/

def isNumeralPart (c : Char) : Bool :=
  c.isDigit || c == '.' || c == 'e' || c == 'E' || c == '+' || c == '-'

theorem isNumeralPart_of_isDigit {c : Char} (h : c.isDigit = true) : isNumeralPart c = true := by
  simp [isNumeralPart, h]

theorem isNumeralPart_of_isDigits {digits : List Char} (h : isDigits digits = true) :
    ∀ c ∈ digits, isNumeralPart c = true := by
  intro c hc
  exact isNumeralPart_of_isDigit ((isDigits_iff.mp h).2 c hc)

theorem isNumeralPart_of_isExponent {rest : List Char} (h : isExponent rest = true) :
    ∀ c ∈ rest, isNumeralPart c = true := by
  cases rest with
  | nil => simp
  | cons mark rest =>
    simp only [isExponent, Bool.and_eq_true, Bool.or_eq_true, beq_iff_eq] at h
    obtain ⟨hmark, hdigits⟩ := h
    have hrest : ∀ c ∈ rest, isNumeralPart c = true := by
      split_ifs at hdigits with hsign
      · cases rest with
        | nil => simp
        | cons sign digits =>
          intro c hc
          rcases List.mem_cons.mp hc with rfl | hc
          · rcases hsign with hsign | hsign
            · cases hsign
              decide
            · cases hsign
              decide
          · exact isNumeralPart_of_isDigits hdigits c hc
      · exact isNumeralPart_of_isDigits hdigits
    intro c hc
    rcases List.mem_cons.mp hc with rfl | hc
    · rcases hmark with rfl | rfl <;> decide
    · exact hrest c hc

theorem isNumeralPart_of_isFraction {rest : List Char} (h : isFraction rest = true) :
    ∀ c ∈ rest, isNumeralPart c = true := by
  unfold isFraction at h
  split at h
  · next rest =>
    obtain ⟨hdigits, hexponent⟩ := Bool.and_eq_true_iff.mp h
    intro c hc
    rcases List.mem_cons.mp hc with rfl | hc
    · decide
    · rw [← List.takeWhile_append_dropWhile (p := Char.isDigit) (l := rest), List.mem_append] at hc
      rcases hc with hc | hc
      · exact isNumeralPart_of_isDigits hdigits c hc
      · exact isNumeralPart_of_isExponent hexponent c hc
  · exact isNumeralPart_of_isExponent h

/-- A numeral begins with a digit or a sign, and each of its characters can stand in one. -/
theorem exists_of_isNumeral {cs : List Char} (h : isNumeral cs = true) :
    ∃ c rest, cs = c :: rest ∧ (c = '-' ∨ c.isDigit = true) ∧
      ∀ c ∈ rest, isNumeralPart c = true := by
  have hbody : ∀ body : List Char, isWhole (body.takeWhile Char.isDigit) = true →
      isFraction (body.dropWhile Char.isDigit) = true →
        (∃ c ∈ body.head?, c.isDigit = true) ∧ ∀ c ∈ body, isNumeralPart c = true := by
    intro body hwhole hfraction
    have hdigits := (Bool.and_eq_true_iff.mp hwhole).1
    obtain ⟨c, hhead, hc⟩ := head?_isDigit hdigits
    rw [← List.takeWhile_append_dropWhile (p := Char.isDigit) (l := body)]
    refine ⟨⟨c, by rw [List.head?_append, hhead]; rfl, hc⟩, ?_⟩
    intro d hd
    rcases List.mem_append.mp hd with hd | hd
    · exact isNumeralPart_of_isDigits hdigits d hd
    · exact isNumeralPart_of_isFraction hfraction d hd
  simp only [isNumeral, Bool.and_eq_true] at h
  obtain ⟨⟨c, hhead, hc⟩, hall⟩ := hbody _ h.1 h.2
  split_ifs at hhead hall with hsign
  · obtain ⟨rest, rfl⟩ := List.head?_eq_some_iff.mp hsign
    exact ⟨'-', rest, rfl, Or.inl rfl, hall⟩
  · obtain ⟨rest, rfl⟩ := List.head?_eq_some_iff.mp hhead
    exact ⟨c, rest, rfl, Or.inr hc, fun d hd => hall d (List.mem_cons_of_mem _ hd)⟩

theorem isDigits_toString (n : Nat) : isDigits (toString n).toList = true := by
  refine isDigits_iff.mpr ⟨?_, fun c => Text.isDigit_of_mem_toString⟩
  rw [Nat.toString_eq_repr, Nat.toList_repr]
  exact Nat.toDigits_ne_nil

/-- Only zero begins with a zero. -/
theorem head?_toString {n : Nat} (h : 0 < n) : (toString n).toList.head? ≠ some '0' := by
  rw [Nat.toString_eq_repr, Nat.toList_repr]
  induction n using Nat.strongRecOn with
  | ind n ih =>
    by_cases hn : n < 10
    · rw [Nat.toDigits_of_lt_base hn]
      interval_cases n <;> decide
    · rw [Nat.toDigits_of_base_le (by decide) (Nat.le_of_not_lt hn)]
      -- the first digit is that of the number without its last one
      have hdiv : 0 < n / 10 := by omega
      have hlt : n / 10 < n := by omega
      have hhead := ih (n / 10) hlt hdiv
      rwa [List.head?_append_of_ne_nil _ Nat.toDigits_ne_nil]

theorem isWhole_toString (n : Nat) : isWhole (toString n).toList = true := by
  rcases Nat.eq_zero_or_pos n with rfl | hn
  · decide
  · exact isWhole_of_isDigits (isDigits_toString n) (Or.inl (head?_toString hn))

end Code

/-! ## Digits with a point and an exponent -/

namespace Double

/-- Whether exponents that are not negative have no sign or the usual one. -/
def Layout.HasUsualSign (layout : Layout) : Prop :=
  layout.plus.toList = [] ∨ layout.plus.toList = ['+']

theorem Layout.hasUsualSign_document : document.HasUsualSign := Or.inr rfl

theorem Layout.hasUsualSign_key : key.HasUsualSign := Or.inl rfl

end Double

namespace Code

variable {layout : Double.Layout}

/-- A text is a numeral without a sign. -/
def IsUnsigned (cs : List Char) : Prop :=
  ∃ whole rest, isWhole whole = true ∧ isFraction rest = true ∧ cs = whole ++ rest

theorem IsUnsigned.isNumeral {cs : List Char} (h : IsUnsigned cs) :
    isNumeral cs = true ∧ isNumeral ('-' :: cs) = true := by
  obtain ⟨whole, rest, hwhole, hrest, rfl⟩ := h
  exact isNumeral_parts hwhole hrest

theorem isDigits_append_replicate {cs : List Char} (h : isDigits cs = true) (n : Nat) :
    isDigits (cs ++ List.replicate n '0') = true ∧
      isDigits (List.replicate n '0' ++ cs) = true := by
  obtain ⟨hne, hall⟩ := isDigits_iff.mp h
  have hboth : ∀ c, c ∈ cs ∨ c ∈ List.replicate n '0' → c.isDigit = true := by
    rintro c (hc | hc)
    · exact hall c hc
    · rw [List.eq_of_mem_replicate hc]
      decide
  constructor
  · exact isDigits_iff.mpr ⟨by simp [hne], fun c hc => hboth c (List.mem_append.mp hc)⟩
  · exact isDigits_iff.mpr ⟨by simp [hne], fun c hc => hboth c (List.mem_append.mp hc).symm⟩

theorem isFraction_digits {cs : List Char} (h : isDigits cs = true) :
    isFraction ('.' :: cs) = true := by
  have hfraction := isFraction_point h (show isExponent [] = true from rfl)
  rwa [List.append_nil] at hfraction

theorem length_toString_zero : (toString 0).toList.length = 1 := rfl

theorem isUnsigned_positionalText {n : Nat} {k : Int} (hzero : n = 0 → k = 1) :
    IsUnsigned (Double.positionalText (toString n).toList k) := by
  have hdigits := isDigits_toString n
  have hnil := (isDigits_iff.mp hdigits).1
  unfold Double.positionalText
  dsimp only
  split_ifs with hk hlength
  · -- the point stands in front of the digits
    have hafter := (isDigits_append_replicate hdigits (-k).toNat).2
    exact ⟨['0'], _, by decide, isFraction_digits hafter, by simp⟩
  · -- the point stands behind the digits
    refine ⟨_, ['.', '0'], isWhole_of_isDigits (isDigits_append_replicate hdigits _).1 ?_,
      by decide, rfl⟩
    rcases Nat.eq_zero_or_pos n with rfl | hn
    · right
      rw [hzero rfl, List.length_append, List.length_replicate, length_toString_zero]
      rfl
    · left
      rw [List.head?_append_of_ne_nil _ hnil]
      exact head?_toString hn
  · -- the point stands between two digits
    rw [Nat.not_le] at hlength
    have hn : 0 < n := by
      rcases Nat.eq_zero_or_pos n with rfl | hn
      · rw [length_toString_zero] at hlength
        omega
      · exact hn
    have hbefore : isDigits ((toString n).toList.take k.toNat) = true := by
      apply isDigits_of_subset hdigits
      · rw [ne_eq, List.take_eq_nil_iff, not_or]
        exact ⟨by omega, hnil⟩
      · exact fun c hc => List.mem_of_mem_take hc
    have hafter : isDigits ((toString n).toList.drop k.toNat) = true := by
      apply isDigits_of_subset hdigits
      · rw [ne_eq, List.drop_eq_nil_iff]
        omega
      · exact fun c hc => List.mem_of_mem_drop hc
    have hhead : ((toString n).toList.take k.toNat).head? ≠ some '0' := by
      rw [List.head?_take, if_neg (by omega)]
      exact head?_toString hn
    exact ⟨_, _, isWhole_of_isDigits hbefore (Or.inl hhead), isFraction_digits hafter, rfl⟩

theorem isUnsigned_exponentText (h : layout.HasUsualSign) (n : Nat) (k : Int) :
    IsUnsigned (Double.exponentText layout (toString n).toList k) := by
  have hdigits := isDigits_toString n
  generalize (toString n).toList = digits at hdigits ⊢
  have hsign : (if k - 1 < 0 then ['-'] else layout.plus.toList) = [] ∨
      (if k - 1 < 0 then ['-'] else layout.plus.toList) = ['-'] ∨
      (if k - 1 < 0 then ['-'] else layout.plus.toList) = ['+'] := by
    split_ifs
    · exact Or.inr (Or.inl rfl)
    · exact h.imp_right Or.inr
  have hrest := isExponent_digits (isDigits_toString (k - 1).natAbs) _ hsign
  unfold Double.exponentText
  dsimp only
  generalize (if k - 1 < 0 then ['-'] else layout.plus.toList) = sign at hrest ⊢
  match digits, hdigits with
  | [], h => simp [isDigits] at h
  | [d], h =>
    have hwhole : isWhole [d] = true := by simp [isWhole, h]
    exact ⟨[d], _, hwhole, isFraction_of_isExponent hrest, by simp⟩
  | d :: e :: more, h =>
    simp only [isDigits, List.isEmpty_cons, Bool.not_false, List.all_cons, Bool.true_and,
      Bool.and_eq_true] at h
    have hwhole : isWhole [d] = true := by simp [isWhole, isDigits, h.1]
    have hmore : isDigits (e :: more) = true := by simp [isDigits, h.2]
    exact ⟨[d], _, hwhole, isFraction_point hmore hrest, by simp⟩

theorem isUnsigned_finiteText (h : layout.HasUsualSign) (d : Double) :
    IsUnsigned (Double.finiteText layout d) := by
  unfold Double.finiteText
  dsimp only
  generalize hk : (if d.shortest.1 = 0 then (1 : Int)
    else (toString d.shortest.1).toList.length + d.shortest.2) = k
  split_ifs
  · apply isUnsigned_positionalText
    intro hn
    rw [← hk, if_pos hn]
  · exact isUnsigned_exponentText h _ _

end Code

/-! ## Numbers -/

theorem Double.isNaN_of_isFinite {d : Double} (h : d.isFinite = true) : d.isNaN = false := by
  rw [Double.isFinite, decide_eq_true_eq] at h
  rw [Double.isNaN, decide_eq_false_iff_not]
  omega

theorem Double.not_isFinite_of_isNaN {d : Double} (h : d.isNaN = true) :
    ¬d.isFinite = true := by
  intro hfinite
  rw [Double.isNaN_of_isFinite hfinite] at h
  cases h

theorem Double.toList_text {d : Double} (h : d.isFinite = true) (layout : Layout) :
    (d.text layout).toList =
      if d.isNegative then '-' :: d.finiteText layout else d.finiteText layout := by
  rw [Double.text, Double.isNaN_of_isFinite h, h]
  simp only [Bool.false_eq_true, if_false, if_true, String.toList_ofList]

/-- The text of a finite double is a numeral. -/
theorem Double.isNumeral_text {d : Double} (h : d.isFinite = true) {layout : Layout}
    (hlayout : layout.HasUsualSign) : Code.isNumeral (d.text layout).toList = true := by
  have hbody := (Code.isUnsigned_finiteText hlayout d).isNumeral
  rw [Double.toList_text h]
  split_ifs
  · exact hbody.2
  · exact hbody.1

namespace Json

/-- A number that is an integer or a finite double. -/
def Number.IsFinite : Number → Prop
  | int _ => True
  | double d => d.isFinite = true

open Code (isNumeral)

/-- **Numerals.** The text of every number is a numeral. -/
theorem isNumeral_text {n : Number} (h : n.IsFinite) : isNumeral n.text.toList = true := by
  cases n with
  | int n =>
    have hnat (m : Nat) : Code.IsUnsigned (toString m).toList :=
      ⟨_, [], Code.isWhole_toString m, rfl, (List.append_nil _).symm⟩
    cases n with
    | ofNat m => exact (hnat m).isNumeral.1
    | negSucc m =>
      have htext : (Number.int (Int.negSucc m)).text.toList = '-' :: (toString (m + 1)).toList := by
        show (String.append "-" (toString (m + 1))).toList = _
        exact String.toList_append
      rw [htext]
      exact (hnat (m + 1)).isNumeral.2
  | double d => exact Double.isNumeral_text h Double.Layout.hasUsualSign_document

end Json

end OpenApiClient
