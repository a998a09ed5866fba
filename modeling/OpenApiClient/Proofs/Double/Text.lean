import OpenApiClient.Proofs.Code.Numeral
import OpenApiClient.Proofs.Double.Shortest
import OpenApiClient.Yaml.Value

/-!
# The text of a double tells which it is

However the shortest digits of a double are laid out, the reader of decimal numbers finds the number
that they stand for. So texts of finite doubles are equal only if the doubles are
(`Double.eq_of_text_eq`), also if they are laid out in different ways, and none is the text of an
integer.
-/

namespace OpenApiClient

namespace Yaml

open Code (isDigits)

variable {whole fraction rest digits : List Char} {exponent : Int}

theorem digitOf?_ten {c : Char} (h : c.isDigit = true) : digitOf? 10 c = some (c.toNat - 48) := by
  have hlt : c.toNat - 48 < 10 := by
    simp only [Char.isDigit, Bool.and_eq_true, decide_eq_true_eq] at h
    have hle : c.toNat ≤ 57 := h.2
    omega
  rw [digitOf?, hexValue?, if_pos h, Option.filter_some, if_pos (decide_eq_true hlt)]

theorem naturalOf?_digits (h : isDigits digits = true) :
    naturalOf? 10 digits = some (Nat.ofDigitChars 10 digits 0) := by
  obtain ⟨hne, hall⟩ := Code.isDigits_iff.mp h
  have hfold : ∀ (cs : List Char) (n : Nat), (∀ c ∈ cs, c.isDigit = true) →
      cs.foldlM (fun n c => (digitOf? 10 c).map fun d => n * 10 + d) n =
        some (Nat.ofDigitChars 10 cs n) := by
    intro cs
    induction cs with
    | nil => intro n _; rfl
    | cons c cs ih =>
      intro n hcs
      obtain ⟨hc, hcs⟩ := List.forall_mem_cons.mp hcs
      rw [List.foldlM_cons, digitOf?_ten hc, Nat.ofDigitChars_cons, Nat.mul_comm 10 n]
      exact ih _ hcs
  rw [naturalOf?, if_neg (by simpa using hne)]
  exact hfold digits 0 hall

theorem head?_eq_of_mark {c : Char} (hc : c.isDigit = false) (rest : List Char) :
    ∀ d ∈ (c :: rest).head?, d.isDigit = false := by
  rintro d ⟨⟩
  exact hc

theorem isDigits_append (hwhole : isDigits whole = true) (hfraction : isDigits fraction = true) :
    isDigits (whole ++ fraction) = true := by
  rw [Code.isDigits_iff] at hwhole hfraction ⊢
  refine ⟨by simp [hwhole.1], fun c hc => ?_⟩
  exact (List.mem_append.mp hc).elim (hwhole.2 c) (hfraction.2 c)

/-- A number with a point is its digits without the point. -/
theorem decimalOf?_point (hwhole : isDigits whole = true) (hfraction : isDigits fraction = true)
    (hrest : exponentOf? rest = some exponent) (hhead : ∀ c ∈ rest.head?, c.isDigit = false) :
    decimalOf? (whole ++ '.' :: (fraction ++ rest)) =
      some (Nat.ofDigitChars 10 (whole ++ fraction) 0, exponent - fraction.length) := by
  have hparts := Code.span_digits hwhole (head?_eq_of_mark
    (show '.'.isDigit = false by decide) (fraction ++ rest))
  have hafter := Code.span_digits hfraction hhead
  simp only [decimalOf?, hparts.1, hparts.2, hafter.1, hafter.2,
    naturalOf?_digits (isDigits_append hwhole hfraction), hrest]
  rfl

/-- A number without a point is its digits. -/
theorem decimalOf?_whole (hwhole : isDigits whole = true)
    (hrest : exponentOf? ('e' :: rest) = some exponent) :
    decimalOf? (whole ++ 'e' :: rest) = some (Nat.ofDigitChars 10 whole 0, exponent) := by
  have hparts := Code.span_digits hwhole (head?_eq_of_mark
    (show 'e'.isDigit = false by decide) rest)
  simp only [decimalOf?, hparts.1, hparts.2]
  show (do
    let digits ← naturalOf? 10 (whole ++ [])
    let exponent ← exponentOf? ('e' :: rest)
    return (digits, exponent - (0 : Nat))) = _
  rw [List.append_nil, naturalOf?_digits hwhole, hrest]
  exact congrArg (fun e => some (_, e)) (Int.sub_zero exponent)

theorem naturalOf?_toString (n : Nat) : naturalOf? 10 (toString n).toList = some n := by
  rw [naturalOf?_digits (Code.isDigits_toString n), Text.ofDigitChars_toString]

/-- An exponent with its sign, if it has one. -/
theorem exponentOf?_sign {plus : List Char} (hplus : plus = [] ∨ plus = ['+']) (k : Int) :
    exponentOf? ('e' :: (if k < 0 then ['-'] else plus) ++ (toString k.natAbs).toList) =
      some k := by
  have hdigits := naturalOf?_toString k.natAbs
  obtain ⟨c, hc, hdigit⟩ := Code.head?_isDigit (Code.isDigits_toString k.natAbs)
  obtain ⟨rest, hrest⟩ := List.head?_eq_some_iff.mp hc
  split_ifs with hk
  · have habs : -(k.natAbs : Int) = k := by omega
    simp only [List.cons_append, List.nil_append, exponentOf?, hdigits]
    exact congrArg some habs
  · have habs : (k.natAbs : Int) = k := by omega
    rcases hplus with rfl | rfl
    · -- without a sign the first digit must not be taken for one
      rw [List.cons_append, List.nil_append, hrest, exponentOf?, ← hrest, hdigits]
      · exact congrArg some habs
      · rintro _ ⟨⟩
        exact absurd hdigit (by decide)
      · rintro _ ⟨⟩
        exact absurd hdigit (by decide)
    · simp only [List.cons_append, List.nil_append, exponentOf?, hdigits]
      exact congrArg some habs

end Yaml

/-! ## Reading what is laid out -/

namespace Double

variable {layout : Layout} {d d' : Double} {n : Nat} {e k : Int}

theorem decimal_zero (e : Int) : decimal (0, e) = 0 := by
  rw [decimal, Nat.cast_zero, zero_mul]

/-- Zeros in front of digits have no value. -/
theorem ofDigitChars_zeros_append (zeros : Nat) (digits : List Char) :
    Nat.ofDigitChars 10 (List.replicate zeros '0' ++ digits) 0 = Nat.ofDigitChars 10 digits 0 := by
  rw [Nat.ofDigitChars_append, Nat.ofDigitChars_replicate_zero, Nat.mul_zero]

/-- Digits with a point after the first `k` of them are read as the number they stand for. -/
theorem exists_decimalOf?_positionalText
    (hk : k = if n = 0 then 1 else ((toString n).toList.length : Int) + e) :
    ∃ p, Yaml.decimalOf? (positionalText (toString n).toList k) = some p ∧
      decimal p = decimal (n, e) := by
  have hdigits := Code.isDigits_toString n
  have hnil := (Code.isDigits_iff.mp hdigits).1
  have hvalue := Text.ofDigitChars_toString n
  have hone : n = 0 → (toString n).toList.length = 1 := by
    rintro rfl
    exact Code.length_toString_zero
  generalize (toString n).toList = digits at hk hdigits hnil hvalue hone ⊢
  have hend : Yaml.exponentOf? [] = some 0 := rfl
  have hendHead : ∀ c ∈ ([] : List Char).head?, c.isDigit = false := by simp
  unfold positionalText
  dsimp only
  split_ifs with hneg hle
  · -- the point stands in front of the digits
    have hn : n ≠ 0 := by
      rintro rfl
      rw [if_pos rfl] at hk
      omega
    rw [if_neg hn] at hk
    have hfirst : Code.isDigits ['0'] = true := by decide
    have hread := Yaml.decimalOf?_point hfirst
      (Code.isDigits_append_replicate hdigits (-k).toNat).2 hend hendHead
    rw [List.append_nil] at hread
    refine ⟨_, hread, congrArg decimal (Prod.ext ?_ ?_)⟩
    · show Nat.ofDigitChars 10
        (List.replicate 1 '0' ++ (List.replicate (-k).toNat '0' ++ digits)) 0 = n
      rw [ofDigitChars_zeros_append, ofDigitChars_zeros_append, hvalue]
    · show 0 - (_ : Int) = e
      rw [List.length_append, List.length_replicate]
      omega
  · -- the point stands behind the digits, with a zero behind it
    have hlast : Code.isDigits ['0'] = true := by decide
    have hread := Yaml.decimalOf?_point
      (Code.isDigits_append_replicate hdigits (k.toNat - digits.length)).1 hlast hend hendHead
    rw [List.append_nil] at hread
    refine ⟨_, hread, ?_⟩
    have hdigitsRead : Nat.ofDigitChars 10
        (digits ++ List.replicate (k.toNat - digits.length) '0' ++ ['0']) 0 =
          10 * (10 ^ (k.toNat - digits.length) * n) := by
      rw [Nat.ofDigitChars_append, Nat.ofDigitChars_append, hvalue,
        Nat.ofDigitChars_replicate_zero]
      rfl
    rw [hdigitsRead]
    by_cases hn : n = 0
    · rw [hn, Nat.mul_zero, Nat.mul_zero, decimal_zero, decimal_zero]
    · rw [if_neg hn] at hk
      obtain ⟨zeros, hzeros⟩ : ∃ zeros : Nat, e = zeros := ⟨e.toNat, by omega⟩
      have hcount : k.toNat - digits.length = zeros := by omega
      rw [decimal, decimal, hcount, hzeros, zpow_natCast,
        show (0 : Int) - (['0'].length : Nat) = -1 from rfl, zpow_neg_one]
      push_cast
      field_simp
  · -- the point stands between two digits
    have hn : n ≠ 0 := by
      intro hn
      rw [if_pos hn] at hk
      rw [hone hn, hk] at hle
      exact hle (Nat.le_refl 1)
    rw [if_neg hn] at hk
    have hbefore : Code.isDigits (digits.take k.toNat) = true := by
      refine Code.isDigits_of_subset hdigits ?_ fun c => List.mem_of_mem_take
      rw [ne_eq, List.take_eq_nil_iff, not_or]
      exact ⟨by omega, hnil⟩
    have hafter : Code.isDigits (digits.drop k.toNat) = true := by
      refine Code.isDigits_of_subset hdigits ?_ fun c => List.mem_of_mem_drop
      rw [ne_eq, List.drop_eq_nil_iff]
      omega
    have hread := Yaml.decimalOf?_point hbefore hafter hend hendHead
    rw [List.append_nil, List.take_append_drop, hvalue] at hread
    refine ⟨_, hread, congrArg decimal (Prod.ext rfl ?_)⟩
    show 0 - (_ : Int) = e
    rw [List.length_drop]
    omega

/-- Digits with a point after the first of them and an exponent are read as the number they stand
for. -/
theorem exists_decimalOf?_exponentText (hlayout : layout.HasUsualSign)
    (hk : k = if n = 0 then 1 else ((toString n).toList.length : Int) + e) :
    ∃ p, Yaml.decimalOf? (exponentText layout (toString n).toList k) = some p ∧
      decimal p = decimal (n, e) := by
  have hdigits := Code.isDigits_toString n
  have hvalue := Text.ofDigitChars_toString n
  have hexponent := Yaml.exponentOf?_sign hlayout (k - 1)
  have hone : n = 0 → (toString n).toList.length = 1 := by
    rintro rfl
    exact Code.length_toString_zero
  generalize (toString n).toList = digits at hk hdigits hvalue hone ⊢
  unfold exponentText
  dsimp only
  generalize (if k - 1 < 0 then ['-'] else layout.plus.toList) = sign at hexponent ⊢
  rw [List.append_assoc]
  match digits, hdigits with
  | [], h => simp [Code.isDigits] at h
  | [c], h =>
    have hread := Yaml.decimalOf?_whole h hexponent
    rw [hvalue] at hread
    refine ⟨_, hread, ?_⟩
    by_cases hn : n = 0
    · rw [hn, decimal_zero, decimal_zero]
    · rw [if_neg hn, List.length_singleton] at hk
      exact congrArg decimal (Prod.ext rfl (show k - 1 = e by omega))
  | c :: c' :: more, h =>
    simp only [Code.isDigits, List.isEmpty_cons, Bool.not_false, List.all_cons, Bool.true_and,
      Bool.and_eq_true] at h
    have hfirst : Code.isDigits [c] = true := by simp [Code.isDigits, h.1]
    have hmore : Code.isDigits (c' :: more) = true := by simp [Code.isDigits, h.2]
    have hread := Yaml.decimalOf?_point hfirst hmore hexponent
      (Yaml.head?_eq_of_mark (by decide) _)
    rw [show [c] ++ c' :: more = c :: c' :: more from rfl, hvalue] at hread
    refine ⟨_, hread, ?_⟩
    have hn : n ≠ 0 := by
      intro hn
      have hlength := hone hn
      simp at hlength
    rw [if_neg hn] at hk
    refine congrArg decimal (Prod.ext rfl ?_)
    simp only [List.length_cons] at hk ⊢
    omega

/-- **Read back.** The text of the absolute value of a double is read as the number that its
shortest digits stand for. -/
theorem exists_decimalOf?_finiteText (hlayout : layout.HasUsualSign) (d : Double) :
    ∃ p, Yaml.decimalOf? (d.finiteText layout) = some p ∧ decimal p = decimal d.shortest := by
  unfold finiteText
  dsimp only
  generalize hk : (if d.shortest.1 = 0 then (1 : Int)
    else (toString d.shortest.1).toList.length + d.shortest.2) = k
  split_ifs
  · exact exists_decimalOf?_positionalText hk.symm
  · exact exists_decimalOf?_exponentText hlayout hk.symm

theorem magnitude_eq_of_finiteText_eq {layout' : Layout} (hlayout : layout.HasUsualSign)
    (hlayout' : layout'.HasUsualSign) (h : d.finiteText layout = d'.finiteText layout') :
    d.magnitude = d'.magnitude := by
  obtain ⟨p, hp, hdecimal⟩ := exists_decimalOf?_finiteText hlayout d
  obtain ⟨p', hp', hdecimal'⟩ := exists_decimalOf?_finiteText hlayout' d'
  rw [h, hp', Option.some.injEq] at hp
  rw [hp] at hdecimal'
  exact magnitude_eq_of_decimal_eq (hdecimal.symm.trans hdecimal')

/-! ## Texts -/

theorem head?_finiteText_ne_minus (hlayout : layout.HasUsualSign) (d : Double) :
    (d.finiteText layout).head? ≠ some '-' := by
  obtain ⟨whole, rest, hwhole, -, heq⟩ := Code.isUnsigned_finiteText hlayout d
  obtain ⟨c, hc, hdigit⟩ := Code.head?_isDigit (Bool.and_eq_true_iff.mp hwhole).1
  rw [heq, List.head?_append, hc, Option.some_or]
  rintro ⟨⟩
  exact absurd hdigit (by decide)

/-- A double is its sign and its magnitude. -/
theorem eq_of_isNegative_eq_of_magnitude_eq (hnegative : d.isNegative = d'.isNegative)
    (hmagnitude : d.magnitude = d'.magnitude) : d = d' := by
  obtain ⟨bits⟩ := d
  obtain ⟨bits'⟩ := d'
  have hlt := bits.toNat_lt
  have hlt' := bits'.toNat_lt
  have hpow : Nat.pow 2 63 = 9223372036854775808 := rfl
  rw [isNegative, isNegative, decide_eq_decide, hpow] at hnegative
  rw [magnitude, magnitude, hpow] at hmagnitude
  have hbits : bits.toNat = bits'.toNat := by
    dsimp only at hnegative hmagnitude
    omega
  exact congrArg Double.mk (UInt64.toNat_inj.mp hbits)

/-- **Injectivity.** Finite doubles whose texts are equal are equal, whichever way they are laid
out. -/
theorem eq_of_text_eq {layout' : Layout} (hfinite : d.isFinite = true)
    (hfinite' : d'.isFinite = true) (hlayout : layout.HasUsualSign)
    (hlayout' : layout'.HasUsualSign) (h : d.text layout = d'.text layout') : d = d' := by
  have hchars := congrArg String.toList h
  rw [toList_text hfinite, toList_text hfinite'] at hchars
  have hminus := head?_finiteText_ne_minus hlayout d
  have hminus' := head?_finiteText_ne_minus hlayout' d'
  -- a sign stands in both texts or in none
  split_ifs at hchars with hnegative hnegative' hnegative'
  · exact eq_of_isNegative_eq_of_magnitude_eq (hnegative.trans hnegative'.symm)
      (magnitude_eq_of_finiteText_eq hlayout hlayout' (List.tail_eq_of_cons_eq hchars))
  · rw [← hchars] at hminus'
    exact absurd rfl hminus'
  · rw [hchars] at hminus
    exact absurd rfl hminus
  · rw [Bool.not_eq_true] at hnegative hnegative'
    exact eq_of_isNegative_eq_of_magnitude_eq (hnegative.trans hnegative'.symm)
      (magnitude_eq_of_finiteText_eq hlayout hlayout' hchars)

theorem point_mem_positionalText (digits : List Char) (k : Int) :
    '.' ∈ positionalText digits k := by
  unfold positionalText
  dsimp only
  split_ifs <;> simp

theorem letter_mem_exponentText (layout : Layout) (digits : List Char) (k : Int) :
    'e' ∈ exponentText layout digits k := by
  simp [exponentText]

theorem mem_mark_finiteText (layout : Layout) (d : Double) :
    '.' ∈ d.finiteText layout ∨ 'e' ∈ d.finiteText layout := by
  unfold finiteText
  dsimp only
  generalize (if d.shortest.1 = 0 then (1 : Int)
    else (toString d.shortest.1).toList.length + d.shortest.2) = k
  split_ifs
  · exact Or.inl (point_mem_positionalText _ _)
  · exact Or.inr (letter_mem_exponentText _ _ _)

theorem toList_toString_negSucc (n : Nat) :
    (toString (Int.negSucc n)).toList = '-' :: (toString (n + 1)).toList :=
  String.toList_append

theorem isDigit_of_mem_toString_int {n : Int} {c : Char} (h : c ∈ (toString n).toList) :
    c = '-' ∨ c.isDigit = true := by
  cases n with
  | ofNat n => exact Or.inr (Text.isDigit_of_mem_toString h)
  | negSucc n =>
    rw [toList_toString_negSucc] at h
    exact (List.mem_cons.mp h).imp id Text.isDigit_of_mem_toString

/-- No natural begins with a sign. -/
theorem toString_nat_ne_minus (n : Nat) (rest : List Char) : (toString n).toList ≠ '-' :: rest := by
  intro h
  have hminus : '-' ∈ (toString n).toList := h ▸ List.mem_cons_self
  exact absurd (Text.isDigit_of_mem_toString hminus) (by decide)

theorem toString_int_inj {n m : Int} (h : toString n = toString m) : n = m := by
  have hchars := congrArg String.toList h
  cases n with
  | ofNat n =>
    cases m with
    | ofNat m => exact congrArg Int.ofNat (Text.eq_of_toString_eq h)
    | negSucc m =>
      rw [toList_toString_negSucc] at hchars
      exact absurd hchars (toString_nat_ne_minus n _)
  | negSucc n =>
    rw [toList_toString_negSucc] at hchars
    cases m with
    | ofNat m => exact absurd hchars.symm (toString_nat_ne_minus m _)
    | negSucc m =>
      rw [toList_toString_negSucc] at hchars
      have hsucc := Text.eq_of_toString_eq (String.toList_inj.mp (List.tail_eq_of_cons_eq hchars))
      exact congrArg Int.negSucc (Nat.succ.inj hsucc)

/-- The text of a finite double is never that of an integer. -/
theorem text_ne_toString (h : d.isFinite = true) (layout : Layout) (n : Int) :
    d.text layout ≠ toString n := by
  intro heq
  have hmem : ∀ c ∈ d.finiteText layout, c = '-' ∨ c.isDigit = true := by
    intro c hc
    refine isDigit_of_mem_toString_int (n := n) ?_
    rw [← heq, toList_text h]
    split_ifs
    · exact List.mem_cons_of_mem _ hc
    · exact hc
  rcases mem_mark_finiteText layout d with hmark | hmark
  · exact absurd (hmem _ hmark) (by decide)
  · exact absurd (hmem _ hmark) (by decide)

end Double

end OpenApiClient
