import OpenApiClient.Text.Lowercase

/-!
# The lower-case form of names that are put together

A capital sigma looks at the letters around it, so the lower-case form of two texts one after the
other need not be their lower-case forms. A separator that is neither a letter nor skipped by a
sigma stops this look: a text in front of it has its lower-case form for itself
(`lowercaseString_append`), and what has no upper-case letter stays as it is
(`lowercaseString_of_isPlain`). Names of files grow by such separators, followed by digits or by
fixed texts.
-/

namespace OpenApiClient.Text

/-- Whether a sigma looks no further than this character. -/
def isSolid (c : Char) : Bool :=
  !inRanges caseIgnorableRanges c.toNat && !inRanges casedRanges c.toNat

theorem meetsCased_append {sep : Char} (hsep : isSolid sep = true) (after cs : List Char) :
    meetsCased (cs ++ sep :: after) = meetsCased cs := by
  induction cs with
  | nil =>
    obtain ⟨hignorable, hcased⟩ := Bool.and_eq_true_iff.mp hsep
    rw [Bool.not_eq_true'] at hignorable hcased
    simp [meetsCased, hignorable, hcased]
  | cons c cs ih =>
    simp only [meetsCased, List.cons_append, List.dropWhile_cons] at ih ⊢
    by_cases hc : inRanges caseIgnorableRanges c.toNat = true
    · simpa only [hc, if_true] using ih
    · simp only [hc, Bool.false_eq_true, if_false]

theorem lowerChar_append {sep : Char} (hsep : isSolid sep = true) (before : List Char) (c : Char)
    (cs after : List Char) :
    lowerChar before c (cs ++ sep :: after) = lowerChar before c cs := by
  unfold lowerChar
  rw [meetsCased_append hsep]

/-- What stands in front of a separator has its lower-case form for itself. -/
theorem lowercaseAfter_append {sep : Char} (hsep : isSolid sep = true)
    (after before cs : List Char) :
    lowercaseAfter before (cs ++ sep :: after) =
      lowercaseAfter before cs ++ lowercaseAfter (cs.reverse ++ before) (sep :: after) := by
  induction cs generalizing before with
  | nil => rfl
  | cons c cs ih =>
    rw [List.cons_append, lowercaseAfter, lowercaseAfter, lowerChar_append hsep, ih,
      List.append_assoc, List.reverse_cons, List.append_assoc]
    rfl

/-- Whether a text is in ASCII and has no upper-case letter. -/
def isPlain (cs : List Char) : Bool :=
  cs.all fun c => decide (c.toNat < 0x80) && c.toLower == c

theorem lowercaseAfter_of_isPlain {cs : List Char} (before : List Char) (h : isPlain cs = true) :
    lowercaseAfter before cs = cs := by
  induction cs generalizing before with
  | nil => rfl
  | cons c cs ih =>
    obtain ⟨hc, hcs⟩ := Bool.and_eq_true_iff.mp h
    obtain ⟨hascii, hlower⟩ := Bool.and_eq_true_iff.mp hc
    rw [lowercaseAfter, ih (c :: before) hcs, lowerChar, if_pos (of_decide_eq_true hascii), eq_of_beq hlower]
    rfl

theorem lowercaseString_of_isPlain {s : String} (h : isPlain s.toList = true) :
    lowercaseString s = s := by
  rw [lowercaseString, lowercase, lowercaseAfter_of_isPlain [] h, String.ofList_toList]

/-- A plain text that begins with a separator is added to the lower-case form as it is. -/
theorem lowercaseString_append (s : String) {t : String} {sep : Char} {rest : List Char}
    (ht : t.toList = sep :: rest) (hsep : isSolid sep = true) (hplain : isPlain t.toList = true) :
    lowercaseString (s ++ t) = lowercaseString s ++ t := by
  have hafter : lowercaseAfter (s.toList.reverse ++ []) (sep :: rest) = sep :: rest := by
    rw [ht] at hplain
    exact lowercaseAfter_of_isPlain _ hplain
  rw [← String.toList_inj, String.toList_append, lowercaseString, lowercaseString,
    String.toList_ofList, String.toList_ofList, String.toList_append, ht, lowercase, lowercase,
    lowercaseAfter_append hsep, hafter]

end OpenApiClient.Text
