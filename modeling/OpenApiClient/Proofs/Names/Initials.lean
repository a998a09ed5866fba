import OpenApiClient.Proofs.Names.Identifiers

/-!
# Initials

The first letter tells names of types in Pascal case from names of functions in another style. A
function begins with a method in lower case, perhaps after an underscore; a name in Pascal case
begins with a letter in upper case, or with an underscore that no letter follows. So they never are
the same (`pascal_format_ne_safeName`).
-/

namespace OpenApiClient

/-- Whether a name begins with a letter in lower case, perhaps after an underscore. -/
def opensLower : List Char → Bool
  | [] => false
  | c :: rest => c.isLower || (c == '_' && rest.head?.any Char.isLower)

namespace NameStyle

/-- However the words are, what is put together in Pascal case does not begin in lower case. -/
theorem opensLower_guardStart_capitals (ws : List (List Char))
    (h : ∀ w ∈ ws, ∀ c ∈ w, c.isAlphanum = true) :
    opensLower (guardStart (ws.flatMap capitalize)) = false := by
  induction ws with
  | nil => rfl
  | cons w ws ih =>
    cases w with
    | nil =>
      -- an empty word leaves no trace
      exact ih fun v hv => h v (List.mem_cons_of_mem _ hv)
    | cons c rest =>
      have hc : c.isAlphanum = true := h _ List.mem_cons_self c List.mem_cons_self
      have hlower := Text.isLower_toUpper hc
      have hunderscore : (c.toUpper == '_') = false := by
        rw [beq_eq_false_iff_ne]
        intro heq
        have halphanum := (Text.isAlphanum_casing hc).1
        rw [heq] at halphanum
        exact absurd halphanum (by decide)
      rw [List.flatMap_cons, capitalize, List.cons_append, guardStart]
      split
      · -- an underscore was put before a digit
        show ('_'.isLower || ('_' == '_' && c.toUpper.isLower)) = false
        rw [hlower]
        rfl
      · rw [opensLower, hlower, hunderscore]
        rfl

theorem opensLower_pascal_format (s : String) : opensLower (pascal.format s).toList = false := by
  rw [format, String.toList_ofList]
  exact opensLower_guardStart_capitals _ fun _ hw _ hc => Text.isAlphanum_of_mem_words hw hc

/-- A function begins in lower case, unless functions are in Pascal case. -/
theorem opensLower_safeName {functions : NameStyle} (hstyle : functions ≠ pascal) {base : String}
    (h : IsOperationBase base) :
    opensLower (Code.safeName (functions.format base)).toList = true := by
  rcases Code.safeName_format functions h with ⟨hsafe, -⟩ | ⟨-, hsafe⟩
  · obtain ⟨m, rest, hrest⟩ := exists_methodHead functions h
    rw [hsafe, ← hrest]
    cases functions with
    | camel => cases m <;> rfl
    | snake => cases m <;> rfl
    | pascal => exact absurd rfl hstyle
  · rw [hsafe]
    decide

/-- Types in Pascal case never have the name of a function in another style. -/
theorem pascal_format_ne_safeName {functions : NameStyle} (hstyle : functions ≠ pascal)
    {base : String} (h : IsOperationBase base) (s : String) :
    pascal.format s ≠ Code.safeName (functions.format base) := by
  intro heq
  have hopens := opensLower_pascal_format s
  rw [heq, opensLower_safeName hstyle h] at hopens
  exact absurd hopens (by decide)

end NameStyle

end OpenApiClient
