import Mathlib.Data.List.Induction
import Mathlib.Order.Bounds.Defs
import OpenApiClient.Proofs.Names.Supply

/-!
# Claims one after another

Names are claimed from a supply in any order and in any style (`claimAll`). The search for a free
number has no bound of its own: it stops at a free number and else goes on with the next (`Search`).
It ends all the same, since the numbered names of one base differ in every style, and it ends at the
least free number (`claim_eq_of_mem`). What one claim does to the supply gives by induction what a
whole run does: no name is given twice, and the names in use are those that were given
(`used_claimAll`, `claims_unique`).
-/

namespace OpenApiClient

section Search

variable {used : List String} {nameOf : Nat → String}

/-- The search for a free number: from `n` on, it ends at `m`. -/
inductive Search (used : List String) (nameOf : Nat → String) : Nat → Nat → Prop
  | stop {n : Nat} (free : nameOf n ∉ used) : Search used nameOf n n
  | next {n m : Nat} (taken : nameOf n ∈ used) (rest : Search used nameOf (n + 1) m) :
    Search used nameOf n m

/-- The search with a bound is the search, if it ends at a free number. -/
theorem search_firstFree : ∀ fuel n : Nat, nameOf (firstFree used nameOf fuel n) ∉ used →
    Search used nameOf n (firstFree used nameOf fuel n)
  | 0, _, hfree => .stop hfree
  | fuel + 1, n, hfree => by
    rw [firstFree] at hfree ⊢
    split_ifs at hfree ⊢ with htaken
    · exact .next (List.contains_iff_mem.mp htaken) (search_firstFree fuel (n + 1) hfree)
    · exact .stop hfree

theorem firstFree_le (used : List String) (nameOf : Nat → String) : ∀ fuel n : Nat,
    firstFree used nameOf fuel n ≤ n + fuel
  | 0, _ => Nat.le_refl _
  | fuel + 1, n => by
    rw [firstFree]
    split_ifs
    · have := firstFree_le used nameOf fuel (n + 1)
      omega
    · exact Nat.le_add_right n _

/-- The search ends at the least free number. -/
theorem Search.isLeast {n m : Nat} (h : Search used nameOf n m) :
    IsLeast {i | n ≤ i ∧ nameOf i ∉ used} m := by
  induction h with
  | stop hfree => exact ⟨⟨Nat.le_refl _, hfree⟩, fun i hi => hi.1⟩
  | @next n m htaken _ ih =>
    obtain ⟨⟨hle, hfree⟩, hleast⟩ := ih
    refine ⟨⟨Nat.le_of_succ_le hle, hfree⟩, fun i hi => hleast ⟨?_, hi.2⟩⟩
    -- `n` itself is taken, so that a free number comes after it
    rcases Nat.eq_or_lt_of_le hi.1 with rfl | hlt
    · exact absurd htaken hi.2
    · exact hlt

theorem search_freeNumber (hinj : Function.Injective nameOf) :
    Search used nameOf 2 (freeNumber used nameOf) :=
  search_firstFree used.length 2 (freeNumber_not_mem hinj)

end Search

namespace NameSupply

theorem claim_eq_of_not_mem {base : String} {style : NameStyle} {s : NameSupply}
    (h : style.format base ∉ s.used) : (s.claim base style).1 = ⟨base, false⟩ := by
  have hfree : ¬s.contains (style.format base) = true := mt List.contains_iff_mem.mp h
  rw [claim, if_neg hfree]

/-- A claim of a name that is in use gives the base with the least free number. -/
theorem claim_eq_of_mem {base : String} {style : NameStyle} {s : NameSupply}
    (h : style.format base ∈ s.used) :
    ∃ n, Search s.used (fun i => style.format (numbered base i)) 2 n ∧ n ≤ s.used.length + 2 ∧
      (s.claim base style).1 = ⟨numbered base n, true⟩ := by
  have htaken : s.contains (style.format base) = true := List.contains_iff_mem.mpr h
  refine ⟨freeNumber s.used fun i => style.format (numbered base i),
    search_freeNumber (NameStyle.format_numbered_injective style base), ?_, ?_⟩
  · rw [Nat.add_comm]
    exact firstFree_le _ _ _ _
  · rw [claim, if_pos htaken]

/-! ## Runs -/

/-- Claims several bases, each in a style of its own: what each claim gives with the style that it
was made in, and the supply after all of them. -/
def claimAll : List (String × NameStyle) → NameSupply → List (NameStyle × Claimed) × NameSupply
  | [], s => ([], s)
  | (base, style) :: calls, s =>
    let (claimed, s) := s.claim base style
    let (more, s) := claimAll calls s
    ((style, claimed) :: more, s)

def formatted (results : List (NameStyle × Claimed)) : List String :=
  results.map fun (style, claimed) => style.format claimed.base

theorem claimAll_concat (base : String) (style : NameStyle) :
    ∀ (calls : List (String × NameStyle)) (s : NameSupply),
      claimAll (calls ++ [(base, style)]) s =
        ((claimAll calls s).1 ++ [(style, ((claimAll calls s).2.claim base style).1)],
          ((claimAll calls s).2.claim base style).2)
  | [], _ => rfl
  | (first, firstStyle) :: calls, s => by
    have ih := claimAll_concat base style calls (s.claim first firstStyle).2
    simp only [List.cons_append, claimAll, ih]

theorem length_claimAll : ∀ (calls : List (String × NameStyle)) (s : NameSupply),
    (claimAll calls s).1.length = calls.length
  | [], _ => rfl
  | (base, style) :: calls, s => congrArg (· + 1) (length_claimAll calls (s.claim base style).2)

/-- After a run, the names in use are those that the run gave and those that were in use before. -/
theorem used_claimAll (s : NameSupply) (calls : List (String × NameStyle)) :
    (claimAll calls s).2.used = (formatted (claimAll calls s).1).reverse ++ s.used := by
  induction calls using List.reverseRecOn with
  | nil => rfl
  | append_singleton calls call ih =>
    obtain ⟨base, style⟩ := call
    obtain ⟨-, hused, -⟩ := claim_spec base style (claimAll calls s).2
    rw [claimAll_concat, hused, ih]
    simp [formatted]

/-- A run leaves every name in use once. -/
theorem nodup_used_claimAll {s : NameSupply} (h : s.used.Nodup)
    (calls : List (String × NameStyle)) : (claimAll calls s).2.used.Nodup := by
  induction calls using List.reverseRecOn with
  | nil => exact h
  | append_singleton calls call ih =>
    obtain ⟨base, style⟩ := call
    obtain ⟨hfree, hused, -⟩ := claim_spec base style (claimAll calls s).2
    rw [claimAll_concat, hused]
    exact List.nodup_cons.mpr ⟨hfree, ih⟩

/-- **Claims.** After any claims from an empty supply, the formatted names that they gave all
differ, and the supply has exactly these in use. The next claim gives the base that is asked for,
not renamed, exactly if its formatted name is not among them. If it is, the search through the
numbers from two on ends, and the claim gives the base with the least number whose formatted name is
not among them, renamed. -/
theorem claims_unique (calls : List (String × NameStyle)) (base : String) (style : NameStyle) :
    let run := claimAll calls empty
    let names := formatted run.1
    let result := (run.2.claim base style).1
    names.Nodup ∧
    (∀ name, run.2.contains name = true ↔ name ∈ names) ∧
    (claimAll (calls ++ [(base, style)]) empty).1 = run.1 ++ [(style, result)] ∧
    (style.format base ∉ names ↔ result = ⟨base, false⟩) ∧
    (style.format base ∈ names ↔
      ∃ n, Search run.2.used (fun i => style.format (numbered base i)) 2 n ∧
        n ≤ calls.length + 2 ∧
        IsLeast {i | 2 ≤ i ∧ style.format (numbered base i) ∉ names} n ∧
        result = ⟨numbered base n, true⟩) := by
  intro run names result
  have hused : run.2.used = names.reverse := by
    have hrun := used_claimAll empty calls
    rwa [show empty.used = [] from rfl, List.append_nil] at hrun
  have hmem (name : String) : name ∈ run.2.used ↔ name ∈ names := by rw [hused, List.mem_reverse]
  have hlength : run.2.used.length = calls.length := by
    rw [hused, List.length_reverse]
    exact (List.length_map _).trans (length_claimAll calls empty)
  have hnodup : names.Nodup := by
    have hrun : run.2.used.Nodup := nodup_used_claimAll (s := empty) List.nodup_nil calls
    rwa [hused, List.nodup_reverse] at hrun
  have hasked : style.format base ∉ names → result = ⟨base, false⟩ := fun h =>
    claim_eq_of_not_mem (mt (hmem _).mp h)
  have hnumbered : style.format base ∈ names → ∃ n,
      Search run.2.used (fun i => style.format (numbered base i)) 2 n ∧ n ≤ calls.length + 2 ∧
        IsLeast {i | 2 ≤ i ∧ style.format (numbered base i) ∉ names} n ∧
        result = ⟨numbered base n, true⟩ := by
    intro h
    obtain ⟨n, hsearch, hle, hresult⟩ := claim_eq_of_mem ((hmem _).mpr h)
    refine ⟨n, hsearch, hlength ▸ hle, ?_, hresult⟩
    simpa only [hmem] using hsearch.isLeast
  refine ⟨hnodup, fun name => ?_, ?_, ⟨hasked, fun hresult h => ?_⟩, ⟨hnumbered, fun h => ?_⟩⟩
  · rw [← hmem]
    exact List.contains_iff_mem
  · rw [claimAll_concat]
  · obtain ⟨n, -, -, -, hnumber⟩ := hnumbered h
    exact Bool.false_ne_true (congrArg Claimed.renamed (hresult.symm.trans hnumber))
  · obtain ⟨n, -, -, -, hnumber⟩ := h
    by_contra hfree
    exact Bool.false_ne_true (congrArg Claimed.renamed ((hasked hfree).symm.trans hnumber))

end NameSupply

end OpenApiClient
