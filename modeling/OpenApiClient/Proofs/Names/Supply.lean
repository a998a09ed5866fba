import Mathlib.Data.List.Nodup
import Mathlib.Data.List.Perm.Subperm
import OpenApiClient.Proofs.Names.Format

/-!
# Names from a supply

A claim on a supply always gives a name that was not in use, and puts exactly this name in use
(`claim_spec`). Where the base has to be numbered, the numbered names differ from each other, so
among one more of them than there are names in use at least one is free.
-/

namespace OpenApiClient

section FreeNumber

variable (used : List String) (nameOf : Nat → String)

/-- The search stops at a free number, unless all it looked at were taken. -/
theorem firstFree_cases : ∀ fuel n : Nat,
    nameOf (firstFree used nameOf fuel n) ∉ used ∨
      firstFree used nameOf fuel n = n + fuel ∧ ∀ i < fuel, nameOf (n + i) ∈ used
  | 0, n => by simp [firstFree]
  | fuel + 1, n => by
    by_cases hn : used.contains (nameOf n) = true
    · rw [firstFree, if_pos hn]
      rcases firstFree_cases fuel (n + 1) with hfree | ⟨hend, htaken⟩
      · exact Or.inl hfree
      · refine Or.inr ⟨by omega, fun i hi => ?_⟩
        cases i with
        | zero => exact List.contains_iff_mem.mp hn
        | succ i =>
          have := htaken i (by omega)
          rwa [Nat.add_right_comm] at this
    · rw [firstFree, if_neg hn]
      exact Or.inl fun hmem => hn (List.contains_iff_mem.mpr hmem)

variable {used nameOf}

/-- One of as many different names as there are used ones, and one more, is free. -/
theorem freeNumber_not_mem (hinj : Function.Injective nameOf) :
    nameOf (freeNumber used nameOf) ∉ used := by
  rcases firstFree_cases used nameOf used.length 2 with hfree | ⟨hend, htaken⟩
  · exact hfree
  · -- then all numbers that were looked at are taken, and the one after them as well
    intro hmem
    rw [freeNumber, hend] at hmem
    have hnodup : ((List.range (used.length + 1)).map fun i => nameOf (2 + i)).Nodup :=
      List.nodup_range.map fun i j hij => by
        have := hinj hij
        omega
    have hsub : ((List.range (used.length + 1)).map fun i => nameOf (2 + i)) ⊆ used := by
      intro name hname
      obtain ⟨i, hi, rfl⟩ := List.mem_map.mp hname
      rw [List.mem_range] at hi
      rcases Nat.lt_or_ge i used.length with hlt | hge
      · exact htaken i hlt
      · have : i = used.length := by omega
        rwa [this]
    have hlen := (List.subperm_of_subset hnodup hsub).length_le
    rw [List.length_map, List.length_range] at hlen
    omega

end FreeNumber

namespace NameSupply

/-- A claimed name was free and is in use afterwards; its base is the one that was asked for, as it
is or with a number. -/
theorem claim_spec (base : String) (style : NameStyle) (s : NameSupply) :
    style.format (s.claim base style).1.base ∉ s.used ∧
      (s.claim base style).2.used = style.format (s.claim base style).1.base :: s.used ∧
      ((s.claim base style).1.base = base ∨
        ∃ n, (s.claim base style).1.base = numbered base n) := by
  by_cases h : s.contains (style.format base) = true
  · rw [claim, if_pos h]
    exact ⟨freeNumber_not_mem (NameStyle.format_numbered_injective style base), rfl,
      Or.inr ⟨_, rfl⟩⟩
  · rw [claim, if_neg h]
    exact ⟨fun hmem => h (List.contains_iff_mem.mpr hmem), rfl, Or.inl rfl⟩

end NameSupply

end OpenApiClient
