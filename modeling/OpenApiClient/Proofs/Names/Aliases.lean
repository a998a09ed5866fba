import OpenApiClient.Client.Generate
import OpenApiClient.Proofs.Names.Supply

/-!
# Aliases of modules

An index that exports modules as objects gives each of them an alias of its own, claimed from one
supply (`nodup_aliases`). An alias ends in `api`, perhaps with a number after it
(`endsAsAlias_of_mem_aliases`), so it cannot be taken for something else that the index exports.
-/

namespace OpenApiClient

/-- Whether a name ends as aliases do, in the last letter of `api` or in a digit. -/
def endsAsAlias (name : String) : Bool :=
  name.toList.getLast?.any fun c => c == 'i' || c.isDigit

namespace NameStyle

theorem getLast?_guardStart {cs : List Char} (h : cs ≠ []) :
    (guardStart cs).getLast? = cs.getLast? := by
  cases cs with
  | nil => exact absurd rfl h
  | cons c rest =>
    rw [guardStart]
    split
    · rw [List.getLast?_cons_cons]
    · rfl

theorem endsAsAlias_format_api (stem : String) :
    endsAsAlias (camel.format (stem ++ "_api")) = true := by
  have hbase : stem ++ "_api" = stem ++ "_" ++ "api" := by
    rw [String.append_assoc]
    rfl
  have hwords := Text.words_append_run stem "api" (by decide)
  rw [endsAsAlias, format, String.toList_ofList, hbase, hwords]
  -- without words in the stem `api` is the first word, and is not capitalized
  by_cases hstem : Text.words stem.toList = []
  · rw [hstem]
    rfl
  · have hfurther : camel.further "api".toList = ['A', 'p', 'i'] := rfl
    rw [assemble_concat camel hstem, hfurther, getLast?_guardStart (by simp), List.getLast?_append]
    rfl

theorem endsAsAlias_format_numbered (base : String) (n : Nat) :
    endsAsAlias (camel.format (NameSupply.numbered base n)) = true := by
  obtain ⟨front, hfront⟩ := exists_format_numbered camel base
  have hdigits := Text.isRun_toString n
  rw [endsAsAlias, hfront, List.getLast?_append]
  rcases hlast : (toString n).toList.getLast? with _ | c
  · exact absurd (List.getLast?_eq_none_iff.mp hlast) hdigits.1
  · have hdigit : c.isDigit = true := Text.isDigit_of_mem_toString (List.mem_of_getLast? hlast)
    simp [hdigit]

end NameStyle

/-! ## Aliases -/

def Code.Export.alias? : Code.Export → Option String
  | defaultAs _ name => some name
  | _ => none

namespace Client

def aliases (l : Language) (ms : List ModulePlan) : List String :=
  (aliasExports l ms .empty).filterMap Code.Export.alias?

/-- Aliases are new, differ from each other and end as aliases do. -/
theorem aliasExports_spec (l : Language) (ms : List ModulePlan) (s : NameSupply) :
    ((aliasExports l ms s).filterMap Code.Export.alias?).Nodup ∧
      ∀ name ∈ (aliasExports l ms s).filterMap Code.Export.alias?,
        name ∉ s.used ∧ endsAsAlias name = true := by
  induction ms generalizing s with
  | nil => exact ⟨List.nodup_nil, fun name hname => absurd hname List.not_mem_nil⟩
  | cons m rest ih =>
    obtain ⟨hfree, hused, hbase⟩ := NameSupply.claim_spec (m.place.stem ++ "_api") .camel s
    generalize hclaim : s.claim (m.place.stem ++ "_api") .camel = claim at hfree hused hbase
    obtain ⟨hnodup, hrest⟩ := ih claim.2
    have halias : (aliasExports l (m :: rest) s).filterMap Code.Export.alias? =
        NameStyle.camel.format claim.1.base ::
          (aliasExports l rest claim.2).filterMap Code.Export.alias? := by
      rw [← hclaim]
      rfl
    have hends : endsAsAlias (NameStyle.camel.format claim.1.base) = true := by
      rcases hbase with heq | ⟨n, heq⟩
      · rw [heq]
        exact NameStyle.endsAsAlias_format_api _
      · rw [heq]
        exact NameStyle.endsAsAlias_format_numbered _ n
    rw [halias]
    constructor
    · refine List.nodup_cons.mpr ⟨fun hmem => ?_, hnodup⟩
      exact (hrest _ hmem).1 (hused ▸ List.mem_cons_self)
    · rintro name (_ | ⟨_, hname⟩)
      · exact ⟨hfree, hends⟩
      · refine ⟨fun hmem => ?_, (hrest name hname).2⟩
        exact (hrest name hname).1 (hused ▸ List.mem_cons_of_mem _ hmem)

/-- No two modules have one alias. -/
theorem nodup_aliases (l : Language) (ms : List ModulePlan) : (aliases l ms).Nodup :=
  (aliasExports_spec l ms .empty).1

theorem endsAsAlias_of_mem_aliases {l : Language} {ms : List ModulePlan} {name : String}
    (h : name ∈ aliases l ms) : endsAsAlias name = true :=
  ((aliasExports_spec l ms .empty).2 name h).2

/-- The exports of modules as objects are nothing but their aliases. -/
theorem eq_defaultAs_of_mem_aliasExports (l : Language) (ms : List ModulePlan) (s : NameSupply) :
    ∀ e ∈ aliasExports l ms s, ∃ source name, e = .defaultAs source name := by
  induction ms generalizing s with
  | nil =>
    intro e he
    exact absurd he List.not_mem_nil
  | cons m rest ih =>
    rintro e (_ | ⟨_, he⟩)
    · exact ⟨_, _, rfl⟩
    · exact ih _ e he

end Client

end OpenApiClient
