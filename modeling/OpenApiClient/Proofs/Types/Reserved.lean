import OpenApiClient.Proofs.Names.Reserved
import OpenApiClient.Proofs.Output.Clashes

/-!
# Types that are named by reserved words

Every type is declared under a name of letters, digits and underscores, but nothing keeps the name
of a schema from being a reserved word. A declared name is one exactly if it is that of a named
schema whose only word is reserved in lower case, in a style that writes it so (`types_named`); the
types of operations and of the request helper never are.
-/

namespace OpenApiClient

namespace Client

variable {c : Config} {d : Document} {v : TypeUnit} {name : String}

/-- The operations of a file with types are planned ones. -/
theorem mem_plannedOperations_of_mem_typeUnits
    (hv : v ∈ typeUnits c (selected c d) (modulePlans c d)) {op : PlannedOperation}
    (hop : op ∈ v.operations) : op ∈ plannedOperations c d := by
  unfold typeUnits at hv
  split_ifs at hv
  · rw [List.mem_singleton.mp hv] at hop
    exact hop
  · obtain ⟨m, hm, rfl⟩ := List.mem_map.mp hv
    obtain ⟨m', hm', hop⟩ := List.mem_flatMap.mp hop
    rw [List.mem_singleton.mp hm'] at hop
    exact List.mem_flatMap.mpr ⟨m, hm, hop⟩

/-- The names in the request helper are fixed, and none of them is a reserved word. -/
theorem named_helper {l : Language} (hname : name ∈ (RequestHelper.unit c l).source.typeNames) :
    Code.isWord (Code.bareName name) = true ∧ Code.bareName name ∉ Code.reservedWords := by
  cases l with
  | typeScript =>
    have hnames : ∀ name ∈ ["RequestConfig", "ApiResponse<T = any>"],
        Code.isWord (Code.bareName name) = true ∧
          Code.bareName name ∉ Code.reservedWords := by decide
    exact hnames name hname
  | javaScript => exact absurd hname List.not_mem_nil

/-- A name that a source file declares is one of the request helper, that of a named schema, or
that of a type of an operation. -/
theorem origin_of_mem_typeNames {u : SourceUnit} (hu : u ∈ (sources c d).value)
    (hname : name ∈ u.source.typeNames) :
    name ∈ (RequestHelper.unit c c.language).source.typeNames ∨
      (∃ v ∈ typeUnits c (selected c d) (modulePlans c d), v.unit = u ∧
        ∃ e ∈ v.components, name = c.typeNaming.format e.1) ∨
      ∃ op ∈ plannedOperations c d, name ∈ op.names.typeNames := by
  rcases mem_sources_cases hu with rfl | ⟨v, hv, rfl⟩ | hnone
  · exact Or.inl hname
  · have hdeclared := hname
    rw [← TypeUnit.names, (collects_of_mem_typeUnits _ _ _ v hv).names_eq] at hdeclared
    rcases origin_of_mem_declaredNames hdeclared with hschema | ⟨op, hop, hmem⟩
    · exact Or.inr (Or.inl ⟨v, hv, rfl, hschema⟩)
    · exact Or.inr (Or.inr ⟨op, mem_plannedOperations_of_mem_typeUnits hv hop, hmem⟩)
  · rw [Code.SourceFile.typeNames, hnone] at hname
    exact absurd hname List.not_mem_nil

theorem not_reserved_of_mem_plannedOperations {op : PlannedOperation}
    (hop : op ∈ plannedOperations c d) (hname : name ∈ op.names.typeNames) :
    name ∉ Code.reservedWords := by
  obtain ⟨hbase, hnames⟩ := hasNames_plannedOperations c d op hop
  rw [hnames] at hname
  exact Names.typeNames_not_reserved hbase _ _ name hname

theorem isWord_of_mem_typeNames {u : SourceUnit} (hu : u ∈ (sources c d).value)
    (hname : name ∈ u.source.typeNames) : Code.isWord (Code.bareName name) = true := by
  have hformat (s : String) : Code.isWord (Code.bareName (c.typeNaming.format s)) = true := by
    rw [Code.bareName_of_isWord (NameStyle.isWord_format _ s)]
    exact NameStyle.isWord_format _ s
  rcases origin_of_mem_typeNames hu hname with hhelper | ⟨v, -, -, e, -, rfl⟩ | ⟨op, hop, hmem⟩
  · exact (named_helper hhelper).1
  · exact hformat e.1
  · obtain ⟨base, -, rfl⟩ := (hasNames_plannedOperations c d).exists_format hop hmem
    exact hformat base

theorem reserved_iff_of_mem_typeNames {u : SourceUnit} (hu : u ∈ (sources c d).value)
    (hname : name ∈ u.source.typeNames) :
    Code.bareName name ∈ Code.reservedWords ↔
      ∃ v ∈ typeUnits c (selected c d) (modulePlans c d), v.unit = u ∧
        ∃ e ∈ v.components, name = c.typeNaming.format e.1 ∧ c.typeNaming.Reserves e.1 := by
  have hformat (s : String) : Code.bareName (c.typeNaming.format s) ∈ Code.reservedWords ↔
      c.typeNaming.Reserves s := by
    rw [Code.bareName_of_isWord (NameStyle.isWord_format _ s)]
    exact NameStyle.format_mem_reservedWords_iff _ s
  constructor
  · intro hreserved
    rcases origin_of_mem_typeNames hu hname with
      hhelper | ⟨v, hv, hunit, e, he, rfl⟩ | ⟨op, hop, hmem⟩
    · exact absurd hreserved (named_helper hhelper).2
    · exact ⟨v, hv, hunit, e, he, rfl, (hformat e.1).mp hreserved⟩
    · have hnot := not_reserved_of_mem_plannedOperations hop hmem
      obtain ⟨base, -, rfl⟩ := (hasNames_plannedOperations c d).exists_format hop hmem
      rw [Code.bareName_of_isWord (NameStyle.isWord_format _ base)] at hreserved
      exact absurd hreserved hnot
  · rintro ⟨v, -, -, e, -, rfl, hreserves⟩
    exact (hformat e.1).mpr hreserves

/-- **Names of types.** In every file of a client, every type is declared under a name of letters,
digits and underscores, perhaps with parameters after it. The name is a reserved word exactly if the
file declares a named schema under it that has a single word, reserved in lower case, while types
are in camel or snake case. A file with types declares all of its named schemas, and no type of an
operation has a reserved word for a name. -/
theorem types_named (c : Config) (d : Document) :
    (∀ u ∈ (sources c d).value, ∀ name ∈ u.source.typeNames,
      Code.isWord (Code.bareName name) = true ∧
        (Code.bareName name ∈ Code.reservedWords ↔
          ∃ v ∈ typeUnits c (selected c d) (modulePlans c d), v.unit = u ∧
            ∃ e ∈ v.components, name = c.typeNaming.format e.1 ∧ c.typeNaming.Reserves e.1)) ∧
      (∀ v ∈ typeUnits c (selected c d) (modulePlans c d), v.unit ∈ (sources c d).value ∧
        ∀ e ∈ v.components, c.typeNaming.format e.1 ∈ v.unit.source.typeNames) ∧
      ∀ op ∈ plannedOperations c d, ∀ name ∈ op.names.typeNames, name ∉ Code.reservedWords := by
  refine ⟨?files, ?schemas, ?operations⟩
  case files =>
    intro u hu name hname
    exact ⟨isWord_of_mem_typeNames hu hname, reserved_iff_of_mem_typeNames hu hname⟩
  case schemas =>
    intro v hv
    refine ⟨unit_mem_sources hv, ?_⟩
    intro e he
    rw [← TypeUnit.names, (collects_of_mem_typeUnits _ _ _ v hv).names_eq]
    exact typeName_mem_declaredNames he
  case operations =>
    intro op hop name hname
    exact not_reserved_of_mem_plannedOperations hop hname

/-- In snake case a schema that is called `delete` is declared under that name. -/
theorem delete_declared :
    let c := { Config.standard with
      typeNaming := .snake, includeComments := false, generateUtils := false,
      generateIndex := false }
    (sources c (oneSchema "delete")).value.map (fun u => u.source.typeNames) = [["delete"]] ∧
      (generate c (oneSchema "delete")).files.map GeneratedFile.content =
        ["export type delete = string;\n"] ∧
      "delete" ∈ Code.reservedWords := by
  decide +kernel

end Client

end OpenApiClient
