import OpenApiClient.Proofs.Types.Mentioned

/-!
# Every type is defined

A file with types declares no name twice, and all that its declarations and its modules mention of
types is declared in it (`Defines`). This follows from how its declarations are collected
(`Collects`), be they in the one file of types or in modules that have their types for themselves
(`types_declared`).
-/

namespace OpenApiClient

open Code (Declaration SourceFile)

namespace Client

variable {c : Config} {d : Document} {m : ModulePlan}

/-- What holds of a source file with types: its declarations are those of its named schemas and of
its operations, they mention each other only, and every name is declared that the walk over one of
these schemas emits or that a module mentions. -/
structure Defines (c : Config) (d : Document) (u : TypeUnit) : Prop where
  nodup : u.names.Nodup
  origin : ∀ decl ∈ u.declarations,
    (∃ name s, Entries.get? name u.components = some s ∧
      decl.name = (c.typeContext d).typeName name ∧
        decl.definition = (schemaDeclaration (c.typeContext d) name s).value.definition) ∨
    ∃ op ∈ u.operations, decl ∈
      wantedDeclarations (c.typeContext d) op (RequestShape.of (c.typeContext d) op).value
  closed : ∀ decl ∈ u.declarations, decl.definition.Closed u.names
  schema : ∀ name s, Entries.get? name u.components = some s →
    s.Covered (c.typeContext d) u.names
  operation : ∀ op ∈ u.operations, op.operation.Covered (c.typeContext d) u.names
  modules : ∀ m ∈ u.modules, KnowsTypes u.names c d m

/-- How the declarations of a source file with types come about: those of enough named schemas,
exported or not, and after them those of operations. -/
structure Collects (c : Config) (d : Document) (u : TypeUnit) : Prop where
  declarations : ∃ f : Declaration → Declaration,
    (∀ decl, (f decl).name = decl.name ∧ (f decl).definition = decl.definition) ∧
      u.declarations = (componentTypes (c.typeContext d) u.components).map f ++
        operationTypes (c.typeContext d) u.components u.operations
  supplies : Supplies (c.typeContext d) u.components u.operations

theorem collects_of_mem_typeUnits (c : Config) (d : Document) (ms : List ModulePlan) :
    ∀ u ∈ typeUnits c d ms, Collects c d u := by
  intro u hu
  unfold typeUnits at hu
  split_ifs at hu with hfile
  · rw [List.mem_singleton.mp hu]
    refine ⟨⟨id, fun _ => ⟨rfl, rfl⟩, ?_⟩, supplies_schemas _ _⟩
    rw [List.map_id]
    exact declarations_typesUnit c d ms
  · obtain ⟨m, -, rfl⟩ := List.mem_map.mp hu
    have hoperations : (moduleTypes c d m).operations = m.operations := by
      simp [TypeUnit.operations, moduleTypes]
    refine ⟨⟨Declaration.hidden, fun _ => ⟨rfl, rfl⟩, ?_⟩, ?_⟩
    · show (moduleUnit c d m).value.source.declarations = _
      rw [declarations_moduleUnit, if_neg hfile, hoperations]
      rfl
    · rw [hoperations]
      exact supplies_schemasUsedBy (c.typeContext d) m.operations

theorem Collects.names_eq {u : TypeUnit} (h : Collects c d u) :
    u.names = declaredNames (c.typeContext d) u.components u.operations := by
  obtain ⟨f, hf, hdeclarations⟩ := h.declarations
  show u.declarations.map Declaration.name = _
  rw [hdeclarations, declaredNames, declaredTypes, List.map_append, List.map_append, List.map_map]
  simp only [Function.comp_def, hf]

/-- Every declaration is that of the first schema whose name gives its name, or one that an
operation asks for. -/
theorem Collects.cases {u : TypeUnit} (h : Collects c d u) {decl : Declaration}
    (hdecl : decl ∈ u.declarations) :
    (∃ e, u.components.find? (fun e => (c.typeContext d).typeName e.1 == decl.name) = some e ∧
      decl.definition = (schemaDeclaration (c.typeContext d) e.1 e.2).value.definition) ∨
    ∃ op ∈ u.operations, decl ∈
      wantedDeclarations (c.typeContext d) op (RequestShape.of (c.typeContext d) op).value := by
  obtain ⟨f, hf, hdeclarations⟩ := h.declarations
  rw [hdeclarations] at hdecl
  rcases List.mem_append.mp hdecl with hdecl | hdecl
  · obtain ⟨own, hown, rfl⟩ := List.mem_map.mp hdecl
    obtain ⟨e, hfind, rfl⟩ := exists_entry_of_mem_schemaDeclarations hown
    refine Or.inl ⟨e, ?_, (hf _).2⟩
    rwa [(hf _).1]
  · obtain ⟨p, hp, hwanted⟩ := exists_of_mem_operationsDeclarations hdecl
    obtain ⟨op, hop, rfl⟩ := List.mem_map.mp hp
    exact Or.inr ⟨op, hop, hwanted⟩

/-- Every file with types defines them. -/
theorem Collects.defines {u : TypeUnit} (h : Collects c d u) : Defines c d u := by
  have hnames := h.names_eq
  constructor
  case nodup =>
    rw [hnames]
    exact nodup_declaredNames
  case origin =>
    intro decl hdecl
    rcases h.cases hdecl with ⟨e, hfind, hdefinition⟩ | hwanted
    · have hname := List.find?_some hfind
      exact Or.inl ⟨e.1, e.2, get?_of_find?_typeName hfind, (eq_of_beq hname).symm, hdefinition⟩
    · exact Or.inr hwanted
  case closed =>
    intro decl hdecl
    rw [hnames]
    rcases h.cases hdecl with ⟨e, hfind, hdefinition⟩ | ⟨op, hop, hwanted⟩
    · rw [hdefinition]
      exact closed_schemaDeclaration e.1
        (h.supplies.schema e.1 e.2 (get?_of_find?_typeName hfind)).covered
    · exact closed_wantedDeclarations (fun s hs => (h.supplies.operation op hop s hs).covered)
        (fun _ hd => name_mem_declaredNames hop hd) decl hwanted
  case schema =>
    intro name s hs
    rw [hnames]
    exact (h.supplies.schema name s hs).covered
  case operation =>
    intro op hop s hs
    rw [hnames]
    exact (h.supplies.operation op hop s hs).covered
  case modules =>
    intro m hm
    rw [hnames]
    refine knowsTypes_of_wanted c d m fun op hop decl hdecl => ?_
    exact name_mem_declaredNames (List.mem_flatMap.mpr ⟨m, hm, hop⟩) hdecl

/-! ## All source files -/

def modulePlans (c : Config) (d : Document) : List ModulePlan :=
  (plans c (selected c d)).value

theorem value_sources (c : Config) (d : Document) :
    (sources c d).value =
      (if hasTypesFile c then [(typesUnit c (selected c d) (modulePlans c d)).value] else []) ++
        (if c.generateUtils then [RequestHelper.unit c c.language] else []) ++
        ((modulePlans c d).map fun m => (moduleUnit c (selected c d) m).value) ++
        (if c.generateIndex then [indexUnit c (modulePlans c d)] else []) := by
  have hmodules := Noted.value_each (moduleUnit c (selected c d)) (modulePlans c d)
  simp only [sources, units, Noted.value_bind]
  split_ifs <;> simp only [Noted.value_bind, Noted.value_pure, modulePlans] at hmodules ⊢ <;>
    rw [hmodules]

theorem nodup_typeNames_helper (c : Config) (l : Language) :
    (RequestHelper.unit c l).source.typeNames.Nodup := by
  cases l with
  | typeScript =>
    show ["RequestConfig", "ApiResponse<T = any>"].Nodup
    decide
  | javaScript => exact List.nodup_nil

/-- A source file is the request helper, a file with types, or without declarations. -/
theorem mem_sources_cases {u : SourceUnit} (h : u ∈ (sources c d).value) :
    u = RequestHelper.unit c c.language ∨
      (∃ v ∈ typeUnits c (selected c d) (modulePlans c d), v.unit = u) ∨
      u.source.declarations = [] := by
  simp only [value_sources, List.mem_append] at h
  rcases h with ((h | h) | h) | h
  · split_ifs at h with hfile
    · rw [List.mem_singleton.mp h]
      refine Or.inr (Or.inl ⟨fileTypes c (selected c d) (modulePlans c d), ?_, rfl⟩)
      rw [typeUnits, if_pos hfile]
      exact List.mem_cons_self
    · exact absurd h List.not_mem_nil
  · split_ifs at h
    · exact Or.inl (List.mem_singleton.mp h)
    · exact absurd h List.not_mem_nil
  · obtain ⟨m, hm, rfl⟩ := List.mem_map.mp h
    by_cases hfile : hasTypesFile c = true
    · refine Or.inr (Or.inr ?_)
      rw [declarations_moduleUnit, if_pos hfile]
    · refine Or.inr (Or.inl ⟨moduleTypes c (selected c d) m, ?_, rfl⟩)
      rw [typeUnits, if_neg hfile]
      exact List.mem_map.mpr ⟨m, hm, rfl⟩
  · split_ifs at h
    · rw [List.mem_singleton.mp h]
      exact Or.inr (Or.inr rfl)
    · exact absurd h List.not_mem_nil

theorem moduleUnit_mem_sources (h : m ∈ modulePlans c d) :
    (moduleUnit c (selected c d) m).value ∈ (sources c d).value := by
  rw [value_sources]
  exact List.mem_append_left _ (List.mem_append_right _ (List.mem_map.mpr ⟨m, h, rfl⟩))

theorem unit_mem_sources {v : TypeUnit}
    (h : v ∈ typeUnits c (selected c d) (modulePlans c d)) : v.unit ∈ (sources c d).value := by
  unfold typeUnits at h
  split_ifs at h with hfile
  · rw [List.mem_singleton.mp h, value_sources, if_pos hfile]
    exact List.mem_cons_self
  · obtain ⟨m, hm, rfl⟩ := List.mem_map.mp h
    exact moduleUnit_mem_sources hm

theorem exists_typeUnit_of_mem (h : m ∈ modulePlans c d) :
    ∃ v ∈ typeUnits c (selected c d) (modulePlans c d), m ∈ v.modules := by
  unfold typeUnits
  split_ifs
  · exact ⟨_, List.mem_cons_self, h⟩
  · exact ⟨_, List.mem_map.mpr ⟨m, h, rfl⟩, List.mem_cons_self⟩

/-- **Types.** No source file declares a name twice. Those with declarations are the request helper
and the files with types; every module takes its types from one of these, and each of them defines
its types: all names are declared that the walks over its schemas emit, that its declarations are
made of, or that its modules mention in signatures, calls, comments and imports. -/
theorem types_declared (c : Config) (d : Document) :
    (∀ u ∈ (sources c d).value, u.source.typeNames.Nodup) ∧
      (∀ u ∈ (sources c d).value, u.source.declarations ≠ [] →
        u = RequestHelper.unit c c.language ∨
          ∃ v ∈ typeUnits c (selected c d) (modulePlans c d), v.unit = u) ∧
      (∀ m ∈ modulePlans c d, (moduleUnit c (selected c d) m).value ∈ (sources c d).value ∧
        ∃ v ∈ typeUnits c (selected c d) (modulePlans c d), m ∈ v.modules) ∧
      ∀ v ∈ typeUnits c (selected c d) (modulePlans c d),
        v.unit ∈ (sources c d).value ∧ Defines c (selected c d) v := by
  have hdefines : ∀ v ∈ typeUnits c (selected c d) (modulePlans c d),
      Defines c (selected c d) v :=
    fun v hv => (collects_of_mem_typeUnits c (selected c d) (modulePlans c d) v hv).defines
  refine ⟨fun u hu => ?_, fun u hu hne => ?_, fun m hm => ?_, fun v hv => ?_⟩
  · rcases mem_sources_cases hu with rfl | ⟨v, hv, rfl⟩ | hnone
    · exact nodup_typeNames_helper c c.language
    · exact (hdefines v hv).nodup
    · rw [SourceFile.typeNames, hnone]
      exact List.nodup_nil
  · rcases mem_sources_cases hu with hhelper | htypes | hnone
    · exact Or.inl hhelper
    · exact Or.inr htypes
    · exact absurd hnone hne
  · exact ⟨moduleUnit_mem_sources hm, exists_typeUnit_of_mem hm⟩
  · exact ⟨unit_mem_sources hv, hdefines v hv⟩

end Client

end OpenApiClient
