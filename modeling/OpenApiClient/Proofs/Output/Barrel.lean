import OpenApiClient.Proofs.Modules.Functions
import OpenApiClient.Proofs.Names.Aliases
import OpenApiClient.Proofs.Output.Paths
import OpenApiClient.Proofs.Types.Exported

/-!
# What the index exports

The index exports by name what other files export, and modules as objects under aliases. Its
specifiers lead to these files (`resolve?_of_mem`), so the names that it exports are those of types,
those in the request helper, and those of functions or the aliases (`perm_indexNames`).
-/

namespace OpenApiClient

namespace Client

variable (c : Config) (d : Document)

/-- What a specifier lacks of the path that it leads to. -/
def omitted (l : Language) : String :=
  match importExtension l with
  | none => "." ++ l.extension
  | some _ => ""

/-- The source file that a specifier leads to from the root. -/
def resolve? (l : Language) (units : List SourceUnit) (specifier : String) : Option SourceUnit :=
  units.find? fun u => "./" ++ u.path == specifier ++ omitted l

def provided (l : Language) (units : List SourceUnit) : Code.Export → List String
  | .everything specifier =>
    match resolve? l units specifier with
    | some u => u.source.exportedNames
    | none => []
  | .defaultAs _ name => [name]
  | .defaultObject _ => []

/-- The names that the index exports. -/
def indexNames : List String :=
  (indexUnit c (modulePlans c d)).source.exports.flatMap
    (provided c.language (sources c d).value)

variable {c d}

/-- As paths differ from each other, a specifier leads to no other file than it is made for. -/
theorem resolve?_of_mem {u : SourceUnit} (hu : u ∈ (sources c d).value) {specifier : String}
    (h : specifier ++ omitted c.language = "./" ++ u.path) :
    resolve? c.language (sources c d).value specifier = some u := by
  have hfound : (resolve? c.language (sources c d).value specifier).isSome = true := by
    rw [resolve?, List.find?_isSome]
    exact ⟨u, hu, beq_iff_eq.mpr h.symm⟩
  obtain ⟨v, hv⟩ := Option.isSome_iff_exists.mp hfound
  -- whatever is found has the path of `u`
  have hmem : v ∈ (sources c d).value := List.mem_of_find?_eq_some hv
  have hpath : v.path = u.path := by
    have hleads := hv
    rw [resolve?] at hleads
    have hspecifier := List.find?_some hleads
    rw [h, beq_iff_eq] at hspecifier
    exact (String.append_right_inj "./").mp hspecifier
  rw [hv, List.inj_on_of_nodup_map (nodup_paths c d) hmem hu hpath]

theorem provided_everything {u : SourceUnit} (hu : u ∈ (sources c d).value) {specifier : String}
    (h : specifier ++ omitted c.language = "./" ++ u.path) :
    provided c.language (sources c d).value (.everything specifier) = u.source.exportedNames := by
  rw [provided, resolve?_of_mem hu h]

theorem specifier_module (m : ModulePath) (l : Language) :
    m.specifier (importExtension l) ++ omitted l = "./" ++ m.file l.extension := by
  have hindex : (if m.nested then "/index" else "") ++ ("." ++ l.extension) =
      (if m.nested then "/index." else ".") ++ l.extension := by
    cases l <;> cases m.nested <;> rfl
  have hfile : "./" ++ m.stem ++ (if m.nested then "/index" else "") ++ ("." ++ l.extension) =
      "./" ++ m.file l.extension := by
    rw [ModulePath.file, String.append_assoc, hindex, String.append_assoc, String.append_assoc]
  -- the extension stands in the specifier or is omitted
  rw [← hfile]
  cases l with
  | typeScript =>
    show "./" ++ m.stem ++ (if m.nested then "/index" else "") ++ "" ++ ".ts" = _
    rw [String.append_empty]
    rfl
  | javaScript =>
    show "./" ++ m.stem ++ (if m.nested then "/index" else "") ++ ".js" ++ "" = _
    rw [String.append_empty]
    rfl

theorem specifier_helper (l : Language) :
    helperSpecifier l ++ omitted l = "./" ++ RequestHelper.path l := by
  cases l <;> rfl

def helperNames : Language → List String
  | .typeScript => ["RequestConfig", "ApiResponse", "request"]
  | .javaScript => ["request"]

theorem exportedNames_helper (c : Config) (l : Language) :
    (RequestHelper.unit c l).source.exportedNames = helperNames l := by
  cases l with
  | typeScript =>
    show [Code.bareName "RequestConfig", Code.bareName "ApiResponse<T = any>",
      Code.bareName "request<T = any>"] = ["RequestConfig", "ApiResponse", "request"]
    decide
  | javaScript =>
    show [Code.bareName "request"] = ["request"]
    decide

/-! ## The names that the index exports -/

def exportsTypes (c : Config) : Bool :=
  c.language == .typeScript && c.separateTypes

variable (c d)

/-- The names of types that the index exports with the modules. -/
def inlineTypes : List String :=
  match c.exportStyle with
  | .named => (modulePlans c d).flatMap (ownTypeNames c (selected c d))
  | .default => []

/-- The names of types that the index exports, with the file of types or with the modules. -/
def exportedTypes : List String :=
  if exportsTypes c then typesFileNames c (selected c d) (modulePlans c d) else inlineTypes c d

/-- The names of functions that the index exports, or the aliases of modules. -/
def exportedValues : List String :=
  match c.exportStyle with
  | .named => (plannedOperations c d).map PlannedOperation.functionName
  | .default => aliases c.language (modulePlans c d)

/-- The names from the request helper that the index exports. -/
def exportedHelpers : List String :=
  if c.generateUtils then helperNames c.language else []

theorem hasNames_plannedOperations : HasNames c (plannedOperations c d) :=
  (named_plannedOperations c d).hasNames

variable {c d}

theorem hasNames_of_mem {m : ModulePlan} (hm : m ∈ modulePlans c d) : HasNames c m.operations :=
  fun op hop => hasNames_plannedOperations c d op (List.mem_flatMap.mpr ⟨m, hm, hop⟩)

theorem hasTypesFile_of_exportsTypes (h : exportsTypes c = true) : hasTypesFile c = true := by
  rw [hasTypesFile, (Bool.and_eq_true_iff.mp h).2, Bool.true_or]

theorem provided_types (h : exportsTypes c = true) :
    provided c.language (sources c d).value (.everything "./types") =
      typesFileNames c (selected c d) (modulePlans c d) := by
  have hlanguage : c.language = .typeScript := eq_of_beq (Bool.and_eq_true_iff.mp h).1
  have hmem : (typesUnit c (selected c d) (modulePlans c d)).value ∈ (sources c d).value := by
    rw [value_sources, if_pos (hasTypesFile_of_exportsTypes h)]
    exact List.mem_cons_self
  rw [provided_everything hmem, exportedNames_typesUnit (hasNames_plannedOperations c d)]
  show "./types" ++ omitted c.language = "./" ++ typesPath c.language
  rw [hlanguage]
  rfl

theorem provided_helper (h : c.generateUtils = true) :
    provided c.language (sources c d).value (.everything (helperSpecifier c.language)) =
      helperNames c.language := by
  have hmem : RequestHelper.unit c c.language ∈ (sources c d).value := by
    rw [value_sources, if_pos h]
    simp
  rw [provided_everything hmem (specifier_helper c.language), exportedNames_helper]

theorem provided_module {m : ModulePlan} (hm : m ∈ modulePlans c d) :
    provided c.language (sources c d).value
        (.everything (m.place.specifier (importExtension c.language))) =
      ownTypeNames c (selected c d) m ++ ownFunctionNames c m := by
  rw [provided_everything (moduleUnit_mem_sources hm) (specifier_module m.place c.language),
    exportedNames_moduleUnit (hasNames_of_mem hm)]

theorem provided_aliases (units : List SourceUnit) (l : Language) (ms : List ModulePlan) :
    (aliasExports l ms .empty).flatMap (provided l units) = aliases l ms := by
  rw [aliases, List.filterMap_eq_flatMap_toList]
  refine List.flatMap_congr fun e he => ?_
  obtain ⟨source, name, rfl⟩ := eq_defaultAs_of_mem_aliasExports l ms .empty e he
  rfl

theorem inlineTypes_of_exportsTypes (h : exportsTypes c = true) : inlineTypes c d = [] := by
  unfold inlineTypes
  split
  · rw [List.flatMap_eq_nil_iff]
    intro m _
    exact if_pos (hasTypesFile_of_exportsTypes h)
  · rfl

/-- The modules give types and functions, or nothing but their aliases. -/
theorem perm_moduleNames (c : Config) (d : Document) :
    ((moduleExports c (modulePlans c d)).flatMap
      (provided c.language (sources c d).value)).Perm (inlineTypes c d ++ exportedValues c d) := by
  cases hstyle : c.exportStyle with
  | named =>
    have hnames : (moduleExports c (modulePlans c d)).flatMap
        (provided c.language (sources c d).value) = (modulePlans c d).flatMap fun m =>
          ownTypeNames c (selected c d) m ++ m.operations.map PlannedOperation.functionName := by
      rw [moduleExports, hstyle]
      show (List.map _ _).flatMap _ = _
      rw [List.flatMap_map]
      refine List.flatMap_congr fun m hm => ?_
      rw [provided_module hm, ownFunctionNames, hstyle]
    have hvalues : exportedValues c d = (modulePlans c d).flatMap fun m =>
        m.operations.map PlannedOperation.functionName := by
      rw [exportedValues, hstyle]
      exact List.map_flatMap
    rw [hnames, hvalues, inlineTypes, hstyle]
    exact (List.flatMap_append_perm _ _ _).symm
  | default =>
    have hnames : (moduleExports c (modulePlans c d)).flatMap
        (provided c.language (sources c d).value) = aliases c.language (modulePlans c d) := by
      rw [moduleExports, hstyle]
      exact provided_aliases _ c.language (modulePlans c d)
    rw [hnames, inlineTypes, exportedValues, hstyle]
    exact List.Perm.refl _

/-- The index exports types, the request helper, and functions or aliases. -/
theorem perm_indexNames (c : Config) (d : Document) :
    (indexNames c d).Perm (exportedTypes c d ++ (exportedHelpers c ++ exportedValues c d)) := by
  have htypes : (if exportsTypes c then [Code.Export.everything "./types"] else []).flatMap
      (provided c.language (sources c d).value) =
        if exportsTypes c then typesFileNames c (selected c d) (modulePlans c d) else [] := by
    split_ifs with h
    · rw [List.flatMap_singleton, provided_types h]
    · rfl
  have hhelper : (if c.generateUtils then
      [Code.Export.everything (helperSpecifier c.language)] else []).flatMap
        (provided c.language (sources c d).value) = exportedHelpers c := by
    unfold exportedHelpers
    split_ifs with h
    · rw [List.flatMap_singleton, provided_helper h]
    · rfl
  have hindex : indexNames c d =
      (if exportsTypes c then typesFileNames c (selected c d) (modulePlans c d) else []) ++
        exportedHelpers c ++ (moduleExports c (modulePlans c d)).flatMap
          (provided c.language (sources c d).value) := by
    rw [← htypes, ← hhelper, ← List.flatMap_append, ← List.flatMap_append]
    rfl
  have hmodules := perm_moduleNames c d
  rw [hindex, exportedTypes]
  split_ifs with h
  · rw [inlineTypes_of_exportsTypes h, List.nil_append] at hmodules
    rw [List.append_assoc]
    exact (hmodules.append_left _).append_left _
  · -- types of modules come before the request helper, as those of the file of types do
    rw [List.nil_append]
    refine (hmodules.append_left _).trans ?_
    rw [← List.append_assoc, ← List.append_assoc]
    exact List.perm_append_comm.append_right _

end Client

end OpenApiClient
