import OpenApiClient.Proofs.Names.Identifiers
import OpenApiClient.Proofs.Output.Barrel
import OpenApiClient.Proofs.Output.Ways

/-!
# Where generated files point

The specifiers in generated files lead to generated files (`files_linked`): those of the index to
all other files, one after another, and those of types to the file of types, whether a module is a
file or a folder. The way back to the root, followed by a path, leads to that path from any module
(`leadsTo_toRoot`).

The line that imports the request function is the same in all modules. The standard one goes up one
folder, and so leads to the request helper from folders only (`importLine_leads_to_helper_iff`).
-/

namespace OpenApiClient

def leadsTo (path specifier : String) : Place :=
  (Text.splitString '/' specifier).foldl Place.step (Place.ofPath path).dropLast

/-- Whether a specifier in a file leads to the file at another path. -/
def Resolves (path specifier target : String) : Prop :=
  leadsTo path specifier = Place.ofPath target

/-- The text between the first two single quotes of a line. -/
def quoted? (line : String) : Option String :=
  (Text.splitString '\'' line)[1]?

/-- A segment and a step up lead nowhere. -/
theorem IsSegment.up {s : String} (h : IsSegment s) (p : Place) : Place.up (p ++ [s]) = p := by
  have hroot : p ++ [s] ≠ Place.root := by
    intro heq
    have hmem : s ∈ Place.root := heq ▸ List.mem_concat_self
    rw [List.mem_singleton.mp hmem] at h
    exact h.no_slash List.mem_cons_self
  rw [Place.up, List.getLast?_concat]
  dsimp only
  rw [if_neg hroot, if_neg h.ne_up, List.dropLast_concat]

theorem ofPath_joinStrings {names : List String} (hne : names ≠ []) (h : ∀ s ∈ names, IsSegment s) :
    Place.ofPath (Text.joinStrings "/" names) = names := by
  have hsplit := Text.splitString_joinStrings hne fun s hs => (h s hs).no_slash
  have hsteps : stepsOf (Text.joinStrings "/" names) = ([], names) := by
    rw [stepsOf, hsplit]
    split
    · exact absurd rfl (h _ List.mem_cons_self).ne_empty
    · rfl
  rw [Place.ofPath, hsteps, foldl_step h]
  rfl

namespace ModulePath

variable {m : ModulePath}

theorem ofPath_file (h : m.Proper) (l : Language) :
    Place.ofPath (m.file l.extension) = m.segments l.extension := by
  have hroute := h.route l
  rw [← joinStrings_segments, ofPath_joinStrings hroute.ne_nil hroute.isSegment]

/-- From the file of a module, the way back to the root leads to the path that follows it. -/
theorem leadsTo_toRoot (h : m.Proper) (l : Language) {names : List String} (hne : names ≠ [])
    (hnames : ∀ s ∈ names, IsSegment s) :
    leadsTo (m.file l.extension) (m.toRoot ++ Text.joinStrings "/" names) = names := by
  have hsplit := Text.splitString_joinStrings hne fun s hs => (hnames s hs).no_slash
  have hroute := h.route l
  rw [leadsTo, ofPath_file h]
  rw [segments] at hroute ⊢
  rw [toRoot]
  split
  · rw [if_pos ‹_›] at hroute
    have hstem : IsSegment m.stem := hroute.isSegment _ List.mem_cons_self
    rw [show "../" = ".." ++ "/" from rfl, Text.splitString_append_slash, hsplit]
    show names.foldl Place.step (Place.up ([] ++ [m.stem])) = names
    rw [hstem.up, foldl_step hnames]
    rfl
  · rw [show "./" = "." ++ "/" from rfl, Text.splitString_append_slash, hsplit]
    show names.foldl Place.step [] = names
    rw [foldl_step hnames]
    rfl

end ModulePath

def Code.Export.source? : Code.Export → Option String
  | everything source => some source
  | defaultAs source _ => some source
  | defaultObject _ => none

namespace Client

variable {c : Config} {d : Document} {m : ModulePlan}

/-! ## The index -/

/-- The paths of the files that the index does not export. -/
def notIndexed (l : Language) : List String :=
  match l with
  | .typeScript => ["index.ts"]
  | .javaScript => [typesPath .javaScript, "index.js"]

/-- Where an export of the index leads to from the root. -/
def exportTarget? (l : Language) (e : Code.Export) : Option String :=
  e.source?.map fun source => source ++ omitted l

theorem map_exportTarget?_aliasExports (l : Language) (ms : List ModulePlan) (s : NameSupply) :
    (aliasExports l ms s).map (exportTarget? l) =
      ms.map fun m => some ("./" ++ m.place.file l.extension) := by
  induction ms generalizing s with
  | nil => rfl
  | cons m rest ih =>
    rw [aliasExports, List.map_cons, List.map_cons, ih, exportTarget?]
    exact congrArg (· :: _) (congrArg some (specifier_module m.place l))

theorem map_exportTarget?_moduleExports (c : Config) (ms : List ModulePlan) :
    (moduleExports c ms).map (exportTarget? c.language) =
      ms.map fun m => some ("./" ++ m.place.file c.language.extension) := by
  unfold moduleExports
  split
  · rw [List.map_map]
    exact List.map_congr_left fun m _ => congrArg some (specifier_module m.place c.language)
  · exact map_exportTarget?_aliasExports c.language ms .empty

theorem nodup_allPaths (c : Config) (d : Document) :
    (allPaths c.language (modulePlans c d)).Nodup :=
  List.Nodup.of_map Text.lowercaseString
    (nodup_lowercase_allPaths (placed_modulePlans c d) c.language)

theorem file_not_mem_notIndexed (hm : m ∈ modulePlans c d) :
    m.place.file c.language.extension ∉ notIndexed c.language := by
  have hnodup := nodup_allPaths c d
  have hmem : m.place.file c.language.extension ∈
      (modulePlans c d).map fun m => m.place.file c.language.extension :=
    List.mem_map.mpr ⟨m, hm, rfl⟩
  obtain ⟨hfront, -, hindex⟩ := List.nodup_append.mp hnodup
  have hne : m.place.file c.language.extension ≠ "index." ++ c.language.extension :=
    hindex _ (List.mem_append_right _ hmem) _ List.mem_cons_self
  have htypes : m.place.file c.language.extension ≠ typesPath c.language :=
    Ne.symm ((List.nodup_append.mp hfront).2.2 _ List.mem_cons_self _ hmem)
  intro hleft
  generalize m.place.file c.language.extension = path at hne htypes hleft
  cases hlanguage : c.language with
  | typeScript =>
    rw [hlanguage] at hleft hne
    exact hne (List.mem_singleton.mp hleft)
  | javaScript =>
    rw [hlanguage] at hleft hne htypes
    rcases List.mem_cons.mp hleft with heq | hleft
    · exact htypes heq
    · exact hne (List.mem_singleton.mp hleft)

/-! Which files the index exports, and which files its exports lead to, part by part. -/

theorem filter_path_types (c : Config) (d : Document) (ms : List ModulePlan) :
    ((if hasTypesFile c then [(typesUnit c d ms).value] else []).map SourceUnit.path).filter
        (fun path => path ∉ notIndexed c.language) =
      if exportsTypes c then ["types.ts"] else [] := by
  have hpath : (typesUnit c d ms).value.path = typesPath c.language := rfl
  unfold hasTypesFile exportsTypes
  cases hlanguage : c.language with
  | typeScript =>
    rw [hlanguage] at hpath
    cases c.separateTypes
    · rfl
    · simp [hpath, notIndexed, typesPath]
  | javaScript =>
    rw [hlanguage] at hpath
    simp [hpath, notIndexed]

theorem filter_path_modules (c : Config) (d : Document) :
    (((modulePlans c d).map fun m => (moduleUnit c (selected c d) m).value).map
        SourceUnit.path).filter (fun path => path ∉ notIndexed c.language) =
      (modulePlans c d).map fun m => m.place.file c.language.extension := by
  rw [List.map_map]
  apply List.filter_eq_self.mpr
  intro path hpath
  obtain ⟨m, hm, rfl⟩ := List.mem_map.mp hpath
  exact decide_eq_true (file_not_mem_notIndexed hm)

theorem filter_path_helper (c : Config) :
    ((if c.generateUtils then [RequestHelper.unit c c.language] else []).map
        SourceUnit.path).filter (fun path => path ∉ notIndexed c.language) =
      if c.generateUtils then [RequestHelper.path c.language] else [] := by
  have hpath : (RequestHelper.unit c c.language).path = RequestHelper.path c.language := rfl
  have hkept : RequestHelper.path c.language ∉ notIndexed c.language := by
    cases c.language <;> decide
  split_ifs
  · simp [hpath, hkept]
  · rfl

theorem filter_path_index (c : Config) (ms : List ModulePlan) :
    ((if c.generateIndex then [indexUnit c ms] else []).map SourceUnit.path).filter
        (fun path => path ∉ notIndexed c.language) = [] := by
  have hpath : (indexUnit c ms).path = "index." ++ c.language.extension := rfl
  have hleft : "index." ++ c.language.extension ∈ notIndexed c.language := by
    cases c.language <;> decide
  split_ifs
  · simp [hpath, hleft]
  · rfl

theorem map_exportTarget?_types (c : Config) :
    (if exportsTypes c then [Code.Export.everything "./types"] else []).map
        (exportTarget? c.language) =
      (if exportsTypes c then ["types.ts"] else []).map fun path => some ("./" ++ path) := by
  split_ifs with h
  · have hlanguage : c.language = .typeScript := eq_of_beq (Bool.and_eq_true_iff.mp h).1
    rw [hlanguage]
    rfl
  · rfl

theorem map_exportTarget?_helper (c : Config) :
    (if c.generateUtils then [Code.Export.everything (helperSpecifier c.language)] else []).map
        (exportTarget? c.language) =
      (if c.generateUtils then [RequestHelper.path c.language] else []).map
        fun path => some ("./" ++ path) := by
  split_ifs
  · exact congrArg (fun s => [some s]) (specifier_helper c.language)
  · rfl

theorem exports_indexUnit (c : Config) (ms : List ModulePlan) :
    (indexUnit c ms).source.exports =
      (if exportsTypes c then [.everything "./types"] else []) ++
        (if c.generateUtils then [.everything (helperSpecifier c.language)] else []) ++
          moduleExports c ms :=
  rfl

/-- The index exports all files but those that it leaves out, in their order. -/
theorem map_exportTarget?_index (c : Config) (d : Document) :
    (indexUnit c (modulePlans c d)).source.exports.map (exportTarget? c.language) =
      (((generate c d).files.map GeneratedFile.path).filter fun path =>
        path ∉ notIndexed c.language).map fun path => some ("./" ++ path) := by
  rw [map_path_files, value_sources]
  simp only [List.map_append, List.filter_append, filter_path_types, filter_path_modules,
    filter_path_helper, filter_path_index, List.append_nil]
  rw [exports_indexUnit, List.map_append, List.map_append, map_exportTarget?_types,
    map_exportTarget?_helper, map_exportTarget?_moduleExports, List.map_map]
  rfl

/-- What the index exports as objects are the aliases of the modules, if it has any. -/
theorem filterMap_alias?_index (c : Config) (ms : List ModulePlan) :
    (indexUnit c ms).source.exports.filterMap Code.Export.alias? =
      match c.exportStyle with
      | .named => []
      | .default => aliases c.language ms := by
  have hnone (b : Bool) (source : String) :
      (if b then [Code.Export.everything source] else []).filterMap Code.Export.alias? = [] := by
    cases b <;> rfl
  rw [exports_indexUnit, List.filterMap_append, List.filterMap_append, hnone, hnone]
  unfold moduleExports
  cases c.exportStyle with
  | named => simp [Code.Export.alias?]
  | default => rfl

theorem exists_format_of_mem_aliasExports {l : Language} {ms : List ModulePlan} {s : NameSupply}
    {name : String} (h : name ∈ (aliasExports l ms s).filterMap Code.Export.alias?) :
    ∃ base, name = NameStyle.camel.format base := by
  induction ms generalizing s with
  | nil => exact absurd h List.not_mem_nil
  | cons m rest ih =>
    rcases List.mem_cons.mp h with rfl | h
    · exact ⟨_, rfl⟩
    · exact ih h

/-- The way in which an alias ends keeps it from being reserved. -/
theorem isDeclarable_of_mem_aliases {l : Language} {ms : List ModulePlan} {name : String}
    (h : name ∈ aliases l ms) : Code.IsDeclarable name := by
  obtain ⟨base, hbase⟩ := exists_format_of_mem_aliasExports h
  have hends := endsAsAlias_of_mem_aliases h
  constructor
  case word =>
    rw [hbase]
    exact NameStyle.isWord_format .camel base
  case not_reserved =>
    intro hmem
    have hwords : ∀ word ∈ Code.reservedWords, endsAsAlias word = false := by decide
    rw [hwords name hmem] at hends
    cases hends
  case ne_request =>
    rintro rfl
    exact absurd hends (by decide)

/-! ## The file of types -/

/-- What the specifier of the file of types lacks of its path. -/
def typesEnding : Language → String
  | .typeScript => ".ts"
  | .javaScript => ".d.ts"

theorem resolves_typesModule (h : m.place.Proper) (l : Language) :
    Resolves (m.place.file l.extension) (typesModule m ++ typesEnding l) (typesPath l) := by
  have hsegment : ∀ s ∈ [typesPath l], IsSegment s := by
    intro s hs
    rw [List.mem_singleton.mp hs]
    cases l <;> exact IsSegment.of_mem (c := 't') (by decide) (by decide) (by decide) (by decide)
  have hplace := ofPath_joinStrings (List.cons_ne_nil _ _) hsegment
  have hleads := ModulePath.leadsTo_toRoot h l (List.cons_ne_nil _ _) hsegment
  have hspecifier : typesModule m ++ typesEnding l =
      m.place.toRoot ++ Text.joinStrings "/" [typesPath l] := by
    rw [typesModule, String.append_assoc]
    cases l <;> rfl
  rw [Resolves, hspecifier, hleads]
  exact hplace.symm

theorem exists_path_types (h : hasTypesFile c = true) :
    ∃ f ∈ (generate c d).files, f.path = typesPath c.language := by
  have hmem : (typesUnit c (selected c d) (modulePlans c d)).value ∈ (sources c d).value := by
    rw [value_sources, if_pos h]
    exact List.mem_cons_self
  exact ⟨_, List.mem_map.mpr ⟨_, hmem, rfl⟩, rfl⟩

/-- Types are imported only if there is a file of types. -/
theorem hasTypesFile_of_mem_imports {i : Code.Import}
    (h : .names i ∈ (moduleUnit c d m).value.source.imports) : hasTypesFile c = true := by
  cases hlanguage : c.language with
  | javaScript => simp [hasTypesFile, hlanguage]
  | typeScript =>
    cases hseparate : c.separateTypes with
    | true => simp [hasTypesFile, hseparate]
    | false =>
      simp only [moduleUnit, moduleSource, hlanguage, hseparate, Noted.value_bind,
        Noted.value_pure, Code.SourceFile.addImportLine] at h
      split_ifs at h <;> simp at h

theorem quoted?_append (before s after : String) (hbefore : '\'' ∉ before.toList)
    (hs : '\'' ∉ s.toList) :
    quoted? (before ++ "'" ++ s ++ "'" ++ after) = some s := by
  have htext : (before ++ "'" ++ s ++ "'" ++ after).toList =
      before.toList ++ '\'' :: (s.toList ++ '\'' :: after.toList) := by
    simp only [String.toList_append, List.append_assoc]
    rfl
  rw [quoted?, Text.splitString, htext, Text.splitOn_append hbefore, Text.splitOn_append hs]
  simp

theorem quoted?_typeLine {op : PlannedOperation} {shape : RequestShape} {line : String}
    (h : line ∈ op.typeLines shape (.commented (typesModule m))) :
    quoted? line = some (typesModule m) := by
  have hmodule : '\'' ∉ (typesModule m).toList := by
    unfold typesModule ModulePath.toRoot
    split <;> decide
  have hopening : "import('" = "import(" ++ "'" := rfl
  have hclosing : "')." = "'" ++ ")." := rfl
  have hnames : op.names.requestType ∈ [op.names.requestType, op.names.responseType] ∧
      op.names.responseType ∈ [op.names.requestType, op.names.responseType] := by simp
  obtain ⟨name, -, rfl | rfl⟩ := exists_of_mem_typeLines (fun _ => hnames.1) hnames.2 _ line h
  · have hquoted := quoted?_append "@param \x7bimport(" (typesModule m)
      (")." ++ name ++ "\x7d " ++ argumentName) (by decide) hmodule
    rw [typeReference, hopening, hclosing]
    simp only [← String.append_assoc] at hquoted ⊢
    exact hquoted
  · have hquoted := quoted?_append "@returns \x7bPromise<import(" (typesModule m)
      (")." ++ name ++ ">\x7d") (by decide) hmodule
    rw [typeReference, hopening, hclosing]
    simp only [← String.append_assoc] at hquoted ⊢
    exact hquoted

/-! ## All links -/

/-- What holds of files that point at each other: the index exports all other files by specifiers
that lead to them, once each and in their order, under aliases that can be declared; and every
module has a specifier that leads to the file of types wherever it names types from there. -/
structure Linked (c : Config) (d : Document) : Prop where
  paths : ((generate c d).files.map GeneratedFile.path).Nodup
  index : c.generateIndex = true →
    (indexUnit c (modulePlans c d)).file ∈ (generate c d).files
  modules : ∀ m ∈ modulePlans c d,
    (moduleUnit c (selected c d) m).value.file ∈ (generate c d).files
  exports : (indexUnit c (modulePlans c d)).source.exports.map (exportTarget? c.language) =
    (((generate c d).files.map GeneratedFile.path).filter fun path =>
      path ∉ notIndexed c.language).map fun path => some ("./" ++ path)
  exported : ∀ e ∈ (indexUnit c (modulePlans c d)).source.exports,
    ∃ target, exportTarget? c.language e = some target ∧
      ∃ f ∈ (generate c d).files, Resolves (indexUnit c (modulePlans c d)).path target f.path
  imports : ∀ m ∈ modulePlans c d, ∀ i,
    .names i ∈ (moduleUnit c (selected c d) m).value.source.imports →
      Resolves (m.place.file c.language.extension) (i.source ++ typesEnding c.language)
          (typesPath c.language) ∧
        ∃ f ∈ (generate c d).files, f.path = typesPath c.language
  comments : ∀ m ∈ modulePlans c d, ∀ op ∈ m.operations, ∀ shape,
    ∀ line ∈ op.typeLines shape (typingOf c m), ∃ source, quoted? line = some source ∧
      Resolves (m.place.file c.language.extension) (source ++ typesEnding c.language)
          (typesPath c.language) ∧
        ∃ f ∈ (generate c d).files, f.path = typesPath c.language
  nodup_aliases : ((indexUnit c (modulePlans c d)).source.exports.filterMap
    Code.Export.alias?).Nodup
  isDeclarable : ∀ name ∈ (indexUnit c (modulePlans c d)).source.exports.filterMap
    Code.Export.alias?, Code.IsDeclarable name

/-- From the index, a path leads to the file that has it. -/
theorem resolves_index {f : GeneratedFile} (hf : f ∈ (generate c d).files) (l : Language) :
    Resolves ("index." ++ l.extension) ("./" ++ f.path) f.path := by
  have hindex : ModulePath.Proper ⟨"index", false⟩ :=
    ModulePath.Proper.file (by decide) (List.all_eq_true.mp (by decide))
  obtain ⟨names, hnames, hpath⟩ := exists_route_of_mem_files hf
  rw [Resolves, hpath, ofPath_joinStrings hnames.ne_nil hnames.isSegment]
  exact ModulePath.leadsTo_toRoot hindex l hnames.ne_nil hnames.isSegment

/-- **Links.** The files of every client point at each other. -/
theorem files_linked (c : Config) (d : Document) : Linked c d := by
  have hproper : ∀ m ∈ modulePlans c d, m.place.Proper := (placed_modulePlans c d).proper
  have hexports := map_exportTarget?_index c d
  have haliases := filterMap_alias?_index c (modulePlans c d)
  constructor
  case paths =>
    rw [map_path_files]
    exact nodup_paths c d
  case index =>
    intro hindex
    refine List.mem_map.mpr ⟨_, ?_, rfl⟩
    rw [value_sources, if_pos hindex]
    exact List.mem_concat_self
  case modules =>
    intro m hm
    exact List.mem_map.mpr ⟨_, moduleUnit_mem_sources hm, rfl⟩
  case exports => exact hexports
  case exported =>
    intro e he
    have htarget : exportTarget? c.language e ∈
        (indexUnit c (modulePlans c d)).source.exports.map (exportTarget? c.language) :=
      List.mem_map.mpr ⟨e, he, rfl⟩
    rw [hexports] at htarget
    obtain ⟨path, hpath, heq⟩ := List.mem_map.mp htarget
    obtain ⟨f, hf, rfl⟩ := List.mem_map.mp (List.mem_filter.mp hpath).1
    exact ⟨_, heq.symm, f, hf, resolves_index hf c.language⟩
  case imports =>
    intro m hm i hi
    have hsource : i.source = typesModule m := by rw [imports_moduleUnit hi]; rfl
    rw [hsource]
    exact ⟨resolves_typesModule (hproper m hm) c.language,
      exists_path_types (hasTypesFile_of_mem_imports hi)⟩
  case comments =>
    intro m hm op hop shape line hline
    unfold typingOf at hline
    cases hlanguage : c.language with
    | typeScript =>
      rw [hlanguage] at hline
      exact absurd hline List.not_mem_nil
    | javaScript =>
      rw [hlanguage] at hline
      have hfile : hasTypesFile c = true := by simp [hasTypesFile, hlanguage]
      refine ⟨_, quoted?_typeLine hline, resolves_typesModule (hproper m hm) _, ?_⟩
      have htypes := exists_path_types (d := d) hfile
      rwa [hlanguage] at htypes
  case nodup_aliases =>
    rw [haliases]
    split
    · exact List.nodup_nil
    · exact nodup_aliases c.language (modulePlans c d)
  case isDeclarable =>
    intro name hname
    rw [haliases] at hname
    split at hname
    · exact absurd hname List.not_mem_nil
    · exact isDeclarable_of_mem_aliases hname

/-! ## The request function -/

/-- The line that imports the request function in a standard configuration. -/
def standardImport : String :=
  "import \x7b request \x7d from '../utils/request';"

theorem importLine_eq_standard
    (htemplate : c.importTemplate = Config.standard.importTemplate ∨
      Text.isBlank c.importTemplate = true)
    (hpath : c.requestUtilPath = Config.standard.requestUtilPath) :
    c.importLine = standardImport := by
  rw [Config.importLine]
  rcases htemplate with htemplate | hblank
  · rw [htemplate, if_neg (by decide)]
    rfl
  · rw [if_pos hblank, hpath]
    rfl

/-- The request function is imported first. -/
theorem head?_imports (h : Text.isBlank c.importLine = false) :
    (moduleUnit c d m).value.source.imports.head? = some (.verbatim c.importLine) := by
  have hstart : (Code.SourceFile.addImportLine c.importLine
      { exports := defaultExport c m }).imports = [.verbatim c.importLine] := by
    rw [Code.SourceFile.addImportLine, h]
    rfl
  simp only [moduleUnit, moduleSource, Noted.value_bind, Noted.value_pure]
  cases c.language with
  | javaScript => exact congrArg List.head? hstart
  | typeScript =>
    cases c.separateTypes with
    | true =>
      simp only [Noted.value_pure, Code.SourceFile.addImport]
      split_ifs
      · exact congrArg List.head? hstart
      · rw [hstart]
        rfl
    | false =>
      simp only [Noted.value_bind, Noted.value_pure]
      exact congrArg List.head? hstart

theorem exists_path_helper (h : c.generateUtils = true) :
    ∃ f ∈ (generate c d).files, f.path = RequestHelper.path c.language := by
  have hmem : RequestHelper.unit c c.language ∈ (sources c d).value := by
    rw [value_sources, if_pos h]
    simp
  exact ⟨_, List.mem_map.mpr ⟨_, hmem, rfl⟩, rfl⟩

def helperSegments (l : Language) : List String :=
  ["utils", "request." ++ l.extension]

theorem joinStrings_helperSegments (l : Language) :
    Text.joinStrings "/" (helperSegments l) = RequestHelper.path l := by
  cases l <;> rfl

theorem helperSegments_ne_nil (l : Language) : helperSegments l ≠ [] :=
  List.cons_ne_nil _ _

theorem isSegment_of_mem_helperSegments (l : Language) : ∀ s ∈ helperSegments l, IsSegment s := by
  have houter : IsSegment "utils" :=
    IsSegment.of_mem (c := 'u') (by decide) (by decide) (by decide) (by decide)
  have hinner : IsSegment ("request." ++ l.extension) := by
    cases l <;> exact IsSegment.of_mem (c := 'r') (by decide) (by decide) (by decide) (by decide)
  intro s hs
  rcases List.mem_cons.mp hs with rfl | hs
  · exact houter
  · rw [List.mem_singleton.mp hs]
    exact hinner

/-- A step up from a file at the root leads out of the client. -/
theorem leadsTo_up_of_not_nested {p : ModulePath} (h : p.Proper) (hflat : p.nested = false)
    (l : Language) :
    leadsTo (p.file l.extension) ("../" ++ RequestHelper.path l) = ".." :: helperSegments l := by
  have hsegments : p.segments l.extension = [p.stem ++ "." ++ l.extension] := by
    rw [ModulePath.segments, hflat]
    rfl
  have hsplit : Text.splitString '/' (RequestHelper.path l) = helperSegments l := by
    rw [← joinStrings_helperSegments]
    exact Text.splitString_joinStrings (helperSegments_ne_nil l)
      fun s hs => (isSegment_of_mem_helperSegments l s hs).no_slash
  rw [leadsTo, ModulePath.ofPath_file h, hsegments, show "../" = ".." ++ "/" from rfl,
    Text.splitString_append_slash, hsplit]
  show (helperSegments l).foldl Place.step [".."] = _
  rw [foldl_step (isSegment_of_mem_helperSegments l)]
  rfl

/-- **The request import.** With the standard line, every module first imports the request function,
and the line leads to the request helper exactly if the module is a folder. From other modules it
leads to none of the files. -/
theorem importLine_leads_to_helper_iff (c : Config) (d : Document) (hutils : c.generateUtils = true)
    (htemplate : c.importTemplate = Config.standard.importTemplate ∨
      Text.isBlank c.importTemplate = true)
    (hpath : c.requestUtilPath = Config.standard.requestUtilPath) :
    (∃ f ∈ (generate c d).files, f.path = RequestHelper.path c.language) ∧
      ∀ m ∈ modulePlans c d,
        (moduleUnit c (selected c d) m).value.source.imports.head? =
            some (.verbatim c.importLine) ∧
          ∃ source, quoted? c.importLine = some source ∧
            (Resolves (m.place.file c.language.extension) (source ++ "." ++ c.language.extension)
              (RequestHelper.path c.language) ↔ m.place.nested = true) ∧
            (m.place.nested = false → ∀ f ∈ (generate c d).files,
              ¬Resolves (m.place.file c.language.extension)
                (source ++ "." ++ c.language.extension) f.path) := by
  have hline := importLine_eq_standard htemplate hpath
  have hblank : Text.isBlank c.importLine = false := by
    rw [hline]
    decide
  have hsource : quoted? c.importLine = some "../utils/request" := by
    have htext : standardImport =
        "import \x7b request \x7d from " ++ "'" ++ "../utils/request" ++ "'" ++ ";" := by decide
    rw [hline, htext]
    exact quoted?_append _ _ ";" (by decide) (by decide)
  have hspecifier : "../utils/request" ++ "." ++ c.language.extension =
      "../" ++ RequestHelper.path c.language := by
    cases c.language <;> rfl
  have hsegments := isSegment_of_mem_helperSegments c.language
  have hhelper : Place.ofPath (RequestHelper.path c.language) = helperSegments c.language := by
    rw [← joinStrings_helperSegments]
    exact ofPath_joinStrings (helperSegments_ne_nil _) hsegments
  refine ⟨exists_path_helper hutils, fun m hm => ⟨head?_imports hblank, _, hsource, ?_, ?_⟩⟩
  · have hproper := (placed_modulePlans c d).proper m hm
    rw [Resolves, hspecifier, hhelper]
    cases hnested : m.place.nested with
    | true =>
      have hroot : "../" ++ RequestHelper.path c.language =
          m.place.toRoot ++ Text.joinStrings "/" (helperSegments c.language) := by
        rw [ModulePath.toRoot, hnested, joinStrings_helperSegments]
        rfl
      rw [hroot, ModulePath.leadsTo_toRoot hproper c.language (helperSegments_ne_nil _) hsegments]
      simp
    | false =>
      rw [leadsTo_up_of_not_nested hproper hnested]
      simp [helperSegments]
  · intro hflat f hf hresolves
    obtain ⟨names, hnames, hpath⟩ := exists_route_of_mem_files hf
    rw [Resolves, hspecifier,
      leadsTo_up_of_not_nested ((placed_modulePlans c d).proper m hm) hflat, hpath,
      ofPath_joinStrings hnames.ne_nil hnames.isSegment] at hresolves
    -- no path of a file has a step up in it
    exact (hnames.isSegment ".." (hresolves ▸ List.mem_cons_self)).ne_up rfl

def oneTag (tag : String) : Document where
  version := "3.0.0"
  info := ⟨"T", "1", none⟩
  paths := [("/a", ⟨[], [(.get, { (default : Operation) with tags := [tag] })],
    List.singleton_sublist.mpr (by simp [Method.all])⟩)]
  components := none
  tags := []
  distinct := List.nodup_singleton _

/-- The request function is imported from the helper in a folder. -/
theorem importLine_leads_to_helper_of_folder :
    Config.standard.generateUtils = true ∧
      ∃ m ∈ modulePlans .standard (oneTag "宠物"), m.place.nested = true ∧
        Resolves (m.place.file "ts") ("../utils/request" ++ "." ++ "ts") "utils/request.ts" := by
  obtain ⟨-, hmodules⟩ :=
    importLine_leads_to_helper_iff .standard (oneTag "宠物") rfl (Or.inl rfl) rfl
  have hplaces : (modulePlans .standard (oneTag "宠物")).map ModulePlan.place =
      [⟨"宠物", true⟩] := by decide +kernel
  obtain ⟨m, hm, hplace⟩ := List.mem_map.mp (hplaces ▸ List.mem_cons_self)
  have hnested : m.place.nested = true := by rw [hplace]
  obtain ⟨-, source, hsource, hresolves, -⟩ := hmodules m hm
  have hquoted : quoted? Config.standard.importLine = some "../utils/request" := by decide +kernel
  obtain rfl := Option.some.inj (hquoted.symm.trans hsource)
  exact ⟨rfl, m, hm, hnested, hresolves.mpr hnested⟩

/-- From a module that is a file the standard line leads out of the client. -/
theorem importLine_leads_out_of_client :
    (modulePlans .standard (oneTag "pets")).map (fun m => m.place.file "ts") = ["pets.ts"] ∧
      quoted? Config.standard.importLine = some "../utils/request" ∧
      leadsTo "pets.ts" "../utils/request.ts" = ["..", "utils", "request.ts"] ∧
      ¬Resolves "pets.ts" "../utils/request.ts" "utils/request.ts" := by
  unfold Resolves
  decide +kernel

end Client

end OpenApiClient
