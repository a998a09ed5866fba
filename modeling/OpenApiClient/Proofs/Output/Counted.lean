import OpenApiClient.Command.Report
import OpenApiClient.Proofs.Modules.Selection
import OpenApiClient.Proofs.Output.Links

/-!
# The number of modules

The report on a written client says how many modules it has. They are not counted where they are
planned: from the files of the client those are taken out whose paths are set aside for the file of
types, the request helper and the index, in whichever of its spellings, and what is left is counted.
That no module has such a path (`file_not_mem_supportPaths`) and every other file has one makes the
number that of the retained groups (`modules_counted`).
-/

namespace OpenApiClient

/-- A module in one language is not written where the types of the other language go: its name has
no dot in it, and another extension than TypeScript is none of types. -/
theorem ModulePath.Proper.file_ne_typesPath {m : ModulePath} (h : m.Proper) {l l' : Language}
    (hl : l ≠ l') : m.file l.extension ≠ Client.typesPath l' := by
  intro heq
  have hlowercase : m.key ++ "." ++ l.extension = Client.typesPath l' := by
    have hplain := Text.lowercaseString_of_isPlain (s := Client.typesPath l')
      (by cases l' <;> decide)
    rw [← ModulePath.lowercaseString_file h l, heq, hplain]
  rw [String.append_assoc] at hlowercase
  cases l with
  | typeScript =>
    cases l' with
    | typeScript => exact hl rfl
    | javaScript =>
      have hend : m.key ++ ".ts" = "types.d" ++ ".ts" := hlowercase
      have hkey : m.key = "types.d" := (String.append_left_inj ".ts").mp hend
      cases h with
      | @file stem hne hchars =>
        rw [key_file hchars] at hkey
        have hdot : '.' ∈ stem.toList := by
          rw [hkey]
          decide
        exact (ne_of_isFileChar (hchars '.' hdot)).2.2 rfl
      | @folder stem =>
        have hslash := slash_mem_key stem
        rw [hkey] at hslash
        exact absurd hslash (by decide)
  | javaScript =>
    have hsuffix : ".js".toList <:+ (Client.typesPath l').toList := by
      rw [← hlowercase, String.toList_append]
      exact List.suffix_append _ _
    cases l' <;> exact absurd hsuffix (by decide)

namespace Client

variable {c : Config} {d : Document} {m : ModulePlan}

/-! ## Support files -/

/-- Whether a file is one of those beside the modules, by its path. -/
def isSupport (l : Language) (f : GeneratedFile) : Bool :=
  (Command.supportPaths l).contains f.path

/-- The source files of a client in front of its modules. -/
def leadingSources (c : Config) (d : Document) : List SourceUnit :=
  (if hasTypesFile c then [(typesUnit c (selected c d) (modulePlans c d)).value] else []) ++
    if c.generateUtils then [RequestHelper.unit c c.language] else []

def moduleSources (c : Config) (d : Document) : List SourceUnit :=
  (modulePlans c d).map fun m => (moduleUnit c (selected c d) m).value

def indexSources (c : Config) (d : Document) : List SourceUnit :=
  if c.generateIndex then [indexUnit c (modulePlans c d)] else []

theorem files_eq (c : Config) (d : Document) :
    (generate c d).files = (leadingSources c d).map SourceUnit.file ++
      (moduleSources c d).map SourceUnit.file ++ (indexSources c d).map SourceUnit.file := by
  rw [generate, value_sources, List.map_append, List.map_append]
  rfl

theorem isSupport_leading {f : GeneratedFile} (hf : f ∈ (leadingSources c d).map SourceUnit.file) :
    isSupport c.language f = true := by
  obtain ⟨u, hu, rfl⟩ := List.mem_map.mp hf
  have hpath : u.path = typesPath c.language ∨ u.path = RequestHelper.path c.language := by
    rcases List.mem_append.mp hu with hu | hu
    · split_ifs at hu
      · rw [List.mem_singleton.mp hu]
        exact Or.inl rfl
      · exact absurd hu List.not_mem_nil
    · split_ifs at hu
      · rw [List.mem_singleton.mp hu]
        exact Or.inr rfl
      · exact absurd hu List.not_mem_nil
  show (Command.supportPaths c.language).contains u.path = true
  rcases hpath with hpath | hpath <;> rw [hpath] <;> cases c.language <;> decide

theorem isSupport_index {f : GeneratedFile} (hf : f ∈ (indexSources c d).map SourceUnit.file) :
    isSupport c.language f = true := by
  obtain ⟨u, hu, rfl⟩ := List.mem_map.mp hf
  unfold indexSources at hu
  split_ifs at hu
  · show (Command.supportPaths c.language).contains u.path = true
    rw [List.mem_singleton.mp hu]
    show (Command.supportPaths c.language).contains ("index." ++ c.language.extension) = true
    cases c.language <;> decide
  · exact absurd hu List.not_mem_nil

/-- No module is written at a path that is set aside for another file. -/
theorem file_not_mem_supportPaths (hm : m ∈ modulePlans c d) :
    m.place.file c.language.extension ∉ Command.supportPaths c.language := by
  have hproper := (placed_modulePlans c d).proper m hm
  have hmodule : m.place.file c.language.extension ∈
      (modulePlans c d).map fun m => m.place.file c.language.extension :=
    List.mem_map.mpr ⟨m, hm, rfl⟩
  obtain ⟨hfront, -, hindex⟩ := List.nodup_append.mp (nodup_allPaths c d)
  obtain ⟨-, -, hleading⟩ := List.nodup_append.mp hfront
  have hneIndex : m.place.file c.language.extension ≠ "index." ++ c.language.extension :=
    hindex _ (List.mem_append_right _ hmodule) _ List.mem_cons_self
  have hneHelper : m.place.file c.language.extension ≠ RequestHelper.path c.language :=
    Ne.symm (hleading _ (List.mem_cons_of_mem _ List.mem_cons_self) _ hmodule)
  have hneTypes (l : Language) : m.place.file c.language.extension ≠ typesPath l := by
    by_cases hl : c.language = l
    · subst hl
      exact Ne.symm (hleading _ List.mem_cons_self _ hmodule)
    · exact hproper.file_ne_typesPath hl
  intro hmem
  rcases List.mem_cons.mp hmem with heq | hmem
  · exact hneIndex heq
  rcases List.mem_cons.mp hmem with heq | hmem
  · exact hneHelper heq
  rcases List.mem_cons.mp hmem with heq | hmem
  · exact hneTypes .typeScript heq
  · exact hneTypes .javaScript (List.mem_singleton.mp hmem)

theorem isSupport_module {f : GeneratedFile} (hf : f ∈ (moduleSources c d).map SourceUnit.file) :
    isSupport c.language f = false := by
  obtain ⟨u, hu, rfl⟩ := List.mem_map.mp hf
  obtain ⟨m, hm, rfl⟩ := List.mem_map.mp hu
  show (Command.supportPaths c.language).contains (m.place.file c.language.extension) = false
  rw [List.contains_eq_mem]
  exact decide_eq_false (file_not_mem_supportPaths hm)

/-! ## Counting -/

/-- A list with a middle part that a test divides from the rest. -/
theorem filter_middle {α : Type} {p : α → Bool} {front middle back : List α}
    (hfront : ∀ a ∈ front, p a = true) (hmiddle : ∀ a ∈ middle, p a = false)
    (hback : ∀ a ∈ back, p a = true) :
    (front ++ middle ++ back).filter p = front ++ back ∧
      (front ++ middle ++ back).filter (fun a => !p a) = middle := by
  rw [List.filter_append, List.filter_append, List.filter_append, List.filter_append]
  constructor
  · have hdropped : middle.filter p = [] := by
      rw [List.filter_eq_nil_iff]
      intro a ha
      simp [hmiddle a ha]
    rw [List.filter_eq_self.mpr hfront, hdropped, List.filter_eq_self.mpr hback, List.append_nil]
  · have hdropped {part : List α} (hpart : ∀ a ∈ part, p a = true) :
        part.filter (fun a => !p a) = [] := by
      rw [List.filter_eq_nil_iff]
      intro a ha
      simp [hpart a ha]
    have hkept : middle.filter (fun a => !p a) = middle := by
      rw [List.filter_eq_self]
      intro a ha
      simp [hmiddle a ha]
    rw [hdropped hfront, hkept, hdropped hback, List.nil_append, List.append_nil]

theorem filter_files (c : Config) (d : Document) :
    (generate c d).files.filter (isSupport c.language) =
        (leadingSources c d).map SourceUnit.file ++ (indexSources c d).map SourceUnit.file ∧
      (generate c d).files.filter (fun f => !isSupport c.language f) =
        (moduleSources c d).map SourceUnit.file := by
  rw [files_eq]
  apply filter_middle
  · intro f hf
    exact isSupport_leading hf
  · intro f hf
    exact isSupport_module hf
  · intro f hf
    exact isSupport_index hf

theorem length_modulePlans (c : Config) (d : Document) :
    (modulePlans c d).length =
      ((selected c d).groups.retain c.outputTags c.excludeTags).length := by
  rw [← Plan.groups_modules c ((selected c d).groups.retain c.outputTags c.excludeTags),
    List.length_map]
  rfl

theorem moduleCount_generate (c : Config) (d : Document) :
    Command.moduleCount c.language (generate c d) =
      ((selected c d).groups.retain c.outputTags c.excludeTags).length := by
  have hfilter := congrArg List.length (filter_files c d).right
  rw [List.length_map, moduleSources, List.length_map, length_modulePlans] at hfilter
  exact hfilter

/-- **Number of modules.** The files whose paths are set aside are the file of types, the request
helper and the index, as far as a client has them; the others are its modules, one for each retained
group, and the report on the client says how many groups these are. They are the retained groups of
the whole document. -/
theorem modules_counted (c : Config) (d : Document) :
    (generate c d).files.filter (isSupport c.language) =
        (leadingSources c d).map SourceUnit.file ++ (indexSources c d).map SourceUnit.file ∧
      (generate c d).files.filter (fun f => !isSupport c.language f) =
        (moduleSources c d).map SourceUnit.file ∧
      Command.moduleCount c.language (generate c d) =
        ((selected c d).groups.retain c.outputTags c.excludeTags).length ∧
      (∀ (folder : String) (saved : SaveReport),
        (Command.writtenReport c d (generate c d) folder saved).output[3]? =
          some ("Modules: " ++
            toString ((selected c d).groups.retain c.outputTags c.excludeTags).length)) ∧
      Command.moduleCount c.language (generate c d) =
        (d.groups.retain c.outputTags c.excludeTags).length := by
  refine ⟨(filter_files c d).left, (filter_files c d).right, moduleCount_generate c d, ?_, ?_⟩
  · intro folder saved
    rw [← moduleCount_generate]
    rfl
  · rw [moduleCount_generate, retain_selected]

/-- A document whose tags are called like the files that are no modules. -/
def supportTags : Document where
  version := "3.0.0"
  info := ⟨"T", "1", none⟩
  paths := [("/a", ⟨[], [(.get, { (default : Operation) with tags := ["types.d"] }),
    (.post, { (default : Operation) with tags := ["Index"] }),
    (.put, { (default : Operation) with tags := ["utils/request"] }),
    (.delete, { (default : Operation) with tags := ["types"] })], by decide⟩)]
  components := none
  tags := []

/-- Each of these tags has a module, in both languages, and all four are counted. -/
theorem modules_counted_supportTags :
    (supportTags.groups.retain [] []).map Prod.fst =
        ["types.d", "Index", "utils/request", "types"] ∧
      ∀ l, Command.moduleCount l (generate { Config.standard with language := l } supportTags) =
        4 := by
  have htags : (supportTags.groups.retain [] []).map Prod.fst =
      ["types.d", "Index", "utils/request", "types"] := by
    decide
  refine ⟨htags, ?_⟩
  intro l
  have hlength := congrArg List.length htags
  rw [List.length_map] at hlength
  obtain ⟨-, -, -, -, hcount⟩ :=
    modules_counted { Config.standard with language := l } supportTags
  exact hcount.trans hlength

end Client

end OpenApiClient
