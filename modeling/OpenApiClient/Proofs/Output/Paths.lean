import OpenApiClient.Proofs.Names.Places
import OpenApiClient.Proofs.Output.Segments
import OpenApiClient.Proofs.Types.Defined

/-!
# The paths of generated files

The files of a client do not get in the way of each other (`files_separate`): no two have one path,
none stands where another one needs a folder, and each lies below the folder that is written to.
Every path is a `Route` of one or two segments. Without their extensions, the paths in lower case
are `types`, `utils/request`, `index` and the keys of the modules; those of the modules differ from
each other and are not reserved (`nodup_keys`).
-/

namespace OpenApiClient

/-- The segments of the path of a generated file: the file stands at the root, or in a folder whose
name is told from that of a file at the root by a missing dot or an East Asian character. -/
inductive Route : List String → Prop
  | root {name : String} (segment : IsSegment name) (dot : '.' ∈ name.toList)
      (latin : Text.hasEastAsian name = false) : Route [name]
  | folder {folder name : String} (outer : IsSegment folder) (inner : IsSegment name)
      (apart : '.' ∉ folder.toList ∨ Text.hasEastAsian folder = true) : Route [folder, name]

namespace Route

variable {names others : List String}

theorem ne_nil (h : Route names) : names ≠ [] := by
  cases h <;> simp

theorem isSegment (h : Route names) : ∀ s ∈ names, IsSegment s := by
  cases h with
  | root segment => simpa using segment
  | folder outer inner => simpa using ⟨outer, inner⟩

theorem splitString_eq (h : Route names) :
    Text.splitString '/' (Text.joinStrings "/" names) = names :=
  Text.splitString_joinStrings h.ne_nil fun s hs => (h.isSegment s hs).no_slash

/-- No file stands where another one needs a folder. -/
theorem not_folder (h : Route names) (h' : Route others) (rest : String) :
    Text.joinStrings "/" others ≠ Text.joinStrings "/" names ++ "/" ++ rest := by
  intro heq
  have hsplit := h'.splitString_eq
  rw [heq, ← Text.joinStrings_concat h.ne_nil,
    Text.splitString_concat fun s hs => (h.isSegment s hs).no_slash] at hsplit
  have hrest : Text.splitString '/' rest ≠ [] := by
    rw [Text.splitString, Ne, List.map_eq_nil_iff]
    exact Text.splitOn_ne_nil '/' rest.toList
  have hlength := congrArg List.length hsplit
  have hpos := List.length_pos_of_ne_nil hrest
  rw [List.length_append] at hlength
  cases h with
  | root segment dot latin =>
    cases h' with
    | root =>
      simp only [List.length_singleton] at hlength
      omega
    | folder outer inner apart =>
      -- the file would have the name of the folder
      obtain ⟨hname, -⟩ := List.cons.inj hsplit
      rw [← hname] at apart
      rcases apart with hdot | hscript
      · exact hdot dot
      · rw [latin] at hscript
        exact absurd hscript (by decide)
  | folder =>
    cases h' <;> simp only [List.length_cons, List.length_nil] at hlength <;> omega

end Route

/-! ## Paths of modules -/

theorem IsSegment.of_mem {s : String} {c : Char} (hc : c ∈ s.toList) (hdot : c ≠ '.')
    (hslash : '/' ∉ s.toList) (hbackslash : '\\' ∉ s.toList) : IsSegment s := by
  refine ⟨?_, ?_, ?_, hslash, hbackslash⟩
  · rintro rfl
    exact absurd hc List.not_mem_nil
  · rintro rfl
    exact hdot (List.mem_singleton.mp hc)
  · rintro rfl
    have hdots : ∀ x ∈ "..".toList, x = '.' := by simp
    exact hdot (hdots c hc)

namespace ModulePath

variable {m : ModulePath}

def segments (m : ModulePath) (extension : String) : List String :=
  if m.nested then [m.stem, "index." ++ extension] else [m.stem ++ "." ++ extension]

theorem joinStrings_segments (m : ModulePath) (extension : String) :
    Text.joinStrings "/" (m.segments extension) = m.file extension := by
  have hmiddle : "/index." = "/" ++ "index." := rfl
  unfold segments file
  split
  · rw [hmiddle, String.append_assoc, String.append_assoc, Text.joinStrings_cons _ (by simp),
      String.append_assoc]
    rfl
  · rfl

/-! Names of files are in lower case and hold no mark with a meaning in paths. -/

theorem toNat_of_isFileChar {c : Char} (h : isFileChar c = true) :
    (97 ≤ c.toNat ∧ c.toNat ≤ 122) ∨ (48 ≤ c.toNat ∧ c.toNat ≤ 57) ∨ c.toNat = 45 := by
  rcases Bool.or_eq_true_iff.mp h with hslug | hhyphen
  · rcases Bool.or_eq_true_iff.mp hslug with hlower | hdigit
    · obtain ⟨hge, hle⟩ := Bool.and_eq_true_iff.mp hlower
      exact Or.inl ⟨UInt32.le_iff_toNat_le.mp (of_decide_eq_true hge),
        UInt32.le_iff_toNat_le.mp (of_decide_eq_true hle)⟩
    · exact Or.inr (Or.inl (Char.isDigit_iff_toNat.mp hdigit))
  · rw [eq_of_beq hhyphen]
    exact Or.inr (Or.inr rfl)

theorem ne_of_isFileChar {c : Char} (h : isFileChar c = true) : c ≠ '/' ∧ c ≠ '\\' ∧ c ≠ '.' := by
  refine ⟨?_, ?_, ?_⟩ <;> rintro rfl <;> revert h <;> decide

theorem isPlain_of_isFileChar {cs : List Char} (h : ∀ c ∈ cs, isFileChar c = true) :
    Text.isPlain cs = true := by
  rw [Text.isPlain, List.all_eq_true]
  intro c hc
  have hbounds := toNat_of_isFileChar (h c hc)
  have hupper : ¬(c.val ≥ 'A'.val ∧ c.val ≤ 'Z'.val) := by
    rintro ⟨hge, hle⟩
    have hge : 65 ≤ c.toNat := UInt32.le_iff_toNat_le.mp hge
    have hle : c.toNat ≤ 90 := UInt32.le_iff_toNat_le.mp hle
    omega
  have hlower : c.toLower = c := dif_neg hupper
  have hascii : c.toNat < 0x80 := by omega
  simp [hascii, hlower]

/-- What stands in the name of a module's file with its extension. -/
theorem mem_fileName {stem : String} (h : ∀ c ∈ stem.toList, isFileChar c = true) (l : Language)
    {c : Char} (hc : c ∈ (stem ++ "." ++ l.extension).toList) :
    isFileChar c = true ∨ c = '.' := by
  rw [String.toList_append, String.toList_append, List.mem_append, List.mem_append] at hc
  rcases hc with (hc | hc) | hc
  · exact Or.inl (h c hc)
  · exact Or.inr (List.mem_singleton.mp hc)
  · have hextension : ∀ x ∈ l.extension.toList, isFileChar x = true :=
      List.all_eq_true.mp (by cases l <;> decide)
    exact Or.inl (hextension c hc)

/-- A proper module has a route, whatever the language is. -/
theorem Proper.route (h : m.Proper) (l : Language) : Route (m.segments l.extension) := by
  cases h with
  | @file stem hne hchars =>
    show Route [stem ++ "." ++ l.extension]
    have hmark (mark : Char) (hfile : isFileChar mark = false) (hdot : mark ≠ '.') :
        mark ∉ (stem ++ "." ++ l.extension).toList := by
      intro hmem
      rcases mem_fileName hchars l hmem with hmark | hmark
      · rw [hfile] at hmark
        exact absurd hmark (by decide)
      · exact hdot hmark
    have hs : 's' ∈ (stem ++ "." ++ l.extension).toList := by
      rw [String.toList_append, List.mem_append]
      exact Or.inr (by cases l <;> decide)
    have hdot : '.' ∈ (stem ++ "." ++ l.extension).toList := by simp
    apply Route.root
    · exact IsSegment.of_mem hs (by decide) (hmark '/' (by decide) (by decide))
        (hmark '\\' (by decide) (by decide))
    · exact hdot
    · rw [Text.hasEastAsian, List.any_eq_false]
      intro c hc hscript
      have hge := Text.le_toNat_of_isEastAsian hscript
      rcases mem_fileName hchars l hc with hfile | rfl
      · have hbounds := toNat_of_isFileChar hfile
        omega
      · exact absurd hge (by decide)
  | @folder stem hscript hchars =>
    show Route [stem, "index." ++ l.extension]
    obtain ⟨c, hc, hc'⟩ := List.any_eq_true.mp hscript
    have hdot : c ≠ '.' := by
      rintro rfl
      exact absurd hc' (by decide)
    have hsafe (mark : Char) (hmark : isUnsafe mark = true) : mark ∉ stem.toList := by
      intro hmem
      rw [hchars mark hmem] at hmark
      exact absurd hmark (by decide)
    have hindex : IsSegment ("index." ++ l.extension) := by
      cases l <;> exact IsSegment.of_mem (c := 'i') (by decide) (by decide) (by decide) (by decide)
    exact Route.folder (IsSegment.of_mem hc hdot (hsafe '/' (by decide)) (hsafe '\\' (by decide)))
      hindex (Or.inr hscript)

/-- What tells apart the file of a module from other files where upper and lower case are the
same. -/
def key (m : ModulePath) : String :=
  Plan.stemKey m ++ (if m.nested then "/index" else "")

/-- The stem of a file is in lower case already. -/
theorem key_file {stem : String} (h : ∀ c ∈ stem.toList, isFileChar c = true) :
    key ⟨stem, false⟩ = stem := by
  have hplain : Text.lowercaseString stem = stem :=
    Text.lowercaseString_of_isPlain (isPlain_of_isFileChar h)
  show Text.lowercaseString stem ++ "" = stem
  rw [hplain, String.append_empty]

theorem lowercaseString_file (h : m.Proper) (l : Language) :
    Text.lowercaseString (m.file l.extension) = m.key ++ "." ++ l.extension := by
  cases h with
  | @file stem hne hchars =>
    have hstem : stem.toList.all _ = true := isPlain_of_isFileChar hchars
    rw [key_file hchars]
    apply Text.lowercaseString_of_isPlain
    show Text.isPlain (stem ++ "." ++ l.extension).toList = true
    rw [Text.isPlain, String.toList_append, String.toList_append, List.all_append, List.all_append,
      hstem]
    cases l <;> decide
  | @folder stem hscript hchars =>
    have hrest : ("/index." ++ l.extension).toList = '/' :: ("index." ++ l.extension).toList := by
      cases l <;> rfl
    have happend := Text.lowercaseString_append stem hrest (by decide +kernel)
      (by cases l <;> decide)
    show Text.lowercaseString (stem ++ "/index." ++ l.extension) =
      Text.lowercaseString stem ++ "/index" ++ "." ++ l.extension
    rw [String.append_assoc, happend, String.append_assoc, String.append_assoc]
    cases l <;> rfl

/-! ## Keys -/

theorem slash_not_mem_key {stem : String} (h : ∀ c ∈ stem.toList, isFileChar c = true) :
    '/' ∉ (key ⟨stem, false⟩).toList := by
  rw [key_file h]
  intro hmem
  exact (ne_of_isFileChar (h '/' hmem)).1 rfl

theorem slash_mem_key (stem : String) : '/' ∈ (key ⟨stem, true⟩).toList := by
  show '/' ∈ (Plan.stemKey ⟨stem, true⟩ ++ "/index").toList
  simp

variable {m' : ModulePath}

/-- Modules with one key have one stem, but for upper and lower case. -/
theorem stemKey_eq_of_key_eq (h : m.Proper) (h' : m'.Proper) (heq : m.key = m'.key) :
    Plan.stemKey m = Plan.stemKey m' := by
  cases h with
  | @file stem hne hchars =>
    cases h' with
    | file => exact (String.append_left_inj "").mp heq
    | @folder stem' =>
      have hslash := slash_mem_key stem'
      rw [← heq] at hslash
      exact absurd hslash (slash_not_mem_key hchars)
  | @folder stem =>
    cases h' with
    | file hne hchars =>
      have hslash := slash_mem_key stem
      rw [heq] at hslash
      exact absurd hslash (slash_not_mem_key hchars)
    | folder => exact (String.append_left_inj "/index").mp heq

/-- A module with a key without a slash is a file of that name. -/
theorem stemKey_eq_of_slash_not_mem (h : m.Proper) (hslash : '/' ∉ m.key.toList) :
    Plan.stemKey m = m.key := by
  cases h with
  | file => exact String.append_empty.symm
  | @folder stem => exact absurd (slash_mem_key stem) hslash

/-- No module takes the place of the request helper. -/
theorem Proper.key_ne_helper (h : m.Proper) : m.key ≠ "utils/request" := by
  intro heq
  cases h with
  | file hne hchars =>
    have hslash := slash_not_mem_key hchars
    rw [heq] at hslash
    exact hslash (by decide)
  | @folder stem =>
    have hsuffix : "/index".toList <:+ (key ⟨stem, true⟩).toList := by
      show "/index".toList <:+ (Plan.stemKey ⟨stem, true⟩ ++ "/index").toList
      rw [String.toList_append]
      exact List.suffix_append _ _
    rw [heq] at hsuffix
    exact absurd hsuffix (by decide)

end ModulePath

/-- The keys of the modules of a plan differ from each other and from those of the other files. -/
theorem Plan.Placed.nodup_keys {ms : List ModulePlan} (h : Placed reservedStems ms) :
    ("types" :: "utils/request" :: ((ms.map fun m => m.place.key) ++ ["index"])).Nodup := by
  have hreserved : ∀ m ∈ ms, ∀ s ∈ reservedStems, m.place.key ≠ s := by
    intro m hm s hs heq
    have hnone : ∀ x ∈ reservedStems, '/' ∉ x.toList := by decide
    have hslash : '/' ∉ m.place.key.toList := heq ▸ hnone s hs
    have hkey := ModulePath.stemKey_eq_of_slash_not_mem (h.proper m hm) hslash
    rw [heq] at hkey
    exact h.fresh m hm (hkey ▸ hs)
  have hmodules : (ms.map fun m => m.place.key).Nodup := by
    have hdistinct := List.pairwise_map.mp h.distinct
    refine List.pairwise_map.mpr (hdistinct.imp_of_mem fun {m m'} hm hm' hne heq => ?_)
    exact hne (ModulePath.stemKey_eq_of_key_eq (h.proper m hm) (h.proper m' hm') heq)
  have hindex : ∀ s ∈ ms.map fun m => m.place.key, s ≠ "index" := by
    intro s hs
    obtain ⟨m, hm, rfl⟩ := List.mem_map.mp hs
    exact hreserved m hm "index" (by decide)
  have hhelper : "utils/request" ∉ (ms.map fun m => m.place.key) ++ ["index"] := by
    intro hmem
    rcases List.mem_append.mp hmem with hmem | hmem
    · obtain ⟨m, hm, heq⟩ := List.mem_map.mp hmem
      exact (h.proper m hm).key_ne_helper heq
    · exact absurd hmem (by decide)
  have htypes : "types" ∉ "utils/request" :: ((ms.map fun m => m.place.key) ++ ["index"]) := by
    intro hmem
    rcases List.mem_append.mp (List.mem_of_ne_of_mem (by decide) hmem) with hmem | hmem
    · obtain ⟨m, hm, heq⟩ := List.mem_map.mp hmem
      exact hreserved m hm "types" (by decide) heq
    · exact absurd hmem (by decide)
  have hends : ((ms.map fun m => m.place.key) ++ ["index"]).Nodup := by
    refine List.nodup_append.mpr ⟨hmodules, List.nodup_singleton _, ?_⟩
    intro s hs t ht
    rw [List.mem_singleton.mp ht]
    exact hindex s hs
  exact List.nodup_cons.mpr ⟨htypes, List.nodup_cons.mpr ⟨hhelper, hends⟩⟩

/-! ## All files -/

namespace Client

variable {c : Config} {d : Document}

def allPaths (l : Language) (ms : List ModulePlan) : List String :=
  [typesPath l, RequestHelper.path l] ++ (ms.map fun m => m.place.file l.extension) ++
    ["index." ++ l.extension]

/-- Some of these files may be left out. -/
theorem paths_sublist (c : Config) (d : Document) :
    ((sources c d).value.map SourceUnit.path).Sublist
      (allPaths c.language (modulePlans c d)) := by
  have hoptional (b : Bool) (u : SourceUnit) :
      ((if b then [u] else []).map SourceUnit.path).Sublist [u.path] := by
    cases b
    · exact List.nil_sublist _
    · exact List.Sublist.refl _
  have hmodules : ((modulePlans c d).map fun m =>
      (moduleUnit c (selected c d) m).value).map SourceUnit.path =
        (modulePlans c d).map fun m => m.place.file c.language.extension := by
    rw [List.map_map]
    rfl
  rw [value_sources, List.map_append, List.map_append, List.map_append, hmodules]
  exact (((hoptional _ _).append (hoptional _ _)).append (List.Sublist.refl _)).append
    (hoptional _ _)

theorem lowercase_allPaths {ms : List ModulePlan} (h : ∀ m ∈ ms, m.place.Proper) (l : Language) :
    (allPaths l ms).map Text.lowercaseString = typesPath l ::
      (("utils/request" :: ((ms.map fun m => m.place.key) ++ ["index"])).map fun s =>
        s ++ "." ++ l.extension) := by
  have hfixed : ([typesPath l, RequestHelper.path l].map Text.lowercaseString =
      [typesPath l, RequestHelper.path l]) ∧
      Text.lowercaseString ("index." ++ l.extension) = "index." ++ l.extension := by
    constructor
    · rw [List.map_cons, List.map_singleton,
        Text.lowercaseString_of_isPlain (s := typesPath l) (by cases l <;> decide),
        Text.lowercaseString_of_isPlain (s := RequestHelper.path l) (by cases l <;> decide)]
    · exact Text.lowercaseString_of_isPlain (by cases l <;> decide)
  have hmodules : (ms.map fun m => m.place.file l.extension).map Text.lowercaseString =
      (ms.map fun m => m.place.key).map fun s => s ++ "." ++ l.extension := by
    rw [List.map_map, List.map_map]
    exact List.map_congr_left fun m hm => ModulePath.lowercaseString_file (h m hm) l
  rw [allPaths, List.map_append, List.map_append, hfixed.1, List.map_singleton, hfixed.2, hmodules,
    List.map_cons, List.map_append]
  cases l <;> rfl

/-- Even in lower case, all paths are different. -/
theorem nodup_lowercase_allPaths {ms : List ModulePlan}
    (h : Plan.Placed Plan.reservedStems ms) (l : Language) :
    ((allPaths l ms).map Text.lowercaseString).Nodup := by
  have hkeys := List.nodup_cons.mp h.nodup_keys
  rw [lowercase_allPaths h.proper]
  refine List.nodup_cons.mpr ⟨?_, hkeys.2.map fun s t hst => ?_⟩
  · intro hmem
    obtain ⟨s, hs, heq⟩ := List.mem_map.mp hmem
    cases l with
    | typeScript =>
      have hend : s ++ ".ts" = "types" ++ ".ts" := by
        rw [String.append_assoc] at heq
        exact heq
      exact hkeys.1 ((String.append_left_inj ".ts").mp hend ▸ hs)
    | javaScript =>
      have hsuffix : ".js".toList <:+ "types.d.ts".toList := by
        have heq : s ++ "." ++ "js" = "types.d.ts" := heq
        rw [← heq, String.append_assoc, String.toList_append]
        exact List.suffix_append _ _
      exact absurd hsuffix (by decide)
  · rw [String.append_assoc, String.append_assoc] at hst
    exact (String.append_left_inj _).mp hst

theorem placed_modulePlans (c : Config) (d : Document) :
    Plan.Placed Plan.reservedStems (modulePlans c d) :=
  Plan.placed_modules c _

theorem nodup_lowercase_paths (c : Config) (d : Document) :
    (((sources c d).value.map SourceUnit.path).map Text.lowercaseString).Nodup :=
  ((paths_sublist c d).map Text.lowercaseString).nodup
    (nodup_lowercase_allPaths (placed_modulePlans c d) c.language)

theorem nodup_paths (c : Config) (d : Document) :
    ((sources c d).value.map SourceUnit.path).Nodup :=
  List.Nodup.of_map Text.lowercaseString (nodup_lowercase_paths c d)

theorem map_path_files (c : Config) (d : Document) :
    (generate c d).files.map GeneratedFile.path = (sources c d).value.map SourceUnit.path := by
  rw [generate, List.map_map]
  rfl

/-- Every path has a route. -/
theorem exists_route {ms : List ModulePlan} (h : ∀ m ∈ ms, m.place.Proper) (l : Language)
    {path : String} (hpath : path ∈ allPaths l ms) :
    ∃ names, Route names ∧ path = Text.joinStrings "/" names := by
  rcases List.mem_append.mp hpath with hpath | hindex
  · rcases List.mem_append.mp hpath with hfixed | hmodule
    · rcases List.mem_cons.mp hfixed with htypes | hhelper
      · have hsegment : IsSegment (typesPath l) := by
          cases l <;>
            exact IsSegment.of_mem (c := 't') (by decide) (by decide) (by decide) (by decide)
        exact ⟨[typesPath l], Route.root hsegment (by cases l <;> decide) (by cases l <;> decide),
          htypes⟩
      · have houter : IsSegment "utils" :=
          IsSegment.of_mem (c := 'u') (by decide) (by decide) (by decide) (by decide)
        have hinner : IsSegment ("request." ++ l.extension) := by
          cases l <;>
            exact IsSegment.of_mem (c := 'r') (by decide) (by decide) (by decide) (by decide)
        refine ⟨["utils", "request." ++ l.extension],
          Route.folder houter hinner (Or.inl (by decide)), ?_⟩
        rw [List.mem_singleton.mp hhelper]
        cases l <;> rfl
    · obtain ⟨m, hm, rfl⟩ := List.mem_map.mp hmodule
      exact ⟨_, (h m hm).route l, (ModulePath.joinStrings_segments _ _).symm⟩
  · have hsegment : IsSegment ("index." ++ l.extension) := by
      cases l <;> exact IsSegment.of_mem (c := 'i') (by decide) (by decide) (by decide) (by decide)
    refine ⟨["index." ++ l.extension], Route.root hsegment (by cases l <;> decide)
      (by cases l <;> decide), ?_⟩
    exact List.mem_singleton.mp hindex

/-- What holds of files that can be written below one folder: none takes the place of another or of
a folder that another needs, not even where upper and lower case are the same, and each lies below
that folder. -/
structure Separate (files : List GeneratedFile) : Prop where
  paths : (files.map GeneratedFile.path).Nodup
  lowercase : (files.map fun f => Text.lowercaseString f.path).Nodup
  notFolder : ∀ f ∈ files, ∀ g ∈ files, ∀ rest, g.path ≠ f.path ++ "/" ++ rest
  segments : ∀ f ∈ files, ∀ s ∈ Text.splitString '/' f.path, IsSegment s
  below : ∀ f ∈ files, ∀ base, f.target base = joinSegment base f.path
  steps : ∀ f ∈ files, pathSegments f.path ≠ [] ∧
    ∀ p : Place, (pathSegments f.path).foldl Place.step p = p ++ pathSegments f.path
  targets : ∀ base, (files.map (GeneratedFile.target base)).Nodup

/-- Files with routes are separate if their paths differ in lower case. -/
theorem separate_of_routes {files : List GeneratedFile}
    (hroute : ∀ f ∈ files, ∃ names, Route names ∧ f.path = Text.joinStrings "/" names)
    (hlowercase : (files.map fun f => Text.lowercaseString f.path).Nodup) : Separate files := by
  have hpaths : (files.map GeneratedFile.path).Nodup := by
    apply List.Nodup.of_map Text.lowercaseString
    rw [List.map_map]
    exact hlowercase
  have hbelow : ∀ f ∈ files, ∀ base, f.target base = joinSegment base f.path := by
    intro f hf base
    obtain ⟨names, hnames, hpath⟩ := hroute f hf
    exact target_joinStrings hnames.ne_nil hnames.isSegment hpath base
  constructor
  case paths => exact hpaths
  case lowercase => exact hlowercase
  case notFolder =>
    intro f hf g hg rest
    obtain ⟨names, hnames, hpath⟩ := hroute f hf
    obtain ⟨others, hothers, hpath'⟩ := hroute g hg
    rw [hpath, hpath']
    exact hnames.not_folder hothers rest
  case segments =>
    intro f hf s hs
    obtain ⟨names, hnames, hpath⟩ := hroute f hf
    rw [hpath, hnames.splitString_eq] at hs
    exact hnames.isSegment s hs
  case below => exact hbelow
  case steps =>
    intro f hf
    obtain ⟨names, hnames, hpath⟩ := hroute f hf
    rw [hpath, pathSegments_joinStrings hnames.ne_nil hnames.isSegment]
    exact ⟨hnames.ne_nil, foldl_step hnames.isSegment⟩
  case targets =>
    intro base
    have htargets : files.map (GeneratedFile.target base) =
        (files.map GeneratedFile.path).map (joinSegment base) := by
      rw [List.map_map]
      exact List.map_congr_left fun f hf => hbelow f hf base
    rw [htargets]
    exact hpaths.map fun _ _ => joinSegment_injective base

/-- Every file of a client has a route. -/
theorem exists_route_of_mem_files {f : GeneratedFile} (hf : f ∈ (generate c d).files) :
    ∃ names, Route names ∧ f.path = Text.joinStrings "/" names := by
  have hpath : f.path ∈ (sources c d).value.map SourceUnit.path := by
    rw [← map_path_files]
    exact List.mem_map.mpr ⟨f, hf, rfl⟩
  exact exists_route (placed_modulePlans c d).proper _ ((paths_sublist c d).subset hpath)

/-- **Paths.** The files of a client are separate from each other. The stems of its modules differ
from each other in more than upper and lower case, and none is reserved; and whatever a tag is, the
path that it gives is made of segments. -/
theorem files_separate (c : Config) (d : Document) :
    Separate (generate c d).files ∧
      ((modulePlans c d).map fun m => Plan.stemKey m.place).Nodup ∧
      (∀ m ∈ modulePlans c d, Plan.stemKey m.place ≠ "index" ∧ Plan.stemKey m.place ≠ "types") ∧
      ∀ (tag : String) (l : Language),
        ∀ s ∈ Text.splitString '/' ((ModulePath.ofTag tag).file l.extension), IsSegment s := by
  have hplaced := placed_modulePlans c d
  have hlowercase : ((generate c d).files.map fun f => Text.lowercaseString f.path).Nodup := by
    have hnodup := nodup_lowercase_paths c d
    rwa [← map_path_files, List.map_map] at hnodup
  refine ⟨?_, hplaced.distinct, ?_, ?_⟩
  · exact separate_of_routes (fun f hf => exists_route_of_mem_files hf) hlowercase
  · intro m hm
    have hfresh := hplaced.fresh m hm
    constructor <;> intro heq <;> rw [heq] at hfresh <;> exact hfresh (by decide)
  · intro tag l s hs
    have hnames := (ModulePath.proper_ofTag tag).route l
    rw [← ModulePath.joinStrings_segments, hnames.splitString_eq] at hs
    exact hnames.isSegment s hs

end Client

end OpenApiClient
