import Mathlib.Algebra.GroupWithZero.Nat
import Mathlib.Data.List.Induction
import Mathlib.Data.List.Nodup
import OpenApiClient.Output.Tree
import OpenApiClient.Proofs.Output.Segments
import OpenApiClient.Proofs.Text.Lines

/-!
# Forests that files are put into

Without the places of folders, a file is put into a forest by the structure of the forest: the names
in its path lead into the folder of a name among the nodes, or into a new one behind them, and the file
stands at the end of the last folder (`insertFile`). What one file does to a forest is followed
through the folders on its way (`leaves_alter`, `Tidy.alter`, `encounters_alter`), and by induction
this says what the forest of many files looks like (`isForestOf_inserted`).
-/

namespace OpenApiClient

namespace FileTree

open Text (joinStrings)

/-- A text that can stand between two slashes of a path. -/
structure IsName (s : String) : Prop where
  ne_empty : s ≠ ""
  no_slash : '/' ∉ s.toList

/-- The names in a path: the pieces between its slashes that are not empty. -/
def namesIn (path : String) : List String :=
  ((path.toList.splitOn '/').filter (· ≠ [])).map String.ofList

theorem pathSegments_eq (path : String) : pathSegments path = namesIn path := by
  rw [pathSegments, Text.splitString, namesIn, Text.splitOn_eq_splitOn, List.filter_map]
  refine congrArg (List.map String.ofList) (List.filter_congr fun cs _ => ?_)
  rw [Function.comp_apply, Bool.eq_iff_iff]
  simp

theorem isName_of_mem_namesIn {s path : String} (h : s ∈ namesIn path) : IsName s := by
  obtain ⟨cs, hcs, rfl⟩ := List.mem_map.mp h
  obtain ⟨hpiece, hne⟩ := List.mem_filter.mp hcs
  constructor
  · intro hempty
    exact of_decide_eq_true hne (String.ofList_eq_empty_iff.mp hempty)
  · rw [String.toList_ofList]
    exact Text.not_mem_of_mem_splitOn (Text.splitOn_eq_splitOn '/' _ ▸ hpiece)

theorem isName_of_namesIn_eq {path name : String} {dirs : List String}
    (h : namesIn path = dirs ++ [name]) : ∀ s ∈ dirs, IsName s := by
  intro s hs
  have hmem : s ∈ namesIn path := h ▸ List.mem_append_left [name] hs
  exact isName_of_mem_namesIn hmem

/-- Names are found again in the path that they make. -/
theorem splitString_of_isName {names : List String} (hne : names ≠ [])
    (h : ∀ s ∈ names, IsName s) : Text.splitString '/' (joinStrings "/" names) = names :=
  Text.splitString_joinStrings hne fun s hs => (h s hs).no_slash

/-- The path of a folder goes on from the path of the folder that it is in. -/
theorem pathIn_joinStrings {above : List String} (h : ∀ s ∈ above, IsName s) (name : String) :
    pathIn (joinStrings "/" above) name = joinStrings "/" (above ++ [name]) := by
  cases above with
  | nil => rfl
  | cons first above =>
    have hne : first ≠ "" := (h first List.mem_cons_self).ne_empty
    have hpath : joinStrings "/" (first :: above) ≠ "" := by
      cases above with
      | nil => exact hne
      | cons second above =>
        rw [Text.joinStrings_cons first (by simp)]
        intro hempty
        simp [String.append_eq_empty_iff, hne] at hempty
    rw [pathIn, if_neg (mt String.isEmpty_iff.mp hpath), Text.joinStrings_concat (by simp)]

/-! ## Folders of a name -/

def folderName? : FileTree → Option String
  | .file _ _ _ => none
  | .folder _ name _ => some name

def folderNames (forest : List FileTree) : List String :=
  forest.filterMap folderName?

/-- The nodes in the first folder of a name. There are none in a folder that is not there. -/
def inside (dir : String) : List FileTree → List FileTree
  | [] => []
  | .file _ _ _ :: rest => inside dir rest
  | .folder _ name children :: rest => if name = dir then children else inside dir rest

/-- The nodes in the folder that names lead to. -/
def childrenAt : List String → List FileTree → List FileTree
  | [], forest => forest
  | dir :: dirs, forest => childrenAt dirs (inside dir forest)

/-- Changes the nodes in the first folder of a name. If there is none, it is put at the end before,
with a path. -/
def inFolder (path dir : String) (change : List FileTree → List FileTree) :
    List FileTree → List FileTree
  | [] => [.folder path dir (change [])]
  | .file p name content :: rest => .file p name content :: inFolder path dir change rest
  | .folder p name children :: rest =>
    if name = dir then .folder p name (change children) :: rest
    else .folder p name children :: inFolder path dir change rest

/-- Changes the nodes in the folder that names lead to from the folder of a path. -/
def alter (change : List FileTree → List FileTree) :
    String → List String → List FileTree → List FileTree
  | _, [], forest => change forest
  | parent, dir :: dirs, forest =>
    inFolder (pathIn parent dir) dir (alter change (pathIn parent dir) dirs) forest

/-- Puts a file into a forest: into the folder that all names in its path but the last lead to. -/
def insertFile (forest : List FileTree) (f : GeneratedFile) : List FileTree :=
  match (namesIn f.path).getLast? with
  | none => forest
  | some name =>
    alter (· ++ [.file f.path name f.content]) "" (namesIn f.path).dropLast forest

/-- The forest that files make which are put in one after another. -/
def inserted (files : List GeneratedFile) : List FileTree :=
  files.foldl insertFile []

section Folders

variable {path dir : String} {change : List FileTree → List FileTree}

theorem folderNames_cons_folder (path name : String) (children rest : List FileTree) :
    folderNames (.folder path name children :: rest) = name :: folderNames rest := rfl

theorem folderNames_concat_file (forest : List FileTree) (path name content : String) :
    folderNames (forest ++ [.file path name content]) = folderNames forest := by
  rw [folderNames, List.filterMap_append]
  exact List.append_nil _

theorem inside_concat_file (dir : String) (forest : List FileTree) (path name content : String) :
    inside dir (forest ++ [.file path name content]) = inside dir forest := by
  fun_induction inside dir forest with simp_all [inside]

theorem mem_folderNames {forest : List FileTree} {name : String} {children : List FileTree}
    (h : .folder path name children ∈ forest) : name ∈ folderNames forest :=
  List.mem_filterMap.mpr ⟨_, h, rfl⟩

theorem folderNames_inFolder (forest : List FileTree) :
    folderNames (inFolder path dir change forest) =
      if dir ∈ folderNames forest then folderNames forest else folderNames forest ++ [dir] := by
  fun_induction inFolder path dir change forest with
  | case1 => rfl
  | case2 _ _ _ rest ih => exact ih
  | case3 p children rest => simp only [folderNames_cons_folder, List.mem_cons, true_or, if_true]
  | case4 p name children rest hne ih =>
    simp only [folderNames_cons_folder, ih, List.mem_cons, Ne.symm hne, false_or]
    split_ifs <;> rfl

/-- Only the folder of the name is changed. -/
theorem inside_inFolder (name : String) (forest : List FileTree) :
    inside name (inFolder path dir change forest) =
      if name = dir then change (inside dir forest) else inside name forest := by
  fun_induction inFolder path dir change forest with
  | case1 => simp only [inside, eq_comm]
  | case2 _ _ _ rest ih => exact ih
  | case3 p children rest =>
    by_cases h : name = dir
    · simp [inside, h]
    · simp [inside, h, Ne.symm h]
  | case4 p other children rest hne ih =>
    simp only [inside, ih, if_neg hne]
    by_cases h : name = dir
    · simp [h, hne]
    · simp [h]

/-- A folder is as it was, or it has the name and its nodes are changed. -/
theorem folder_mem_inFolder {p name : String} {children forest : List FileTree}
    (h : .folder p name children ∈ inFolder path dir change forest) :
    .folder p name children ∈ forest ∨
      name = dir ∧ ∃ old, children = change old ∧
        (.folder p name old ∈ forest ∨ p = path ∧ old = []) := by
  fun_induction inFolder path dir change forest with
  | case1 => simp_all
  | case2 => simp_all
  | case3 => grind
  | case4 => grind

theorem inside_of_mem {forest : List FileTree} (hdistinct : (folderNames forest).Nodup)
    {name : String} {children : List FileTree} (h : .folder path name children ∈ forest) :
    inside name forest = children := by
  fun_induction inside name forest with
  | case1 => simp at h
  | case2 _ _ _ rest ih => exact ih hdistinct (by simpa using h)
  | case3 p inner rest =>
    obtain ⟨hfirst, -⟩ := List.nodup_cons.mp hdistinct
    rcases List.mem_cons.mp h with heq | h
    · injection heq with _ _ heq
      exact heq.symm
    · exact absurd (mem_folderNames h) hfirst
  | case4 p other inner rest hne ih =>
    obtain ⟨-, hrest⟩ := List.nodup_cons.mp hdistinct
    rcases List.mem_cons.mp h with heq | h
    · injection heq with _ heq _
      exact absurd heq.symm hne
    · exact ih hrest h

end Folders

/-! ## Leaves -/

/-- A file in a forest: the names that lead to it, its own the last, its path and its content. -/
structure Leaf where
  way : List String
  path : String
  content : String
  deriving DecidableEq

/-- The leaf of a file. A path without names has none. -/
def leaf? (f : GeneratedFile) : Option Leaf :=
  if namesIn f.path = [] then none else some ⟨namesIn f.path, f.path, f.content⟩

mutual

/-- The files in a node in a folder that names lead to. -/
def leavesOf (above : List String) : FileTree → List Leaf
  | .file path name content => [⟨above ++ [name], path, content⟩]
  | .folder _ name children => leaves (above ++ [name]) children
termination_by structural t => t

/-- The files in a forest in a folder that names lead to. -/
def leaves (above : List String) : List FileTree → List Leaf
  | [] => []
  | t :: rest => leavesOf above t ++ leaves above rest
termination_by structural ts => ts

end

theorem leaves_append (above : List String) (forest more : List FileTree) :
    leaves above (forest ++ more) = leaves above forest ++ leaves above more := by
  induction forest with
  | nil => rfl
  | cons t rest ih => rw [List.cons_append, leaves, leaves, ih, List.append_assoc]

/-- A leaf more in the folder is a leaf more in the forest. -/
theorem leaves_inFolder {above : List String} {path dir : String}
    {change : List FileTree → List FileTree} {leaf : Leaf}
    (hchange : ∀ nodes, (leaves (above ++ [dir]) (change nodes)).Perm
      (leaf :: leaves (above ++ [dir]) nodes)) (forest : List FileTree) :
    (leaves above (inFolder path dir change forest)).Perm (leaf :: leaves above forest) := by
  fun_induction inFolder path dir change forest with
  | case1 => simpa [leaves, leavesOf] using hchange []
  | case2 p name content rest ih =>
    rw [leaves, leaves]
    exact (ih.append_left _).trans List.perm_middle
  | case3 p children rest =>
    rw [leaves, leaves]
    exact (hchange children).append_right _
  | case4 p name children rest hne ih =>
    rw [leaves, leaves]
    exact (ih.append_left _).trans List.perm_middle

/-- A file that is put in is one leaf more. -/
theorem leaves_alter (path name content : String) (dirs : List String) :
    ∀ (above : List String) (parent : String) (forest : List FileTree),
      (leaves above (alter (· ++ [.file path name content]) parent dirs forest)).Perm
        (⟨above ++ (dirs ++ [name]), path, content⟩ :: leaves above forest) := by
  induction dirs with
  | nil =>
    intro above parent forest
    rw [alter, leaves_append]
    exact List.perm_append_singleton _ _
  | cons dir dirs ih =>
    intro above parent forest
    refine leaves_inFolder (fun nodes => ?_) forest
    have hdirs := ih (above ++ [dir]) (pathIn parent dir) nodes
    rwa [List.append_assoc] at hdirs

mutual

/-- The files of a node are counted once each. -/
theorem fileCount_eq_length (above : List String) :
    ∀ t : FileTree, t.fileCount = (leavesOf above t).length
  | .file _ _ _ => rfl
  | .folder _ name children => fileCounts_eq_length (above ++ [name]) children

theorem fileCounts_eq_length (above : List String) :
    ∀ forest : List FileTree, fileCounts forest = (leaves above forest).length
  | [] => rfl
  | t :: rest => by
    rw [fileCounts, leaves, List.length_append, fileCount_eq_length above t,
      fileCounts_eq_length above rest]

end

theorem sum_fileCount (forest : List FileTree) :
    (forest.map fileCount).sum = fileCounts forest := by
  induction forest with
  | nil => rfl
  | cons t rest ih => rw [List.map_cons, List.sum_cons, ih, fileCounts]

/-! ## Encounters -/

/-- What is met in a folder: a folder in it, or a file. -/
inductive Encounter where
  | folder (name : String)
  | file (path name content : String)
  deriving DecidableEq

def encounter : FileTree → Encounter
  | .file path name content => .file path name content
  | .folder _ name _ => .folder name

/-- What a file with names in its path is met as in the folder that names lead to. -/
def encounter? (path content : String) : List String → List String → Option Encounter
  | [], [] => none
  | [], [name] => some (.file path name content)
  | [], dir :: _ :: _ => some (.folder dir)
  | _ :: _, [] => none
  | dir :: dirs, s :: segments =>
    if dir = s then encounter? path content dirs segments else none

/-- Every file is met, but a folder only the first time. -/
def meet (met : List Encounter) : Encounter → List Encounter
  | .folder name => if .folder name ∈ met then met else met ++ [.folder name]
  | .file path name content => met ++ [.file path name content]

/-- What files are met as in the folder that names lead to, in the order of the first time. -/
def firstEncounters (dirs : List String) (files : List GeneratedFile) : List Encounter :=
  (files.filterMap fun f => encounter? f.path f.content dirs (namesIn f.path)).foldl meet []

theorem encounter?_nil (path content : String) (dirs : List String) :
    encounter? path content dirs [] = none := by
  cases dirs <;> rfl

theorem encounter?_folder (path content dir name : String) (dirs : List String) :
    encounter? path content [] (dir :: (dirs ++ [name])) = some (.folder dir) := by
  cases dirs <;> rfl

/-- A folder that is changed is met where it is, or at the end. -/
theorem encounters_inFolder {path dir : String} {change : List FileTree → List FileTree}
    (forest : List FileTree) :
    (inFolder path dir change forest).map encounter =
      meet (forest.map encounter) (.folder dir) := by
  fun_induction inFolder path dir change forest with
  | case1 => rfl
  | case2 p name content rest ih =>
    simp only [List.map_cons, ih, meet, encounter, List.mem_cons, reduceCtorEq, false_or]
    split_ifs <;> rfl
  | case3 p children rest => simp [meet, encounter]
  | case4 p name children rest hne ih =>
    simp only [List.map_cons, ih, meet, encounter, List.mem_cons, Encounter.folder.injEq,
      Ne.symm hne, false_or]
    split_ifs <;> rfl

/-- A file is met in the folders on its way, and nowhere else. -/
theorem encounters_alter (path name content : String) (dirs : List String) :
    ∀ (way : List String) (parent : String) (forest : List FileTree),
      (childrenAt way (alter (· ++ [.file path name content]) parent dirs forest)).map encounter =
        (encounter? path content way (dirs ++ [name])).elim
          ((childrenAt way forest).map encounter)
          (meet ((childrenAt way forest).map encounter)) := by
  induction dirs with
  | nil =>
    intro way parent forest
    cases way with
    | nil => simp [alter, childrenAt, encounter?, meet, encounter]
    | cons w way =>
      simp only [alter, childrenAt, inside_concat_file, List.nil_append, encounter?,
        encounter?_nil, ite_self, Option.elim_none]
  | cons dir dirs ih =>
    intro way parent forest
    cases way with
    | nil =>
      rw [List.cons_append, encounter?_folder]
      exact encounters_inFolder forest
    | cons w way =>
      simp only [alter, childrenAt, inside_inFolder, List.cons_append, encounter?]
      by_cases h : w = dir
      · rw [if_pos h, if_pos h, ih, h]
      · rw [if_neg h, if_neg h, Option.elim_none]

/-! ## Folders -/

/-- A folder in a forest: the names that lead to it, its own the last, its path and its nodes. -/
structure Folder where
  way : List String
  path : String
  children : List FileTree

mutual

/-- The folders of a node in a folder that names lead to. -/
def foldersOf (above : List String) : FileTree → List Folder
  | .file _ _ _ => []
  | .folder path name children =>
    ⟨above ++ [name], path, children⟩ :: folders (above ++ [name]) children
termination_by structural t => t

/-- The folders of a forest in a folder that names lead to. -/
def folders (above : List String) : List FileTree → List Folder
  | [] => []
  | t :: rest => foldersOf above t ++ folders above rest
termination_by structural ts => ts

end

theorem folders_eq_flatMap (above : List String) (forest : List FileTree) :
    folders above forest = forest.flatMap (foldersOf above) := by
  induction forest with
  | nil => rfl
  | cons t rest ih => rw [folders, List.flatMap_cons, ih]

/-- A folder stands among the nodes, or inside of one that does. -/
theorem mem_folders {above : List String} {forest : List FileTree} {f : Folder}
    (h : f ∈ folders above forest) :
    ∃ path name children, .folder path name children ∈ forest ∧
      (f = ⟨above ++ [name], path, children⟩ ∨ f ∈ folders (above ++ [name]) children) := by
  rw [folders_eq_flatMap] at h
  obtain ⟨t, ht, hf⟩ := List.mem_flatMap.mp h
  cases t with
  | file path name content => simp [foldersOf] at hf
  | folder path name children => exact ⟨path, name, children, ht, List.mem_cons.mp hf⟩

mutual

/-- The way to a folder of a node goes on with the name of the node. -/
theorem way_of_mem_foldersOf {f : Folder} : ∀ {t : FileTree} {above : List String},
    f ∈ foldersOf above t → ∃ name dirs, folderName? t = some name ∧ f.way = above ++ name :: dirs
  | .folder path name children, above, h => by
    rcases List.mem_cons.mp h with rfl | h
    · exact ⟨name, [], rfl, rfl⟩
    · obtain ⟨next, dirs, hway⟩ := way_of_mem_folders h
      exact ⟨name, next :: dirs, rfl, by rw [hway, List.append_assoc, List.singleton_append]⟩

theorem way_of_mem_folders {f : Folder} : ∀ {forest : List FileTree} {above : List String},
    f ∈ folders above forest → ∃ name dirs, f.way = above ++ name :: dirs
  | t :: rest, above, h => by
    rcases List.mem_append.mp h with h | h
    · obtain ⟨name, dirs, -, hway⟩ := way_of_mem_foldersOf h
      exact ⟨name, dirs, hway⟩
    · exact way_of_mem_folders h

end

/-- Forests in which the folders next to each other have different names, and every folder has a
name, the path of the names that lead to it, and something in it. -/
inductive Tidy : List String → List FileTree → Prop
  | intro {above : List String} {forest : List FileTree}
    (distinct : (folderNames forest).Nodup)
    (folder : ∀ path name children, .folder path name children ∈ forest →
      IsName name ∧ path = joinStrings "/" (above ++ [name]) ∧ children ≠ [])
    (below : ∀ path name children, .folder path name children ∈ forest →
      Tidy (above ++ [name]) children) : Tidy above forest

namespace Tidy

variable {above : List String} {forest : List FileTree}

theorem nil (above : List String) : Tidy above [] :=
  .intro List.nodup_nil (fun _ _ _ h => nomatch h) (fun _ _ _ h => nomatch h)

theorem of_mem (h : Tidy above forest) {path name : String} {children : List FileTree}
    (hmem : .folder path name children ∈ forest) :
    IsName name ∧ path = joinStrings "/" (above ++ [name]) ∧ children ≠ [] := by
  obtain ⟨-, hfolder, -⟩ := h
  exact hfolder path name children hmem

theorem concat_file (h : Tidy above forest) (path name content : String) :
    Tidy above (forest ++ [.file path name content]) := by
  obtain ⟨hdistinct, hfolder, hbelow⟩ := h
  refine .intro ?_ (fun p n children hmem => ?_) (fun p n children hmem => ?_)
  · rwa [folderNames_concat_file]
  · exact hfolder p n children (by simpa using hmem)
  · exact hbelow p n children (by simpa using hmem)

/-- A change that keeps the nodes in a folder tidy, and leaves some there, keeps all tidy. -/
theorem inFolder (h : Tidy above forest) {dir : String} (hdir : IsName dir)
    {change : List FileTree → List FileTree} (hne : ∀ nodes, change nodes ≠ [])
    (hchange : ∀ nodes, Tidy (above ++ [dir]) nodes → Tidy (above ++ [dir]) (change nodes)) :
    Tidy above (inFolder (joinStrings "/" (above ++ [dir])) dir change forest) := by
  obtain ⟨hdistinct, hfolder, hbelow⟩ := h
  refine .intro ?_ (fun p name children hmem => ?_) (fun p name children hmem => ?_)
  · rw [folderNames_inFolder]
    split_ifs with hknown
    · exact hdistinct
    · rw [← List.concat_eq_append]
      exact hdistinct.concat hknown
  · rcases folder_mem_inFolder hmem with hold | ⟨rfl, old, rfl, hold | ⟨rfl, -⟩⟩
    · exact hfolder p name children hold
    · exact ⟨hdir, (hfolder p name old hold).2.1, hne old⟩
    · exact ⟨hdir, rfl, hne old⟩
  · rcases folder_mem_inFolder hmem with hold | ⟨rfl, old, rfl, hold | ⟨-, rfl⟩⟩
    · exact hbelow p name children hold
    · exact hchange old (hbelow p name old hold)
    · exact hchange [] (nil _)

end Tidy

theorem alter_ne_nil {change : List FileTree → List FileTree} (hne : ∀ nodes, change nodes ≠ [])
    (parent : String) (dirs : List String) (forest : List FileTree) :
    alter change parent dirs forest ≠ [] := by
  cases dirs with
  | nil => exact hne forest
  | cons dir dirs =>
    rw [alter]
    fun_cases FileTree.inFolder with simp

/-- A file that is put in keeps all tidy. -/
theorem Tidy.alter (path name content : String) {dirs : List String}
    (hdirs : ∀ s ∈ dirs, IsName s) {above : List String} (habove : ∀ s ∈ above, IsName s)
    {forest : List FileTree} (h : Tidy above forest) :
    Tidy above
      (alter (· ++ [.file path name content]) (joinStrings "/" above) dirs forest) := by
  induction dirs generalizing above forest with
  | nil => exact h.concat_file path name content
  | cons dir dirs ih =>
    obtain ⟨hdir, hdirs⟩ := List.forall_mem_cons.mp hdirs
    have hway : ∀ s ∈ above ++ [dir], IsName s :=
      List.forall_mem_append.mpr ⟨habove, List.forall_mem_singleton.mpr hdir⟩
    rw [FileTree.alter, pathIn_joinStrings habove]
    exact h.inFolder hdir (alter_ne_nil (by simp) _ dirs) fun nodes hnodes => ih hdirs hway hnodes

/-- What is known of a folder in a tidy forest. -/
theorem Tidy.of_mem_folders {above : List String} {forest : List FileTree}
    (h : Tidy above forest) (habove : ∀ s ∈ above, IsName s) {f : Folder}
    (hf : f ∈ folders above forest) :
    (∀ s ∈ f.way, IsName s) ∧ f.path = joinStrings "/" f.way ∧ f.children ≠ [] ∧
      Tidy f.way f.children ∧
      ∃ dirs, f.way = above ++ dirs ∧ f.children = childrenAt dirs forest := by
  induction h with
  | @intro above forest hdistinct hfolder hbelow ih =>
    obtain ⟨path, name, children, hmem, hf⟩ := mem_folders hf
    obtain ⟨hname, hpath, hne⟩ := hfolder path name children hmem
    have hway : ∀ s ∈ above ++ [name], IsName s :=
      List.forall_mem_append.mpr ⟨habove, List.forall_mem_singleton.mpr hname⟩
    have hinside : inside name forest = children := inside_of_mem hdistinct hmem
    rcases hf with rfl | hf
    · exact ⟨hway, hpath, hne, hbelow path name children hmem, [name], rfl, hinside.symm⟩
    · obtain ⟨hnames, hpath, hne, htidy, dirs, hdirs, hchildren⟩ :=
        ih path name children hmem hway hf
      refine ⟨hnames, hpath, hne, htidy, name :: dirs, ?_, ?_⟩
      · rw [hdirs, List.append_assoc, List.singleton_append]
      · rw [hchildren, childrenAt, hinside]

/-- No two folders of a tidy forest are at the end of the same names. -/
theorem Tidy.nodup_ways {above : List String} {forest : List FileTree} (h : Tidy above forest) :
    ((folders above forest).map Folder.way).Nodup := by
  induction h with
  | @intro above forest hdistinct _ _ ih =>
    rw [folders_eq_flatMap, List.map_flatMap, List.nodup_flatMap]
    constructor
    · intro t ht
      cases t with
      | file path name content => exact List.nodup_nil
      | folder path name children =>
        refine List.nodup_cons.mpr ⟨fun hmem => ?_, ih path name children ht⟩
        obtain ⟨f, hf, hway⟩ := List.mem_map.mp hmem
        obtain ⟨next, dirs, hlong⟩ := way_of_mem_folders hf
        simp [hway] at hlong
    · refine (List.pairwise_filterMap.mp hdistinct).imp fun hnames way hway hway' => ?_
      obtain ⟨f, hf, rfl⟩ := List.mem_map.mp hway
      obtain ⟨g, hg, heq⟩ := List.mem_map.mp hway'
      obtain ⟨name, dirs, hname, hway⟩ := way_of_mem_foldersOf hf
      obtain ⟨name', dirs', hname', hway'⟩ := way_of_mem_foldersOf hg
      have hsame : name' :: dirs' = name :: dirs := by
        rw [← List.append_right_inj above, ← hway, ← hway', heq]
      exact hnames name hname name' hname' (List.cons.inj hsame).1.symm

/-! ## Files one after another -/

section Files

variable {f : GeneratedFile} {forest : List FileTree}

theorem insertFile_of_nil (h : namesIn f.path = []) : insertFile forest f = forest := by
  rw [insertFile, h]
  rfl

theorem insertFile_of_concat {dirs : List String} {name : String}
    (h : namesIn f.path = dirs ++ [name]) :
    insertFile forest f = alter (· ++ [.file f.path name f.content]) "" dirs forest := by
  rw [insertFile, h, List.getLast?_concat, List.dropLast_concat]

theorem leaves_insertFile (forest : List FileTree) (f : GeneratedFile) :
    (leaves [] (insertFile forest f)).Perm (leaves [] forest ++ (leaf? f).toList) := by
  rcases List.eq_nil_or_concat' (namesIn f.path) with h | ⟨dirs, name, h⟩
  · rw [insertFile_of_nil h, leaf?, if_pos h]
    simp
  · have hleaf := leaves_alter f.path name f.content dirs [] "" forest
    rw [insertFile_of_concat h, leaf?, h, if_neg (by simp)]
    exact hleaf.trans (List.perm_append_singleton _ _).symm

theorem Tidy.insertFile (h : Tidy [] forest) (f : GeneratedFile) :
    Tidy [] (insertFile forest f) := by
  rcases List.eq_nil_or_concat' (namesIn f.path) with hnil | ⟨dirs, name, hsegments⟩
  · rwa [insertFile_of_nil hnil]
  · rw [insertFile_of_concat hsegments]
    have hdirs : ∀ s ∈ dirs, IsName s := isName_of_namesIn_eq hsegments
    exact Tidy.alter f.path name f.content hdirs (List.forall_mem_nil _) h

theorem encounters_insertFile (dirs : List String) (forest : List FileTree) (f : GeneratedFile) :
    (childrenAt dirs (insertFile forest f)).map encounter =
      (encounter? f.path f.content dirs (namesIn f.path)).elim
        ((childrenAt dirs forest).map encounter)
        (meet ((childrenAt dirs forest).map encounter)) := by
  rcases List.eq_nil_or_concat' (namesIn f.path) with h | ⟨front, name, h⟩
  · rw [insertFile_of_nil h, h, encounter?_nil]
    rfl
  · rw [insertFile_of_concat h, h]
    exact encounters_alter f.path name f.content front dirs "" forest

end Files

theorem inserted_concat (files : List GeneratedFile) (f : GeneratedFile) :
    inserted (files ++ [f]) = insertFile (inserted files) f := by
  rw [inserted, List.foldl_concat]
  rfl

theorem leaves_inserted (files : List GeneratedFile) :
    (leaves [] (inserted files)).Perm (files.filterMap leaf?) := by
  induction files using List.reverseRecOn with
  | nil => exact List.Perm.nil
  | append_singleton files f ih =>
    rw [inserted_concat, List.filterMap_append]
    refine (leaves_insertFile _ f).trans (ih.append ?_)
    cases h : leaf? f <;> simp [h]

theorem tidy_inserted (files : List GeneratedFile) : Tidy [] (inserted files) := by
  induction files using List.reverseRecOn with
  | nil => exact Tidy.nil []
  | append_singleton files f ih =>
    rw [inserted_concat]
    exact ih.insertFile f

theorem encounters_inserted (dirs : List String) (files : List GeneratedFile) :
    (childrenAt dirs (inserted files)).map encounter = firstEncounters dirs files := by
  induction files using List.reverseRecOn with
  | nil =>
    have hnil : childrenAt dirs [] = [] := by
      induction dirs with
      | nil => rfl
      | cons dir dirs ih => exact ih
    exact congrArg (List.map encounter) hnil
  | append_singleton files f ih =>
    rw [inserted_concat, encounters_insertFile, ih, firstEncounters, firstEncounters,
      List.filterMap_append, List.foldl_append]
    cases h : encounter? f.path f.content dirs (namesIn f.path) <;> simp [h]

example : (inserted [⟨"a/b.ts", "1", .typeScript⟩, ⟨"c.ts", "2", .typeScript⟩,
    ⟨"a/d.ts", "3", .typeScript⟩]).map encounter = [.folder "a", .file "c.ts" "c.ts" "2"] := by
  decide +kernel

/-- What the forest of files looks like. -/
structure IsForestOf (files : List GeneratedFile) (forest : List FileTree) : Prop where
  /-- Every file that has a place is one leaf, at the end of the names in its path. -/
  leaf : (leaves [] forest).Perm (files.filterMap leaf?)
  /-- The paths of the folders all differ. -/
  distinct : ((folders [] forest).map Folder.path).Nodup
  /-- The path of a root is its name. -/
  root : ∀ path name children, .folder path name children ∈ forest → path = name
  /-- The path of a folder in a folder has its name after the path of that folder and a slash. -/
  below : ∀ f ∈ folders [] forest, ∀ path name children,
    .folder path name children ∈ f.children → path = f.path ++ "/" ++ name
  /-- No folder is empty. -/
  filled : ∀ f ∈ folders [] forest, f.children ≠ []
  /-- The roots stand in the order in which they were met first. -/
  roots : forest.map encounter = firstEncounters [] files
  /-- The nodes in a folder stand in the order in which they were met first. -/
  children : ∀ f ∈ folders [] forest, f.children.map encounter = firstEncounters f.way files
  /-- The files that are counted at the roots are the files that have a place. -/
  count : (forest.map fileCount).sum = files.countP fun f => namesIn f.path ≠ []

theorem isForestOf_inserted (files : List GeneratedFile) : IsForestOf files (inserted files) := by
  have htidy := tidy_inserted files
  have hfolder {f : Folder} (hf : f ∈ folders [] (inserted files)) :=
    htidy.of_mem_folders (List.forall_mem_nil _) hf
  have hway {f : Folder} (hf : f ∈ folders [] (inserted files)) : f.way ≠ [] := by
    obtain ⟨name, dirs, hway⟩ := way_of_mem_folders hf
    simp [hway]
  constructor
  case leaf => exact leaves_inserted files
  case distinct =>
    -- the names that lead to a folder are found again in its path
    have hways : ((folders [] (inserted files)).map Folder.path).map (Text.splitString '/') =
        (folders [] (inserted files)).map Folder.way := by
      rw [List.map_map]
      refine List.map_congr_left fun f hf => ?_
      obtain ⟨hnames, hpath, -⟩ := hfolder hf
      rw [Function.comp_apply, hpath, splitString_of_isName (hway hf) hnames]
    exact List.Nodup.of_map _ (hways ▸ htidy.nodup_ways)
  case root =>
    intro path name children hmem
    exact (htidy.of_mem hmem).2.1
  case below =>
    intro f hf path name children hmem
    obtain ⟨-, hpath, -, hinside, -⟩ := hfolder hf
    rw [(hinside.of_mem hmem).2.1, Text.joinStrings_concat (hway hf), hpath]
  case filled =>
    intro f hf
    exact (hfolder hf).2.2.1
  case roots => exact encounters_inserted [] files
  case children =>
    intro f hf
    obtain ⟨-, -, -, -, dirs, hway, hchildren⟩ := hfolder hf
    rw [hchildren, hway, List.nil_append, encounters_inserted]
  case count =>
    rw [sum_fileCount, fileCounts_eq_length [], (leaves_inserted files).length_eq,
      List.length_filterMap_eq_countP]
    refine List.countP_congr fun f _ => ?_
    by_cases h : namesIn f.path = [] <;> simp [leaf?, h]

end FileTree

end OpenApiClient
