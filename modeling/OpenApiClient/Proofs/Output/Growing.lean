import OpenApiClient.Proofs.Output.Forest

/-!
# Forests that grow by remembered places

A forest is built without looking for folders: the place of a folder is remembered when it is made.
Later nodes are put behind those that are there, so that a place goes on leading to its folder
(`place?_alter_concat_file`, `place?_alter_concat_folder`). So what is remembered of a forest is the
place of every folder in it and of nothing else (`Builder.Remembers`), every place can be gone to,
and the forest is the one that files make which are put in by its structure (`ofFiles_spec`).
-/

namespace OpenApiClient

namespace FileTree

open Text (joinStrings)

/-- The position of the first folder of a name. -/
def position? (dir : String) : List FileTree → Option Nat
  | [] => none
  | .file _ _ _ :: rest => (position? dir rest).map (· + 1)
  | .folder _ name _ :: rest => if name = dir then some 0 else (position? dir rest).map (· + 1)

/-- The place of the folder that names lead to. -/
def place? : List String → List FileTree → Option (List Nat)
  | [], _ => some []
  | dir :: dirs, forest =>
    (position? dir forest).bind fun i => (place? dirs (inside dir forest)).map (i :: ·)

section Position

variable {path dir : String} {change : List FileTree → List FileTree} {forest : List FileTree}

theorem position?_concat_file (name : String) (forest : List FileTree)
    (path file content : String) :
    position? name (forest ++ [.file path file content]) = position? name forest := by
  fun_induction position? name forest with simp_all [position?]

theorem inside_concat_folder (name : String) (forest : List FileTree) (path dir : String) :
    inside name (forest ++ [.folder path dir []]) = inside name forest := by
  fun_induction inside name forest with simp_all [inside]

/-- A folder that is changed stays where it is, and a new one stands at the end. -/
theorem position?_inFolder (name : String) (forest : List FileTree) :
    position? name (inFolder path dir change forest) =
      if name = dir then some ((position? dir forest).getD forest.length)
      else position? name forest := by
  fun_induction inFolder path dir change forest with
  | case1 => simp only [position?, eq_comm, Option.map_none, Option.getD_none, List.length_nil]
  | case2 p file content rest ih =>
    simp only [position?, ih]
    split_ifs
    · cases position? dir rest <;> rfl
    · rfl
  | case3 p children rest =>
    by_cases hname : name = dir
    · simp [position?, hname]
    · simp [position?, hname]
  | case4 p other children rest hne ih =>
    simp only [position?, ih, if_neg hne]
    by_cases hname : name = dir
    · subst hname
      rw [if_neg hne, if_pos rfl, if_pos rfl]
      cases position? name rest <;> rfl
    · simp only [if_neg hname]

theorem position?_inFolder_of_some {i : Nat} (h : position? dir forest = some i) (name : String) :
    position? name (inFolder path dir change forest) = position? name forest := by
  rw [position?_inFolder, h]
  split_ifs with hname
  · exact hname ▸ h.symm
  · rfl

theorem inside_of_none (h : position? dir forest = none) : inside dir forest = [] := by
  fun_induction inside dir forest with simp_all [position?]

theorem inFolder_of_none (h : position? dir forest = none) :
    inFolder path dir change forest = forest ++ [.folder path dir (change [])] := by
  fun_induction inFolder path dir change forest with simp_all [position?]

theorem position?_concat_folder (h : position? dir forest = none) (name : String) :
    position? name (forest ++ [.folder path dir []]) =
      if name = dir then some forest.length else position? name forest := by
  have hmade : forest ++ [.folder path dir []] = inFolder path dir id forest := by
    rw [inFolder_of_none h, id]
  rw [hmade, position?_inFolder, h, Option.getD_none]

/-- What is changed in a folder is changed at its position. -/
theorem exists_inFolder_eq_set {i : Nat} (h : position? dir forest = some i) :
    ∃ p, forest[i]? = some (.folder p dir (inside dir forest)) ∧
      ∀ path change, inFolder path dir change forest =
        forest.set i (.folder p dir (change (inside dir forest))) := by
  induction forest generalizing i with
  | nil => simp [position?] at h
  | cons t rest ih =>
    cases t with
    | file p file content =>
      rw [position?] at h
      obtain ⟨j, hj, rfl⟩ := Option.map_eq_some_iff.mp h
      obtain ⟨q, hget, hset⟩ := ih hj
      refine ⟨q, hget, fun path change => ?_⟩
      rw [inFolder, hset, List.set_cons_succ]
      rfl
    | folder p name children =>
      by_cases hname : name = dir
      · subst hname
        rw [position?, if_pos rfl, Option.some.injEq] at h
        subst h
        exact ⟨p, by simp [inside], fun path change => by simp [inFolder, inside]⟩
      · rw [position?, if_neg hname] at h
        obtain ⟨j, hj, rfl⟩ := Option.map_eq_some_iff.mp h
        obtain ⟨q, hget, hset⟩ := ih hj
        simp only [inside, if_neg hname]
        refine ⟨q, hget, fun path change => ?_⟩
        rw [inFolder, if_neg hname, hset, List.set_cons_succ]

theorem inFolder_congr {f g : List FileTree → List FileTree}
    (h : f (inside dir forest) = g (inside dir forest)) :
    inFolder path dir f forest = inFolder path dir g forest := by
  fun_induction inside dir forest with simp_all [inFolder]

theorem inFolder_inFolder (f g : List FileTree → List FileTree) (forest : List FileTree) :
    inFolder path dir f (inFolder path dir g forest) = inFolder path dir (f ∘ g) forest := by
  fun_induction inFolder path dir g forest with simp_all [inFolder]

end Position

/-! ## Changes at a place -/

variable {dirs : List String} {forest : List FileTree} {place : List Nat}

theorem exists_of_place?_cons {dir : String} (h : place? (dir :: dirs) forest = some place) :
    ∃ i inner, position? dir forest = some i ∧ place? dirs (inside dir forest) = some inner ∧
      i :: inner = place := by
  obtain ⟨i, hi, h⟩ := Option.bind_eq_some_iff.mp h
  obtain ⟨inner, hinner, hplace⟩ := Option.map_eq_some_iff.mp h
  exact ⟨i, inner, hi, hinner, hplace⟩

/-- The place of names goes on from the place of the names before them. -/
theorem place?_append (h : place? dirs forest = some place) (rest : List String) :
    place? (dirs ++ rest) forest = (place? rest (childrenAt dirs forest)).map (place ++ ·) := by
  induction dirs generalizing forest place with
  | nil =>
    obtain rfl : [] = place := Option.some.inj h
    simp [childrenAt]
  | cons dir dirs ih =>
    obtain ⟨i, inner, hi, hinner, rfl⟩ := exists_of_place?_cons h
    rw [List.cons_append, place?, hi, Option.bind_some, ih hinner, Option.map_map]
    rfl

theorem place?_singleton (dir : String) (forest : List FileTree) :
    place? [dir] forest = (position? dir forest).map ([·]) := by
  rw [place?, Option.map_eq_bind]
  rfl

theorem position?_childrenAt {dir : String} (h : place? dirs forest = some place)
    (hdir : place? (dirs ++ [dir]) forest = none) :
    position? dir (childrenAt dirs forest) = none := by
  rwa [place?_append h, Option.map_eq_none_iff, place?_singleton, Option.map_eq_none_iff] at hdir

/-- A node is put at the end of the folder that a place leads to. -/
theorem append?_of_place? (node : FileTree) (parent : String)
    (h : place? dirs forest = some place) :
    append? node place forest =
      some (alter (· ++ [node]) parent dirs forest, (childrenAt dirs forest).length) := by
  induction dirs generalizing parent forest place with
  | nil =>
    obtain rfl : [] = place := Option.some.inj h
    rfl
  | cons dir dirs ih =>
    obtain ⟨i, inner, hi, hinner, rfl⟩ := exists_of_place?_cons h
    obtain ⟨path, hget, hset⟩ := exists_inFolder_eq_set hi
    simp only [append?, hget, ih (pathIn parent dir) hinner, Option.map_some, alter, hset,
      childrenAt]

/-- After a change in a folder, other folders are found from there as the change says. -/
theorem place?_alter_append (change : List FileTree → List FileTree) (parent : String)
    (h : place? dirs forest = some place) (rest : List String) :
    place? (dirs ++ rest) (alter change parent dirs forest) =
      (place? rest (change (childrenAt dirs forest))).map (place ++ ·) := by
  induction dirs generalizing parent forest place with
  | nil =>
    obtain rfl : [] = place := Option.some.inj h
    simp [childrenAt, alter]
  | cons dir dirs ih =>
    obtain ⟨i, inner, hi, hinner, rfl⟩ := exists_of_place?_cons h
    rw [List.cons_append, alter, place?, position?_inFolder_of_some hi, hi, Option.bind_some,
      inside_inFolder, if_pos rfl, ih (pathIn parent dir) hinner, Option.map_map]
    rfl

/-- Places that do not go through the folder of a change are as before. -/
theorem place?_alter_elsewhere (change : List FileTree → List FileTree) (parent : String)
    (h : place? dirs forest = some place) {names : List String} (hnames : ¬ dirs <+: names) :
    place? names (alter change parent dirs forest) = place? names forest := by
  induction dirs generalizing parent forest place names with
  | nil => exact absurd names.nil_prefix hnames
  | cons dir dirs ih =>
    obtain ⟨i, inner, hi, hinner, rfl⟩ := exists_of_place?_cons h
    cases names with
    | nil => rfl
    | cons name names =>
      rw [alter, place?, place?, position?_inFolder_of_some hi, inside_inFolder]
      split_ifs with hname
      · subst hname
        have hrest : ¬ dirs <+: names := by
          intro hrest
          exact hnames (List.cons_prefix_cons.mpr ⟨rfl, hrest⟩)
        rw [ih (pathIn parent name) hinner hrest]
      · rfl

theorem place?_concat_file (names : List String) (forest : List FileTree)
    (path file content : String) :
    place? names (forest ++ [.file path file content]) = place? names forest := by
  cases names with
  | nil => rfl
  | cons name names => rw [place?, place?, position?_concat_file, inside_concat_file]

/-- A folder that is put at the end has a place of its own, and all others stay where they are. -/
theorem place?_concat_folder {dir : String} (h : position? dir forest = none) (names : List String)
    (path : String) :
    place? names (forest ++ [.folder path dir []]) =
      if names = [dir] then some [forest.length] else place? names forest := by
  cases names with
  | nil => simp [place?]
  | cons name names =>
    rw [place?, place?, position?_concat_folder h, inside_concat_folder]
    by_cases hname : name = dir
    · subst hname
      rw [if_pos rfl, h, inside_of_none h]
      cases names <;> simp [place?, position?]
    · simp [hname]

/-- **Frame.** A file that is put in leaves every folder at its place. -/
theorem place?_alter_concat_file (parent : String) (h : place? dirs forest = some place)
    (names : List String) (path file content : String) :
    place? names (alter (· ++ [.file path file content]) parent dirs forest) =
      place? names forest := by
  by_cases hnames : dirs <+: names
  · -- in the folder itself, the file stands behind all folders
    obtain ⟨rest, rfl⟩ := hnames
    rw [place?_alter_append _ parent h, place?_concat_file, place?_append h]
  · exact place?_alter_elsewhere _ parent h hnames

theorem place?_alter_concat_folder (parent : String) (h : place? dirs forest = some place)
    {dir : String} (hdir : place? (dirs ++ [dir]) forest = none) (names : List String)
    (path : String) :
    place? names (alter (· ++ [.folder path dir []]) parent dirs forest) =
      if names = dirs ++ [dir] then some (place ++ [(childrenAt dirs forest).length])
      else place? names forest := by
  have hnone : position? dir (childrenAt dirs forest) = none := position?_childrenAt h hdir
  by_cases hnames : dirs <+: names
  · obtain ⟨rest, rfl⟩ := hnames
    rw [place?_alter_append _ parent h, place?_concat_folder hnone, place?_append h]
    simp only [List.append_cancel_left_eq]
    split_ifs <;> rfl
  · rw [place?_alter_elsewhere _ parent h hnames, if_neg]
    rintro rfl
    exact hnames (List.prefix_append dirs [dir])

/-! ## Folders on the way -/

/-- Nothing is made on a way that is there. -/
theorem alter_id (parent : String) (h : place? dirs forest = some place) :
    alter id parent dirs forest = forest := by
  induction dirs generalizing parent forest place with
  | nil => rfl
  | cons dir dirs ih =>
    obtain ⟨i, inner, hi, hinner, rfl⟩ := exists_of_place?_cons h
    obtain ⟨path, hget, hset⟩ := exists_inFolder_eq_set hi
    obtain ⟨hlt, hget⟩ := List.getElem?_eq_some_iff.mp hget
    rw [alter, hset, ih (pathIn parent dir) hinner, ← hget, List.set_getElem_self]

/-- Folders that are made before a change in the last of them are the ones that the change makes. -/
theorem alter_alter_id (change : List FileTree → List FileTree) (rest : List String) :
    ∀ (dirs : List String) (parent : String) (forest : List FileTree),
      alter change parent (dirs ++ rest) (alter id parent dirs forest) =
        alter change parent (dirs ++ rest) forest
  | [], _, _ => rfl
  | dir :: dirs, parent, forest => by
    have ih := alter_alter_id change rest dirs (pathIn parent dir)
    simp only [List.cons_append, alter, inFolder_inFolder]
    exact congrArg (inFolder (pathIn parent dir) dir · forest) (funext ih)

/-- A folder that is not there is made at the end. -/
theorem alter_concat_folder {dir : String} (parent : String) (h : place? dirs forest = some place)
    (hdir : position? dir (childrenAt dirs forest) = none) :
    alter (· ++ [.folder ((dirs ++ [dir]).foldl pathIn parent) dir []]) parent dirs forest =
      alter id parent (dirs ++ [dir]) forest := by
  induction dirs generalizing parent forest place with
  | nil =>
    rw [childrenAt] at hdir
    rw [List.nil_append, alter, alter, inFolder_of_none hdir]
    rfl
  | cons first dirs ih =>
    obtain ⟨i, inner, hi, hinner, rfl⟩ := exists_of_place?_cons h
    exact inFolder_congr (ih (pathIn parent first) hinner hdir)

theorem foldl_pathIn (dirs : List String) (h : ∀ s ∈ dirs, IsName s) :
    dirs.foldl pathIn "" = joinStrings "/" dirs := by
  induction dirs using List.reverseRecOn with
  | nil => rfl
  | append_singleton dirs dir ih =>
    have hdirs : ∀ s ∈ dirs, IsName s := fun s hs => h s (List.mem_append_left [dir] hs)
    rw [List.foldl_concat, ih hdirs, pathIn_joinStrings hdirs]

/-- Different names lead to different paths. -/
theorem eq_of_foldl_pathIn {names : List String} (hnames : ∀ s ∈ names, IsName s)
    (hne : names ≠ []) (hdirs : ∀ s ∈ dirs, IsName s) (hne' : dirs ≠ [])
    (h : names.foldl pathIn "" = dirs.foldl pathIn "") : names = dirs := by
  rw [foldl_pathIn names hnames, foldl_pathIn dirs hdirs] at h
  rw [← splitString_of_isName hne hnames, h, splitString_of_isName hne' hdirs]

namespace Builder

/-! ## What is remembered -/

/-- The place that is remembered of a path is the place of the folder. -/
def Remembers (b : Builder) : Prop :=
  ∀ dirs : List String, dirs ≠ [] → (∀ s ∈ dirs, IsName s) →
    Entries.get? (dirs.foldl pathIn "") b.places = place? dirs b.forest

theorem remembers_empty : empty.Remembers := by
  intro dirs hne _
  cases dirs with
  | nil => exact absurd rfl hne
  | cons dir dirs => rfl

variable {b : Builder}

/-- A file that is put in leaves right what is remembered. -/
theorem Remembers.concat_file (hb : b.Remembers) (h : place? dirs b.forest = some place)
    (path file content : String) :
    Remembers { b with forest := alter (· ++ [.file path file content]) "" dirs b.forest } := by
  intro names hne hnames
  rw [place?_alter_concat_file "" h]
  exact hb names hne hnames

/-- A folder that is made is remembered. -/
theorem Remembers.concat_folder (hb : b.Remembers) (h : place? dirs b.forest = some place)
    {dir : String} (hdir : place? (dirs ++ [dir]) b.forest = none)
    (hnames : ∀ s ∈ dirs ++ [dir], IsName s) (path : String) :
    Remembers ⟨alter (· ++ [.folder path dir []]) "" dirs b.forest,
      ((dirs ++ [dir]).foldl pathIn "", place ++ [(childrenAt dirs b.forest).length]) ::
        b.places⟩ := by
  intro names hne hnames'
  rw [place?_alter_concat_folder "" h hdir, Entries.get?]
  by_cases heq : names = dirs ++ [dir]
  · rw [if_pos heq, if_pos (by rw [heq])]
  · rw [if_neg heq, if_neg, hb names hne hnames']
    intro hpath
    exact heq (eq_of_foldl_pathIn hnames' hne hnames (by simp) hpath.symm)

/-- The way down leads to the place of the folder. The folders on it that are not there are made,
and remembered. -/
theorem Remembers.descend? (hb : b.Remembers) (above dirs : List String)
    (hnames : ∀ s ∈ above ++ dirs, IsName s) (h : place? above b.forest = some place) :
    ∃ found made, descend? dirs (above.foldl pathIn "") place b = some (found, made) ∧
      made.Remembers ∧ made.forest = alter id "" (above ++ dirs) b.forest ∧
      place? (above ++ dirs) made.forest = some found := by
  induction dirs generalizing b above place with
  | nil =>
    rw [List.append_nil]
    exact ⟨place, b, rfl, hb, (alter_id "" h).symm, h⟩
  | cons dir dirs ih =>
    rw [List.append_cons] at hnames ⊢
    have hway : ∀ s ∈ above ++ [dir], IsName s := fun s hs =>
      hnames s (List.mem_append_left dirs hs)
    have hpath : pathIn (above.foldl pathIn "") dir = (above ++ [dir]).foldl pathIn "" := by
      rw [List.foldl_concat]
    have hplace := hb (above ++ [dir]) (by simp) hway
    rw [Builder.descend?, hpath]
    cases hknown : Entries.get? ((above ++ [dir]).foldl pathIn "") b.places with
    | some known => exact ih hb _ hnames (hplace.symm.trans hknown)
    | none =>
      -- a folder that is not remembered is not there
      have hdir : place? (above ++ [dir]) b.forest = none := hplace.symm.trans hknown
      have hmade := hb.concat_folder h hdir hway ((above ++ [dir]).foldl pathIn "")
      obtain ⟨found, made, hfound, hmade, hforest, hplace⟩ :=
        ih hmade _ hnames (by rw [place?_alter_concat_folder "" h hdir, if_pos rfl])
      refine ⟨found, made, ?_, hmade, ?_, hplace⟩
      · rw [append?_of_place? _ "" h]
        exact hfound
      · rw [hforest, alter_concat_folder "" h (position?_childrenAt h hdir), alter_alter_id]

/-- Every file that has a place is put in. -/
theorem Remembers.addFile? (hb : b.Remembers) (f : GeneratedFile) :
    ∃ added, b.addFile? f = some added ∧ added.Remembers ∧
      added.forest = insertFile b.forest f := by
  rcases List.eq_nil_or_concat' (namesIn f.path) with hnil | ⟨dirs, name, hsegments⟩
  · refine ⟨b, ?_, hb, (insertFile_of_nil hnil).symm⟩
    rw [Builder.addFile?, pathSegments_eq, hnil]
    rfl
  · have hdirs : ∀ s ∈ dirs, IsName s := isName_of_namesIn_eq hsegments
    obtain ⟨found, made, hfound, hmade, hforest, hplace⟩ :=
      hb.descend? [] dirs hdirs rfl
    rw [List.nil_append] at hforest hplace
    refine ⟨_, ?_, hmade.concat_file hplace f.path name f.content, ?_⟩
    · rw [Builder.addFile?, pathSegments_eq, hsegments, List.getLast?_concat, List.dropLast_concat]
      simp only [List.foldl_nil] at hfound
      simp only [hfound, Option.bind_some, append?_of_place? _ "" hplace, Option.map_some]
    · have hsame := alter_alter_id (· ++ [.file f.path name f.content]) [] dirs "" b.forest
      rw [List.append_nil] at hsame
      rw [insertFile_of_concat hsegments, hforest, hsame]

theorem Remembers.addFiles? (hb : b.Remembers) (files : List GeneratedFile) :
    ∃ added, b.addFiles? files = some added ∧ added.Remembers ∧
      added.forest = files.foldl insertFile b.forest := by
  induction files generalizing b with
  | nil => exact ⟨b, rfl, hb, rfl⟩
  | cons f files ih =>
    obtain ⟨added, hadded, hb, hforest⟩ := hb.addFile? f
    obtain ⟨built, hbuilt, hb, hforest'⟩ := ih hb
    refine ⟨built, ?_, hb, ?_⟩
    · rw [Builder.addFiles?, List.foldlM_cons, hadded]
      exact hbuilt
    · rw [hforest', hforest, List.foldl_cons]

end Builder

/-- **Trees of files.** Every place that is gone to while files are put in is there, so that a
forest comes out. It is the forest in which the files are put in one after another by its structure:
it has a leaf for every file that has a place, no two folders of one path, no empty folder, and its
nodes stand in the order in which they were met first. -/
theorem ofFiles_spec (files : List GeneratedFile) :
    (∃ built, Builder.empty.addFiles? files = some built ∧ ofFiles files = built.forest) ∧
    ofFiles files = inserted files ∧
    IsForestOf files (ofFiles files) := by
  obtain ⟨built, hbuilt, -, hforest⟩ := Builder.remembers_empty.addFiles? files
  have hof : ofFiles files = built.forest := by
    rw [ofFiles, hbuilt]
    rfl
  have hinserted : ofFiles files = inserted files := hof.trans hforest
  exact ⟨⟨built, hbuilt, hof⟩, hinserted, hinserted ▸ isForestOf_inserted files⟩

end FileTree

end OpenApiClient
