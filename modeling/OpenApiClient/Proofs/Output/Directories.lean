import Mathlib.Data.List.Induction
import OpenApiClient.Proofs.Output.Segments

/-!
# What writing does to a directory

In a directory that is a tree, whatever is found stands in a folder (`IsTree`), and so do all
folders around it (`IsTree.isFolder_of_append`). Making folders adds folders on the way that were
missing, and nothing else (`makeFolders_spec`). Writing a file puts it into its place and makes
folders on the way (`write_spec`); if it fails, it has at most made folders. A path finds what is at
its place if all places on the way are folders (`find?_eq_some_iff`).
-/

namespace OpenApiClient

namespace Place

def walk : Place → List String → List Place
  | _, [] => []
  | p, s :: rest => p.step s :: walk (p.step s) rest

def ofPath (path : String) : Place :=
  (stepsOf path).2.foldl step (stepsOf path).1

theorem walk_append (p : Place) (steps more : List String) :
    p.walk (steps ++ more) = p.walk steps ++ (steps.foldl step p).walk more := by
  induction steps generalizing p with
  | nil => rfl
  | cons s steps ih => rw [List.cons_append, walk, walk, ih, List.foldl_cons, List.cons_append]

/-- A place around one that is above the directory is above it as well. -/
theorem isAbove_of_concat {p : Place} {s : String} (h : (p ++ [s]).isAbove = true) :
    p.isAbove = true := by
  rcases Bool.or_eq_true_iff.mp h with hroot | hup
  · have hnil : p = [] := by
      have hlength := congrArg List.length (eq_of_beq hroot)
      rw [List.length_append] at hlength
      exact List.length_eq_zero_iff.mp (Nat.add_right_cancel hlength)
    rw [hnil]
    rfl
  · rw [List.all_append] at hup
    exact Bool.or_eq_true_iff.mpr (Or.inr (Bool.and_eq_true_iff.mp hup).1)

/-- A name that is a segment leads below the places above the directory. -/
theorem isAbove_concat_segment {s : String} (h : IsSegment s) (p : Place) :
    (p ++ [s]).isAbove = false := by
  rw [Bool.eq_false_iff]
  intro habove
  rcases Bool.or_eq_true_iff.mp habove with hroot | hup
  · have hname : s ∈ root := eq_of_beq hroot ▸ List.mem_concat_self
    rw [List.mem_singleton.mp hname] at h
    exact h.no_slash List.mem_cons_self
  · have hname := List.all_eq_true.mp hup s List.mem_concat_self
    exact h.ne_up (eq_of_beq hname)

/-- Steps that do not lead up stay below the place that they begin at. -/
theorem exists_foldl_step {steps : List String} (h : ".." ∉ steps) (p : Place) :
    ∃ more, steps.foldl step p = p ++ more := by
  induction steps generalizing p with
  | nil => exact ⟨[], (List.append_nil p).symm⟩
  | cons s steps ih =>
    obtain ⟨hs, hsteps⟩ := List.ne_and_not_mem_of_not_mem_cons h
    obtain ⟨more, hmore⟩ := ih hsteps (p.step s)
    rw [List.foldl_cons, hmore, step, if_neg (Ne.symm hs)]
    split_ifs
    · exact ⟨more, rfl⟩
    · exact ⟨s :: more, by rw [List.append_assoc]; rfl⟩

/-- Every place on a way that does not lead up is around the place at its end. -/
theorem isPrefix_of_mem_walk {steps : List String} (h : ".." ∉ steps) {p x : Place}
    (hx : x ∈ p.walk steps) : x <+: steps.foldl step p := by
  induction steps generalizing p with
  | nil => exact absurd hx List.not_mem_nil
  | cons s steps ih =>
    have hsteps := (List.ne_and_not_mem_of_not_mem_cons h).2
    rcases List.mem_cons.mp hx with rfl | hx
    · obtain ⟨more, hmore⟩ := exists_foldl_step hsteps (p.step s)
      exact ⟨more, hmore.symm⟩
    · exact ih hsteps hx

end Place

namespace Directory

variable {d d' : Directory} {p q : Place}

theorem isFolder_iff : d.isFolder p = true ↔ d.entry? p = some .folder :=
  beq_iff_eq

theorem entry?_of_isAbove (d : Directory) (h : p.isAbove = true) : d.entry? p = some .folder :=
  if_pos h

theorem lookup_filter_ne (entries : List (Place × Entry)) (h : q ≠ p) :
    (entries.filter fun (r, _) => r ≠ p).lookup q = entries.lookup q := by
  induction entries with
  | nil => rfl
  | cons e entries ih =>
    obtain ⟨r, entry⟩ := e
    by_cases hr : r = p
    · subst hr
      rw [List.filter_cons_of_neg (by simp), ih, List.lookup_cons, beq_false_of_ne h]
    · rw [List.filter_cons_of_pos (by simpa using hr), List.lookup_cons, List.lookup_cons, ih]

theorem entry?_put (d : Directory) (p q : Place) (e : Entry) :
    Directory.entry? (d.put p e) q =
      if q.isAbove then some .folder else if q = p then some e else d.entry? q := by
  rw [Directory.entry?, Directory.entry?]
  split_ifs with habove heq
  · rfl
  · rw [heq, put, List.lookup_cons_self]
  · rw [put, List.lookup_cons, beq_false_of_ne heq]
    exact lookup_filter_ne d.entries heq

theorem entry?_put_self (d : Directory) (h : p.isAbove = false) (e : Entry) :
    Directory.entry? (d.put p e) p = some e := by
  rw [entry?_put, h]
  exact if_pos rfl

theorem entry?_put_of_ne (d : Directory) (h : q ≠ p) (e : Entry) :
    Directory.entry? (d.put p e) q = d.entry? q := by
  rw [entry?_put, if_neg h]
  split_ifs with habove
  · exact (entry?_of_isAbove d habove).symm
  · rfl

/-! ## Trees -/

/-- Whether everything in a directory stands in a folder. -/
def IsTree (d : Directory) : Prop :=
  ∀ (p : Place) (s : String), d.entry? (p ++ [s]) ≠ none → d.isFolder p = true

theorem isTree_empty : empty.IsTree := by
  intro p s h
  have habove : (p ++ [s]).isAbove = true := by
    by_contra hbelow
    exact h (if_neg hbelow)
  rw [isFolder_iff, entry?_of_isAbove _ (Place.isAbove_of_concat habove)]

/-- Everything around an entry is a folder. -/
theorem IsTree.isFolder_of_append (h : d.IsTree) {more : List String} (hne : more ≠ [])
    (hentry : d.entry? (p ++ more) ≠ none) : d.isFolder p = true := by
  induction more using List.reverseRecOn with
  | nil => exact absurd rfl hne
  | append_singleton more s ih =>
    rw [← List.append_assoc] at hentry
    have hfolder := h _ s hentry
    cases more with
    | nil => rwa [List.append_nil] at hfolder
    | cons t more =>
      refine ih (List.cons_ne_nil t more) ?_
      rw [isFolder_iff.mp hfolder]
      exact Option.some_ne_none _

/-- Where there is no folder, something can be put into a folder. -/
theorem IsTree.put (h : d.IsTree) {s : String} (hp : d.isFolder p = true)
    (hplace : d.isFolder (p ++ [s]) = false) (e : Entry) : (d.put (p ++ [s]) e).IsTree := by
  intro x t hentry
  rw [isFolder_iff, entry?_put]
  split_ifs with habove heq
  · rfl
  · -- then there is something in `p ++ [s]`
    subst heq
    have hlength : p ++ [s] ++ [t] ≠ p ++ [s] := fun heq => by simp at heq
    rw [entry?_put_of_ne d hlength] at hentry
    rw [h _ t hentry] at hplace
    exact absurd hplace (by decide)
  · by_cases hlast : x ++ [t] = p ++ [s]
    · rw [(List.append_inj' hlast rfl).1]
      exact isFolder_iff.mp hp
    · rw [entry?_put_of_ne d hlast] at hentry
      exact isFolder_iff.mp (h x t hentry)

/-! ## Making folders -/

/-- Whether two directories are the same but for folders of the second one at some places, where the
first one has nothing. -/
def MadeFolders (places : List Place) (d d' : Directory) : Prop :=
  ∀ x, d'.entry? x = d.entry? x ∨
    x ∈ places ∧ d.entry? x = none ∧ d'.entry? x = some .folder

namespace MadeFolders

variable {places more : List Place} {d'' : Directory}

theorem refl (places : List Place) (d : Directory) : MadeFolders places d d :=
  fun _ => Or.inl rfl

/-- Whatever there was is still there. -/
theorem entry?_eq (h : MadeFolders places d d') {e : Entry} (he : d.entry? p = some e) :
    d'.entry? p = some e := by
  rcases h p with heq | ⟨-, hnone, -⟩
  · exact heq.trans he
  · rw [he] at hnone
    cases hnone

theorem isFolder (h : MadeFolders places d d') (hp : d.isFolder p = true) :
    d'.isFolder p = true :=
  isFolder_iff.mpr (h.entry?_eq (isFolder_iff.mp hp))

/-- No file is new. -/
theorem entry?_of_file (h : MadeFolders places d d') {text : String}
    (he : d'.entry? p = some (.file text)) : d.entry? p = some (.file text) := by
  rcases h p with heq | ⟨-, -, hfolder⟩
  · exact heq.symm.trans he
  · rw [he] at hfolder
    cases hfolder

theorem put (hp : p.isAbove = false) (hnone : d.entry? p = none) :
    MadeFolders [p] d (d.put p .folder) := by
  intro x
  by_cases hx : x = p
  · subst hx
    exact Or.inr ⟨List.mem_cons_self, hnone, entry?_put_self d hp _⟩
  · exact Or.inl (entry?_put_of_ne d hx _)

theorem trans (h : MadeFolders places d d') (h' : MadeFolders more d' d'') :
    MadeFolders (places ++ more) d d'' := by
  intro x
  rcases h' x with heq' | ⟨hmem, hnone, hfolder⟩
  · rcases h x with heq | ⟨hmem, hnone, hfolder⟩
    · exact Or.inl (heq'.trans heq)
    · exact Or.inr ⟨List.mem_append_left _ hmem, hnone, heq'.trans hfolder⟩
  · rcases h x with heq | ⟨-, -, hfolder'⟩
    · exact Or.inr ⟨List.mem_append_right _ hmem, heq.symm.trans hnone, hfolder⟩
    · rw [hfolder'] at hnone
      cases hnone

end MadeFolders

theorem step_of_isName {s : String} (h : isName s = true) (p : Place) : p.step s = p ++ [s] := by
  simp only [isName, Bool.and_eq_true, Bool.not_eq_true', bne_iff_ne] at h
  have hhere : (s == ".") = false := beq_false_of_ne h.1.1.1.2
  rw [Place.step, h.1.1.1.1, hhere, if_neg (by decide), if_neg h.1.1.2]

/-- Making folders adds what is missing on the way; if it succeeds, all places on the way are
folders, and the last of them is given. -/
theorem makeFolders_spec (steps : List String) (hd : d.IsTree) (hp : d.isFolder p = true) :
    (makeFolders p steps d).2.IsTree ∧
      MadeFolders (p.walk steps) d (makeFolders p steps d).2 ∧
      ∀ r, (makeFolders p steps d).1 = some r → r = steps.foldl Place.step p ∧
        (makeFolders p steps d).2.isFolder r = true ∧
        ∀ x ∈ p.walk steps, (makeFolders p steps d).2.isFolder x = true := by
  induction steps generalizing p d with
  | nil =>
    refine ⟨hd, MadeFolders.refl _ d, ?_⟩
    rintro r ⟨⟩
    exact ⟨rfl, hp, nofun⟩
  | cons s rest ih =>
    -- once `p.step s` is a folder of `d'`, the rest of the way is made from there
    have hrest {d' : Directory} (hd' : d'.IsTree) (hq : d'.isFolder (p.step s) = true)
        (hmade : MadeFolders [p.step s] d d') :
        (makeFolders (p.step s) rest d').2.IsTree ∧
          MadeFolders (p.walk (s :: rest)) d (makeFolders (p.step s) rest d').2 ∧
          ∀ r, (makeFolders (p.step s) rest d').1 = some r → r = (s :: rest).foldl Place.step p ∧
            (makeFolders (p.step s) rest d').2.isFolder r = true ∧
            ∀ x ∈ p.walk (s :: rest), (makeFolders (p.step s) rest d').2.isFolder x = true := by
      obtain ⟨htree, hgrown, hdone⟩ := ih hd' hq
      refine ⟨htree, hmade.trans hgrown, fun r hr => ?_⟩
      obtain ⟨heq, hfolder, hall⟩ := hdone r hr
      exact ⟨heq, hfolder, List.forall_mem_cons.mpr ⟨hgrown.isFolder hq, hall⟩⟩
    rw [makeFolders]
    rcases hq : d.entry? (p.step s) with _ | text | _
    · by_cases hname : isName s = true
      · have hbelow : (p.step s).isAbove = false := by
          rw [Bool.eq_false_iff]
          intro habove
          rw [entry?_of_isAbove d habove] at hq
          cases hq
        have hmissing : d.isFolder (p.step s) = false := by
          rw [isFolder, hq]
          rfl
        have htree : (d.put (p.step s) .folder).IsTree := by
          rw [step_of_isName hname] at hmissing ⊢
          exact hd.put hp hmissing .folder
        simp only [hname, if_true]
        exact hrest htree (isFolder_iff.mpr (entry?_put_self d hbelow _))
          (MadeFolders.put hbelow hq)
      · simp only [hname]
        exact ⟨hd, MadeFolders.refl _ d, nofun⟩
    · exact ⟨hd, MadeFolders.refl _ d, nofun⟩
    · exact hrest hd (isFolder_iff.mpr hq) (MadeFolders.refl _ d)

/-! ## Writing -/

theorem isFolder_start (d : Directory) (path : String) : d.isFolder (stepsOf path).1 = true := by
  rw [isFolder_iff, stepsOf]
  split
  · rfl
  · rfl

/-- The folder of a file that has a name is where all steps but the last lead to. -/
theorem folderSteps_concat {name : String} (h : IsSegment name) (steps : List String) :
    folderSteps (steps ++ [name]) = steps := by
  have hname : (name.isEmpty || name == ".") = false := by
    rw [Bool.or_eq_false_iff]
    constructor
    · rw [Bool.eq_false_iff]
      exact fun hempty => h.ne_empty (String.isEmpty_iff.mp hempty)
    · exact beq_false_of_ne h.ne_here
  rw [folderSteps, List.reverse_concat, List.dropWhile_cons, hname]
  exact List.reverse_reverse steps

/-- A directory stays a tree, whatever is written. -/
theorem IsTree.write (hd : d.IsTree) (path content : String) :
    (d.write path content).2.IsTree := by
  rcases hpath : stepsOf path with ⟨start, steps⟩
  have hstart : d.isFolder start = true := by
    have hfolder := d.isFolder_start path
    rwa [hpath] at hfolder
  obtain ⟨htree, -, hdone⟩ := makeFolders_spec (folderSteps steps) hd hstart
  rw [Directory.write, hpath]
  dsimp only
  rcases hresult : makeFolders start (folderSteps steps) d with ⟨_ | r, d₁⟩
  · rw [hresult] at htree
    exact htree
  · rw [hresult] at htree hdone
    have hfolder := (hdone r rfl).2.1
    dsimp only
    split_ifs with hwrite
    · have hplace := (Bool.and_eq_true_iff.mp hwrite).2
      exact htree.put hfolder ((Bool.not_eq_true' _).mp hplace) _
    · exact htree

/-- What files are written into is a tree. -/
theorem isTree_ofFiles (files : List (String × String)) : (ofFiles files).IsTree := by
  have hwritten : ∀ (files : List (String × String)) {d : Directory}, d.IsTree →
      (files.foldl (fun d f => (d.write f.1 f.2).2) d).IsTree := by
    intro files
    induction files with
    | nil => exact fun hd => hd
    | cons f files ih => exact fun hd => ih (hd.write f.1 f.2)
  exact hwritten files isTree_empty

/-- What becomes of a directory when a file is written: after a failure there are at most more
folders on the way; else the file is in its place, where no folder was, and everything on the way is
a folder. -/
theorem write_spec {path : String} {start : Place} {steps : List String} {name : String}
    (hd : d.IsTree) (hpath : stepsOf path = (start, steps ++ [name])) (hname : IsSegment name)
    (content : String) :
    ((d.write path content).1 = false →
      MadeFolders (start.walk steps) d (d.write path content).2) ∧
    ((d.write path content).1 = true → ∃ d₁, MadeFolders (start.walk steps) d d₁ ∧
      (∀ x ∈ start.walk steps, d₁.isFolder x = true) ∧
      d₁.isFolder (steps.foldl Place.step start ++ [name]) = false ∧
      (d.write path content).2 =
        d₁.put (steps.foldl Place.step start ++ [name]) (.file content)) := by
  have hstart : d.isFolder start = true := by
    have hfolder := d.isFolder_start path
    rwa [hpath] at hfolder
  have hmade := makeFolders_spec steps hd hstart
  rw [write, hpath]
  dsimp only
  rw [folderSteps_concat hname, List.getLast?_concat, Option.getD_some]
  rcases hresult : makeFolders start steps d with ⟨_ | r, d₁⟩
  · rw [hresult] at hmade
    exact ⟨fun _ => hmade.2.1, nofun⟩
  · rw [hresult] at hmade
    obtain ⟨-, hgrown, hdone⟩ := hmade
    obtain ⟨rfl, -, hall⟩ := hdone r rfl
    dsimp only
    split_ifs with hwrite
    · refine ⟨nofun, fun _ => ⟨d₁, hgrown, hall, ?_, rfl⟩⟩
      simpa using (Bool.and_eq_true_iff.mp hwrite).2
    · exact ⟨fun _ => hgrown, nofun⟩

/-! ## Finding -/

theorem locate?_concat_eq_some_iff {steps : List String} {s : String} :
    d.locate? p (steps ++ [s]) = some q ↔
      (d.isFolder p = true ∧ ∀ x ∈ p.walk steps, d.isFolder x = true) ∧
        q = (steps.foldl Place.step p).step s := by
  induction steps generalizing p with
  | nil =>
    rw [List.nil_append, locate?, locate?, Place.walk]
    by_cases hp : d.isFolder p = true
    · rw [if_pos hp, Option.some.injEq, eq_comm]
      simp [hp]
    · rw [if_neg hp]
      simp [hp]
  | cons t steps ih =>
    rw [List.cons_append, locate?]
    by_cases hp : d.isFolder p = true
    · rw [if_pos hp, ih, Place.walk, List.forall_mem_cons, List.foldl_cons]
      simp only [hp, true_and]
    · rw [if_neg hp]
      simp [hp]

/-- Steps lead to where they led before if all folders are still there. -/
theorem locate?_of_isFolder (h : ∀ x, d.isFolder x = true → d'.isFolder x = true)
    {steps : List String} (hq : d.locate? p steps = some q) : d'.locate? p steps = some q := by
  induction steps generalizing p with
  | nil => exact hq
  | cons s steps ih =>
    rw [locate?] at hq ⊢
    by_cases hp : d.isFolder p = true
    · rw [if_pos hp] at hq
      rw [if_pos (h p hp)]
      exact ih hq
    · rw [if_neg hp] at hq
      cases hq

/-- A path finds what is at its place if everything on the way is a folder, and nothing if not. -/
theorem find?_eq_some_iff {path : String} {start : Place} {steps : List String} {name : String}
    (hpath : stepsOf path = (start, steps ++ [name])) (hname : IsSegment name) {e : Entry} :
    d.find? path = some e ↔ (∀ x ∈ start.walk steps, d.isFolder x = true) ∧
      d.entry? (steps.foldl Place.step start ++ [name]) = some e := by
  have hstart : d.isFolder start = true := by
    have hfolder := d.isFolder_start path
    rwa [hpath] at hfolder
  rw [find?, hpath]
  dsimp only
  rw [Option.bind_eq_some_iff]
  constructor
  · rintro ⟨q, hq, he⟩
    obtain ⟨⟨-, hall⟩, rfl⟩ := locate?_concat_eq_some_iff.mp hq
    rw [hname.step] at he
    exact ⟨hall, he⟩
  · rintro ⟨hall, he⟩
    refine ⟨_, locate?_concat_eq_some_iff.mpr ⟨⟨hstart, hall⟩, rfl⟩, ?_⟩
    rwa [hname.step]

end Directory

end OpenApiClient
