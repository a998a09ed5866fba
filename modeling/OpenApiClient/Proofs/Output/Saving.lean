import OpenApiClient.Proofs.Output.Ways

/-!
# Saving generated files

Writing a client below a folder is safe (`saveAll_safe`): every file ends up in its place, and no
other file is changed, nor any file that is to be kept. Nothing that is made for one file changes
what another one finds (`Wrote.find?_eq`), since no path goes on from another one.

Files that are there are found before any folder is made. So they are not kept if the way into the
folder leads up again after a folder that is missing (`overwrites_stepping_up`).
-/

namespace OpenApiClient

namespace Directory

variable {d d' : Directory} {base : String} {into : List String} {f g : GeneratedFile}

/-- Whether a way leads up again after a place where there is nothing. -/
def stepsUpFromNothing (d : Directory) : Place → List String → Bool
  | _, [] => false
  | p, s :: rest =>
    match d.entry? (p.step s) with
    | some .folder => d.stepsUpFromNothing (p.step s) rest
    | some (.file _) => false
    | none => rest.contains ".."

theorem stepsUpFromNothing_concat_empty (d : Directory) (p : Place) (steps : List String) :
    d.stepsUpFromNothing p (steps ++ [""]) = d.stepsUpFromNothing p steps := by
  induction steps generalizing p with
  | nil =>
    simp only [List.nil_append, stepsUpFromNothing]
    split <;> rfl
  | cons s steps ih =>
    rw [List.cons_append, stepsUpFromNothing, stepsUpFromNothing, ih]
    split
    · rfl
    · rfl
    · simp

theorem stepsUpFromNothing_of_isFolder {p : Place} {steps : List String}
    (h : ∀ x ∈ p.walk steps, d.isFolder x = true) : d.stepsUpFromNothing p steps = false := by
  induction steps generalizing p with
  | nil => rfl
  | cons s steps ih =>
    obtain ⟨hs, hsteps⟩ := List.forall_mem_cons.mp h
    rw [stepsUpFromNothing, isFolder_iff.mp hs]
    exact ih hsteps

def HasNoFile (d : Directory) (places : List Place) : Prop :=
  ∀ x ∈ places, ∀ text, d.entry? x ≠ some (.file text)

/-- What is missing on a way that does not lead up again is around the place at its end. -/
theorem isPrefix_of_missing {p x : Place} {steps : List String}
    (hup : d.stepsUpFromNothing p steps = false) (hfree : d.HasNoFile (p.walk steps))
    (hx : x ∈ p.walk steps) (hnone : d.entry? x = none) : x <+: steps.foldl Place.step p := by
  induction steps generalizing p with
  | nil => exact absurd hx List.not_mem_nil
  | cons s steps ih =>
    obtain ⟨hs, hsteps⟩ := List.forall_mem_cons.mp hfree
    rw [stepsUpFromNothing] at hup
    rcases hentry : d.entry? (p.step s) with _ | text | _
    · rw [hentry] at hup
      have hno : ".." ∉ steps := by simpa using hup
      rcases List.mem_cons.mp hx with rfl | hx
      · obtain ⟨more, hmore⟩ := Place.exists_foldl_step hno (p.step s)
        exact ⟨more, hmore.symm⟩
      · exact Place.isPrefix_of_mem_walk hno hx
    · exact absurd hentry (hs text)
    · rw [hentry] at hup
      rcases List.mem_cons.mp hx with rfl | hx
      · rw [hentry] at hnone
        cases hnone
      · exact ih hup hsteps hx

/-- If there is anything below the end of a way that does not lead up again, all of the way is
there. -/
theorem IsTree.isFolder_of_mem_walk (hd : d.IsTree) {p x : Place} {steps more : List String}
    (hup : d.stepsUpFromNothing p steps = false) (hfree : d.HasNoFile (p.walk steps))
    (hne : more ≠ []) (hentry : d.entry? (steps.foldl Place.step p ++ more) ≠ none)
    (hx : x ∈ p.walk steps) : d.isFolder x = true := by
  rcases hplace : d.entry? x with _ | text | _
  · obtain ⟨rest, hrest⟩ := isPrefix_of_missing hup hfree hx hplace
    rw [← hrest, List.append_assoc] at hentry
    exact hd.isFolder_of_append (List.append_ne_nil_of_right_ne_nil rest hne) hentry
  · exact absurd hplace (hfree x hx text)
  · exact isFolder_iff.mpr hplace

/-- A file is found if it is in its place. -/
theorem IsTree.find?_eq (hd : d.IsTree) (hf : f.LiesBelow base into)
    (hup : d.stepsUpFromNothing (stepsOf base).1 into = false)
    (hfree : d.HasNoFile ((stepsOf base).1.walk into)) :
    d.find? (f.target base) = d.entry? (f.place base) := by
  obtain ⟨front, name, hsegments, hfront, hname, hpath, hplace⟩ := hf.exists_way
  ext e
  rw [find?_eq_some_iff hpath hname, hplace]
  refine ⟨And.right, fun he => ⟨fun x hx => ?_, he⟩⟩
  have hentry : d.entry? (f.place base) ≠ none := he ▸ Option.some_ne_none e
  rw [hf.place_eq] at hentry
  rw [Place.walk_append] at hx
  rcases List.mem_append.mp hx with hx | hx
  · exact hd.isFolder_of_mem_walk hup hfree hf.ne_nil hentry hx
  · have hno : ".." ∉ front := fun hmem => (hfront _ hmem).ne_up rfl
    obtain ⟨rest, hrest⟩ := Place.isPrefix_of_mem_walk hno hx
    rw [foldl_step hfront] at hrest
    rw [hsegments, ← List.append_assoc, ← hrest, List.append_assoc] at hentry
    exact hd.isFolder_of_append (List.append_ne_nil_of_right_ne_nil rest (by simp)) hentry

/-! ## Writing one file -/

/-- What becomes of a directory when a generated file is written. -/
structure Wrote (base : String) (into : List String) (f : GeneratedFile) (d d' : Directory) :
    Prop where
  isTree : d'.IsTree
  entry : d'.entry? (f.place base) = some (.file f.content)
  way : ∀ x ∈ (stepsOf base).1.walk (into ++ (pathSegments f.path).dropLast),
    d'.isFolder x = true
  notFolder : d.isFolder (f.place base) = false
  others : ∀ x ≠ f.place base, d'.entry? x = d.entry? x ∨
    x ∈ (stepsOf base).1.walk (into ++ (pathSegments f.path).dropLast) ∧ d.entry? x = none ∧
      d'.entry? x = some .folder

theorem wrote_of_write (hd : d.IsTree) (hf : f.LiesBelow base into)
    (h : (d.write (f.target base) f.content).1 = true) :
    Wrote base into f d (d.write (f.target base) f.content).2 := by
  obtain ⟨front, name, hsegments, -, hname, hpath, hplace⟩ := hf.exists_way
  obtain ⟨d₁, hmade, hway, hfree, hput⟩ := (write_spec hd hpath hname f.content).2 h
  rw [hplace] at hfree hput
  have hbelow : (f.place base).isAbove = false := by
    rw [← hplace]
    exact Place.isAbove_concat_segment hname _
  have hdrop : (pathSegments f.path).dropLast = front := by
    rw [hsegments, List.dropLast_concat]
  constructor
  case isTree => exact hd.write _ _
  case entry =>
    rw [hput]
    exact entry?_put_self d₁ hbelow _
  case way =>
    intro x hx
    rw [hdrop] at hx
    have hne : x ≠ f.place base := by
      intro heq
      rw [← heq, hway x hx] at hfree
      cases hfree
    rw [hput, isFolder_iff, entry?_put_of_ne d₁ hne]
    exact isFolder_iff.mp (hway x hx)
  case notFolder =>
    rw [Bool.eq_false_iff]
    intro hfolder
    rw [hmade.isFolder hfolder] at hfree
    cases hfree
  case others =>
    intro x hne
    rw [hput, entry?_put_of_ne d₁ hne, hdrop]
    exact hmade x

theorem madeFolders_of_not_write (hd : d.IsTree) (hf : f.LiesBelow base into)
    (h : (d.write (f.target base) f.content).1 = false) :
    ∃ places, MadeFolders places d (d.write (f.target base) f.content).2 := by
  obtain ⟨front, name, -, -, hname, hpath, -⟩ := hf.exists_way
  exact ⟨_, (write_spec hd hpath hname f.content).1 h⟩

namespace Wrote

variable (h : Wrote base into f d d')
include h

theorem isFolder_of_mem_walk : ∀ x ∈ (stepsOf base).1.walk into, d'.isFolder x = true := by
  intro x hx
  refine h.way x ?_
  rw [Place.walk_append]
  exact List.mem_append_left _ hx

/-- No file stood in the way. -/
theorem hasNoFile : d.HasNoFile ((stepsOf base).1.walk into) := by
  intro x hx text htext
  have hfolder := isFolder_iff.mp (h.isFolder_of_mem_walk x hx)
  have hne : x ≠ f.place base := by
    intro heq
    rw [heq, h.entry] at hfolder
    cases hfolder
  rcases h.others x hne with heq | ⟨-, hnone, -⟩
  · rw [heq, htext] at hfolder
    cases hfolder
  · rw [htext] at hnone
    cases hnone

theorem entry?_of_ne {x : Place} {e : Entry} (hne : x ≠ f.place base)
    (hentry : d.entry? x = some e) : d'.entry? x = some e := by
  rcases h.others x hne with heq | ⟨-, hnone, -⟩
  · exact heq.trans hentry
  · rw [hentry] at hnone
    cases hnone

theorem isFolder {x : Place} (hx : d.isFolder x = true) : d'.isFolder x = true := by
  have hne : x ≠ f.place base := by
    intro heq
    rw [heq, h.notFolder] at hx
    cases hx
  exact isFolder_iff.mpr (h.entry?_of_ne hne (isFolder_iff.mp hx))

theorem entry?_of_file {x : Place} {text : String} (hentry : d'.entry? x = some (.file text)) :
    d.entry? x = some (.file text) ∨ x = f.place base ∧ text = f.content := by
  by_cases hx : x = f.place base
  · rw [hx, h.entry] at hentry
    cases hentry
    exact Or.inr ⟨hx, rfl⟩
  · rcases h.others x hx with heq | ⟨-, -, hfolder⟩
    · exact Or.inl (heq.symm.trans hentry)
    · rw [hentry] at hfolder
      cases hfolder

/-- What another file is looked up for is found as before. -/
theorem find?_eq (hd : d.IsTree) (hup : d.stepsUpFromNothing (stepsOf base).1 into = false)
    (hf : f.LiesBelow base into) (hg : g.LiesBelow base into)
    (hapart : ¬ pathSegments g.path <+: pathSegments f.path) :
    d'.find? (g.target base) = d.find? (g.target base) := by
  have hfolders := h.isFolder_of_mem_walk
  have hfree : d'.HasNoFile ((stepsOf base).1.walk into) := by
    intro x hx text htext
    rw [isFolder_iff.mp (hfolders x hx)] at htext
    cases htext
  rw [h.isTree.find?_eq hg (stepsUpFromNothing_of_isFolder hfolders) hfree,
    hd.find?_eq hg hup h.hasNoFile]
  have hne : g.place base ≠ f.place base := by
    rw [hf.place_eq, hg.place_eq]
    intro heq
    exact hapart (List.append_cancel_left heq ▸ List.prefix_rfl)
  rcases h.others _ hne with heq | ⟨hmem, hnone, -⟩
  · exact heq
  · rw [Place.walk_append] at hmem
    rcases List.mem_append.mp hmem with hmem | hmem
    · -- the place of `g` would be around the folder that `g` lies in
      have hbefore := isPrefix_of_missing hup h.hasNoFile hmem hnone
      rw [hg.place_eq] at hbefore
      have hlength := hbefore.length_le
      have hpos := List.length_pos_of_ne_nil hg.ne_nil
      rw [List.length_append] at hlength
      omega
    · obtain ⟨front, name, hsegments, hfront, -⟩ := hf.exists_way
      have hno : ".." ∉ front := fun hmem => (hfront _ hmem).ne_up rfl
      rw [hsegments, List.dropLast_concat] at hmem
      have hbefore := Place.isPrefix_of_mem_walk hno hmem
      rw [foldl_step hfront, hg.place_eq, List.prefix_append_right_inj] at hbefore
      rw [hsegments] at hapart
      exact absurd (hbefore.trans (List.prefix_append front [name])) hapart

end Wrote

/-! ## Writing all files -/

/-- Whether a file is left as it is, since something is found at its path and is to be kept. -/
def keeps (d : Directory) (base : String) (keep : Bool) (f : GeneratedFile) : Bool :=
  keep && (d.find? (f.target base)).isSome

/-- What a directory is after files were saved below a folder: every file that was not kept can be
read, and nothing else has changed but for more folders. -/
structure AfterSaving (d : Directory) (base : String) (keep : Bool) (files : List GeneratedFile)
    (d' : Directory) : Prop where
  read : ∀ f ∈ files, d.keeps base keep f = false → d'.read? (f.target base) = some f.content
  unchanged : ∀ (p : Place) (text : String), d.entry? p = some (.file text) →
    (keep = true ∨ ∀ f ∈ files, p ≠ f.place base) → d'.entry? p = some (.file text)
  folders : ∀ p : Place, d.isFolder p = true → d'.isFolder p = true
  origin : ∀ (p : Place) (text : String), d'.entry? p = some (.file text) →
    d.entry? p = some (.file text) ∨ ∃ f ∈ files, p = f.place base ∧ text = f.content

namespace AfterSaving

variable {keep : Bool} {files : List GeneratedFile} {d₁ : Directory}

theorem refl (base : String) (keep : Bool) (d : Directory) : d.AfterSaving base keep [] d :=
  ⟨nofun, fun _ _ hp _ => hp, fun _ hp => hp, fun _ _ hp => Or.inl hp⟩

theorem of_madeFolders {places : List Place} (h : MadeFolders places d d') (base : String)
    (keep : Bool) : d.AfterSaving base keep [] d' :=
  ⟨nofun, fun _ _ hp _ => h.entry?_eq hp, fun _ => h.isFolder,
    fun _ _ hp => Or.inl (h.entry?_of_file hp)⟩

theorem cons_kept (h : d.AfterSaving base keep files d') (hf : d.keeps base keep f = true) :
    d.AfterSaving base keep (f :: files) d' := by
  have hkeep : keep = true := (Bool.and_eq_true_iff.mp hf).1
  constructor
  case read =>
    intro g hg hkept
    rcases List.mem_cons.mp hg with rfl | hg
    · rw [hf] at hkept
      cases hkept
    · exact h.read g hg hkept
  case unchanged => exact fun p text hp _ => h.unchanged p text hp (Or.inl hkeep)
  case folders => exact h.folders
  case origin =>
    intro p text hp
    rcases h.origin p text hp with heq | ⟨g, hg, heq⟩
    · exact Or.inl heq
    · exact Or.inr ⟨g, List.mem_cons_of_mem f hg, heq⟩

/-- A way that leads up again is no obstacle if nothing is to be kept. -/
theorem cons_wrote (h : d₁.AfterSaving base keep files d') (hw : Wrote base into f d d₁)
    (hd : d.IsTree) (hf : f.LiesBelow base into) (hfiles : ∀ g ∈ files, g.LiesBelow base into)
    (hapart : ∀ g ∈ files, ¬ pathSegments g.path <+: pathSegments f.path)
    (hup : keep = true → d.stepsUpFromNothing (stepsOf base).1 into = false)
    (hkept : d.keeps base keep f = false) : d.AfterSaving base keep (f :: files) d' := by
  have hplaces : ∀ g ∈ files, f.place base ≠ g.place base := by
    intro g hg heq
    rw [hf.place_eq, (hfiles g hg).place_eq] at heq
    exact hapart g hg (List.append_cancel_left heq ▸ List.prefix_rfl)
  constructor
  case read =>
    intro g hg hkept'
    rcases List.mem_cons.mp hg with rfl | hg
    · have hentry := h.unchanged _ _ hw.entry (Or.inr hplaces)
      obtain ⟨front, name, hsegments, -, hname, hpath, hplace⟩ := hf.exists_way
      have hfind : d'.find? (g.target base) = some (.file g.content) := by
        rw [find?_eq_some_iff hpath hname, hplace]
        refine ⟨fun x hx => h.folders x (hw.way x ?_), hentry⟩
        rwa [hsegments, List.dropLast_concat]
      rw [read?, hfind]
    · refine h.read g hg ?_
      cases keep with
      | false => rfl
      | true =>
        have hfind := hw.find?_eq hd (hup rfl) hf (hfiles g hg) (hapart g hg)
        rw [keeps, hfind]
        exact hkept'
  case unchanged =>
    intro p text hp hor
    have hne : p ≠ f.place base := by
      rcases hor with rfl | hall
      · intro heq
        rw [keeps, hd.find?_eq hf (hup rfl) hw.hasNoFile, ← heq, hp] at hkept
        cases hkept
      · exact hall f List.mem_cons_self
    refine h.unchanged p text (hw.entry?_of_ne hne hp) (hor.imp_right fun hall g hg => ?_)
    exact hall g (List.mem_cons_of_mem f hg)
  case folders => exact fun p hp => h.folders p (hw.isFolder hp)
  case origin =>
    intro p text hp
    rcases h.origin p text hp with hp | ⟨g, hg, heq⟩
    · rcases hw.entry?_of_file hp with hp | heq
      · exact Or.inl hp
      · exact Or.inr ⟨f, List.mem_cons_self, heq⟩
    · exact Or.inr ⟨g, List.mem_cons_of_mem f hg, heq⟩

/-- If files are kept, whatever was found is found. -/
theorem find?_isSome (h : d.AfterSaving base true files d') {path : String}
    (hfind : (d.find? path).isSome = true) : (d'.find? path).isSome = true := by
  obtain ⟨e, he⟩ := Option.isSome_iff_exists.mp hfind
  rcases hpath : stepsOf path with ⟨start, steps⟩
  rw [find?, hpath] at he ⊢
  obtain ⟨q, hq, hentry⟩ := Option.bind_eq_some_iff.mp he
  have hbind : (d'.locate? start steps).bind d'.entry? = d'.entry? q := by
    rw [locate?_of_isFolder h.folders hq, Option.bind_some]
  dsimp only
  rw [hbind, Option.isSome_iff_exists]
  cases e with
  | file text => exact ⟨_, h.unchanged q text hentry (Or.inl rfl)⟩
  | folder => exact ⟨_, isFolder_iff.mp (h.folders q (isFolder_iff.mpr hentry))⟩

/-- Every file that was saved is found. -/
theorem keeps_self (h : d.AfterSaving base keep files d') (hf : f ∈ files) :
    d'.keeps base true f = true := by
  rw [keeps, Bool.true_and]
  by_cases hkept : d.keeps base keep f = true
  · obtain ⟨rfl, hfind⟩ := Bool.and_eq_true_iff.mp hkept
    exact h.find?_isSome hfind
  · have hread := h.read f hf (Bool.eq_false_iff.mpr hkept)
    rw [read?] at hread
    split at hread
    · next text heq =>
      rw [heq]
      rfl
    · cases hread

end AfterSaving

/-! The programs that save files, on a directory. -/

theorem run_save (d : Directory) (base : String) (keep : Bool) (f : GeneratedFile) :
    (f.save store base keep).run d =
      if d.keeps base keep f then (Saved.kept, d)
      else (if (d.write (f.target base) f.content).1 then Saved.written else Saved.failed,
        (d.write (f.target base) f.content).2) := by
  have hwrite (path text : String) :
      (store.write path text).run d = (pure (d.write path text) : Id _) := rfl
  have htaken (path : String) :
      (store.isTaken path).run d = (pure ((d.find? path).isSome, d) : Id _) := rfl
  rcases hresult : d.write (f.target base) f.content with ⟨_ | _, d'⟩ <;>
    cases keep <;> cases hfind : (d.find? (f.target base)).isSome <;>
      simp [GeneratedFile.save, hwrite, htaken, keeps, hresult, hfind] <;> rfl

variable {keep : Bool} {files : List GeneratedFile} {d₁ : Directory} {report : Option SaveReport}

theorem run_saveAll_failed (h : (f.save store base keep).run d = (Saved.failed, d₁)) :
    (saveAll store base keep (f :: files)).run d = (none, d₁) := by
  have h : (f.save store base keep).run d = (pure (Saved.failed, d₁) : Id _) := h
  simp [saveAll, h]
  rfl

theorem run_saveAll_written (h : (f.save store base keep).run d = (Saved.written, d₁))
    (hrest : (saveAll store base keep files).run d₁ = (report, d')) :
    (saveAll store base keep (f :: files)).run d =
      (report.map fun r => { r with written := f.path :: r.written }, d') := by
  have h : (f.save store base keep).run d = (pure (Saved.written, d₁) : Id _) := h
  have hrest : (saveAll store base keep files).run d₁ = (pure (report, d') : Id _) := hrest
  simp [saveAll, h, hrest]
  rfl

theorem run_saveAll_kept (h : (f.save store base keep).run d = (Saved.kept, d₁))
    (hrest : (saveAll store base keep files).run d₁ = (report, d')) :
    (saveAll store base keep (f :: files)).run d =
      (report.map fun r => { r with kept := f.path :: r.kept }, d') := by
  have h : (f.save store base keep).run d = (pure (Saved.kept, d₁) : Id _) := h
  have hrest : (saveAll store base keep files).run d₁ = (pure (report, d') : Id _) := hrest
  simp [saveAll, h, hrest]
  rfl

/-- Nothing is written where everything is found and kept. -/
theorem run_saveAll_of_keeps (h : ∀ f ∈ files, d.keeps base true f = true) :
    (saveAll store base true files).run d = (some ⟨[], files.map GeneratedFile.path⟩, d) := by
  induction files with
  | nil => rfl
  | cons f files ih =>
    obtain ⟨hf, hfiles⟩ := List.forall_mem_cons.mp h
    have hsave : (f.save store base true).run d = (Saved.kept, d) := by
      rw [run_save, if_pos hf]
    exact run_saveAll_kept hsave (ih hfiles)

def reportOf (d : Directory) (base : String) (keep : Bool) (files : List GeneratedFile) :
    SaveReport where
  written := (files.filter fun f => !d.keeps base keep f).map GeneratedFile.path
  kept := (files.filter fun f => d.keeps base keep f).map GeneratedFile.path

theorem Wrote.keeps_eq (h : Wrote base into f d d₁) (hd : d.IsTree)
    (hup : keep = true → d.stepsUpFromNothing (stepsOf base).1 into = false)
    (hf : f.LiesBelow base into) (hg : g.LiesBelow base into)
    (hapart : ¬ pathSegments g.path <+: pathSegments f.path) :
    d₁.keeps base keep g = d.keeps base keep g := by
  cases keep with
  | false => rw [keeps, keeps, Bool.false_and, Bool.false_and]
  | true => rw [keeps, keeps, h.find?_eq hd (hup rfl) hf hg hapart]

/-- Files are saved one after another, and the first that fails ends that. -/
theorem saveAll_spec (hd : d.IsTree) (hfiles : ∀ f ∈ files, f.LiesBelow base into)
    (hapart : files.Pairwise fun f g => ¬ pathSegments g.path <+: pathSegments f.path)
    (hup : keep = true → d.stepsUpFromNothing (stepsOf base).1 into = false) :
    (∀ r d', (saveAll store base keep files).run d = (some r, d') →
      d.AfterSaving base keep files d' ∧ r = d.reportOf base keep files) ∧
    ∀ d', (saveAll store base keep files).run d = (none, d') → ∃ before f after r d₁,
      files = before ++ f :: after ∧
      (saveAll store base keep before).run d = (some r, d₁) ∧
      (f.save store base keep).run d₁ = (Saved.failed, d') ∧
      d.AfterSaving base keep before d' := by
  induction files generalizing d with
  | nil =>
    have hrun : (saveAll store base keep []).run d = (some ⟨[], []⟩, d) := rfl
    rw [hrun]
    refine ⟨?_, nofun⟩
    rintro r d' ⟨⟩
    exact ⟨AfterSaving.refl base keep d, rfl⟩
  | cons f files ih =>
    obtain ⟨hf, hfiles⟩ := List.forall_mem_cons.mp hfiles
    obtain ⟨hfirst, hapart⟩ := List.pairwise_cons.mp hapart
    have hsave := run_save d base keep f
    by_cases hkept : d.keeps base keep f = true
    · rw [if_pos hkept] at hsave
      obtain ⟨hsuccess, hfailure⟩ := ih hd hfiles hapart hup
      rcases hrest : (saveAll store base keep files).run d with ⟨report, d'⟩
      rw [run_saveAll_kept hsave hrest]
      cases report with
      | some r =>
        obtain ⟨hafter, rfl⟩ := hsuccess r d' hrest
        refine ⟨?_, nofun⟩
        rintro r d' ⟨⟩
        refine ⟨hafter.cons_kept hkept, ?_⟩
        simp [reportOf, hkept]
      | none =>
        obtain ⟨before, g, after, r, d₁, rfl, hbefore, hg, hafter⟩ := hfailure d' hrest
        refine ⟨nofun, ?_⟩
        rintro d' ⟨⟩
        exact ⟨f :: before, g, after, _, d₁, rfl, run_saveAll_kept hsave hbefore, hg,
          hafter.cons_kept hkept⟩
    · rw [if_neg hkept] at hsave
      have hkept := Bool.eq_false_iff.mpr hkept
      rcases hwrite : d.write (f.target base) f.content with ⟨_ | _, d₁⟩
      · obtain ⟨places, hmade⟩ := madeFolders_of_not_write hd hf (by rw [hwrite])
        rw [hwrite] at hsave hmade
        rw [run_saveAll_failed hsave]
        refine ⟨nofun, ?_⟩
        rintro d' ⟨⟩
        exact ⟨[], f, files, _, d, rfl, rfl, hsave, AfterSaving.of_madeFolders hmade base keep⟩
      · have hw := wrote_of_write hd hf (by rw [hwrite])
        rw [hwrite] at hsave hw
        -- the run goes on in `d₁`, where the same files are kept as in `d`
        have hkeeps : ∀ g ∈ files, d₁.keeps base keep g = d.keeps base keep g :=
          fun g hg => hw.keeps_eq hd hup hf (hfiles g hg) (hfirst g hg)
        obtain ⟨hsuccess, hfailure⟩ := ih hw.isTree hfiles hapart fun _ =>
          stepsUpFromNothing_of_isFolder hw.isFolder_of_mem_walk
        rcases hrest : (saveAll store base keep files).run d₁ with ⟨report, d'⟩
        rw [run_saveAll_written hsave hrest]
        cases report with
        | some r =>
          obtain ⟨hafter, rfl⟩ := hsuccess r d' hrest
          refine ⟨?_, nofun⟩
          rintro r d' ⟨⟩
          refine ⟨hafter.cons_wrote hw hd hf hfiles hfirst hup hkept, ?_⟩
          have hwritten : (files.filter fun g => !d₁.keeps base keep g) =
              files.filter fun g => !d.keeps base keep g :=
            List.filter_congr fun g hg => by rw [hkeeps g hg]
          simp [reportOf, hkept, hwritten, List.filter_congr hkeeps]
        | none =>
          obtain ⟨before, g, after, r, d₂, rfl, hbefore, hg, hafter⟩ := hfailure d' hrest
          have hsubset : ∀ x ∈ before, x ∈ before ++ g :: after :=
            fun x hx => List.mem_append_left _ hx
          refine ⟨nofun, ?_⟩
          rintro d' ⟨⟩
          exact ⟨f :: before, g, after, _, d₂, rfl, run_saveAll_written hsave hbefore, hg,
            hafter.cons_wrote hw hd hf (fun x hx => hfiles x (hsubset x hx))
              (fun x hx => hfirst x (hsubset x hx)) hup hkept⟩

end Directory

namespace Client

variable {base : String} {into : List String}

theorem isApart_files (c : Config) (doc : Document) :
    (generate c doc).files.Pairwise fun f g =>
      ¬ pathSegments g.path <+: pathSegments f.path := by
  have hpaths := nodup_paths c doc
  rw [← map_path_files] at hpaths
  refine (List.pairwise_map.mp hpaths).imp_of_mem fun {f g} hf hg hne hbefore => hne ?_
  obtain ⟨names, hnames, hpath⟩ := exists_route_of_mem_files hf
  obtain ⟨others, hothers, hpath'⟩ := exists_route_of_mem_files hg
  rw [hpath, hpath', pathSegments_joinStrings hnames.ne_nil hnames.isSegment,
    pathSegments_joinStrings hothers.ne_nil hothers.isSegment] at hbefore
  rw [hpath, hpath', hothers.eq_of_isPrefix hnames hbefore]

/-- **Saving.** Whatever a directory holds, saving a client in it is safe, below any folder; if what
is there is to be kept, the way into that folder must not lead up again after a folder that is
missing. If it succeeds, every file has been written that was not kept, nothing else has changed,
and saving the client once more, keeping what is there, writes nothing. If it fails, it has saved
the files before the one that failed, and changed nothing else. -/
theorem saveAll_safe (c : Config) (doc : Document) (base : String) (keep : Bool) (d : Directory)
    (hd : d.IsTree)
    (hup : keep = true → d.stepsUpFromNothing (stepsOf base).1 (stepsOf base).2 = false) :
    (∀ r d', (saveAll Directory.store base keep (generate c doc).files).run d = (some r, d') →
      d.AfterSaving base keep (generate c doc).files d' ∧
      r = d.reportOf base keep (generate c doc).files ∧
      (saveAll Directory.store base true (generate c doc).files).run d' =
        (some ⟨[], (generate c doc).files.map GeneratedFile.path⟩, d')) ∧
    ∀ d', (saveAll Directory.store base keep (generate c doc).files).run d = (none, d') →
      ∃ before f after r d₁, (generate c doc).files = before ++ f :: after ∧
        (saveAll Directory.store base keep before).run d = (some r, d₁) ∧
        (f.save Directory.store base keep).run d₁ = (Saved.failed, d') ∧
        d.AfterSaving base keep before d' := by
  obtain ⟨into, hinto, hbelow⟩ := exists_stepsInto base
  have hfiles : ∀ f ∈ (generate c doc).files, f.LiesBelow base into := by
    intro f hf
    obtain ⟨names, hnames, hpath⟩ := exists_route_of_mem_files hf
    exact hbelow f names hnames hpath
  have hway : keep = true → d.stepsUpFromNothing (stepsOf base).1 into = false := by
    intro hkeep
    have hbase := hup hkeep
    rcases hinto with heq | heq
    · rwa [heq] at hbase
    · rwa [heq, Directory.stepsUpFromNothing_concat_empty] at hbase
  obtain ⟨hsuccess, hfailure⟩ := Directory.saveAll_spec hd hfiles (isApart_files c doc) hway
  refine ⟨fun r d' hrun => ?_, hfailure⟩
  obtain ⟨hafter, hreport⟩ := hsuccess r d' hrun
  refine ⟨hafter, hreport, Directory.run_saveAll_of_keeps fun f hf => ?_⟩
  exact hafter.keeps_self hf

/-- A document without anything but its title and its version. -/
def titleOnly : Document where
  version := "3.0.0"
  info := ⟨"T", "1", none⟩
  paths := []
  components := none
  tags := []

/-- A file of types that is there is kept, and the index is written next to it. -/
theorem saveAll_keeps_types :
    let c := { Config.standard with generateUtils := false }
    let d := Directory.ofFiles [("types.ts", "mine")]
    d.IsTree ∧ d.stepsUpFromNothing (stepsOf ".").1 (stepsOf ".").2 = false ∧
      ∃ d', (saveAll Directory.store "." true (generate c titleOnly).files).run d =
          (some ⟨["index.ts"], ["types.ts"]⟩, d') ∧
        d.AfterSaving "." true (generate c titleOnly).files d' ∧
        d'.read? "types.ts" = some "mine" := by
  intro c d
  have hd : d.IsTree := Directory.isTree_ofFiles _
  have hup : d.stepsUpFromNothing (stepsOf ".").1 (stepsOf ".").2 = false := by decide +kernel
  have hreport : ((saveAll Directory.store "." true (generate c titleOnly).files).run d).1 =
      some ⟨["index.ts"], ["types.ts"]⟩ := by decide +kernel
  have htypes : ((saveAll Directory.store "." true (generate c titleOnly).files).run d).2.read?
      "types.ts" = some "mine" := by decide +kernel
  rcases hrun : (saveAll Directory.store "." true (generate c titleOnly).files).run d with ⟨_, d'⟩
  rw [hrun] at hreport htypes
  obtain rfl := hreport
  exact ⟨hd, hup, d', rfl, ((saveAll_safe c titleOnly "." true d hd fun _ => hup).1 _ d' hrun).1,
    htypes⟩

/-- A file of types that is there is not kept if the way to it leads through a folder that is
missing. -/
theorem overwrites_stepping_up :
    let c := { Config.standard with generateIndex := false, generateUtils := false }
    let d := Directory.ofFiles [("types.ts", "mine")]
    let result := (saveAll Directory.store "new/.." true (generate c titleOnly).files).run d
    d.IsTree ∧ result.1 = some ⟨["types.ts"], []⟩ ∧
      d.entry? ["types.ts"] = some (.file "mine") ∧
      Directory.entry? result.2 ["types.ts"] ≠ some (.file "mine") := by
  intro c d result
  exact ⟨Directory.isTree_ofFiles _, by decide +kernel⟩

end Client

end OpenApiClient
