import OpenApiClient.Json.Typed
import OpenApiClient.Proofs.Gives

/-!
# Typed readings

What the readings of lists, named values and records give, in terms of the reading of their parts:
a property that each part has and that entering a field keeps is one of the whole
(`gives_asRecord`); a field of an object has the value that was entered under its key
(`gives_readEntries_field`); and what is written part by part is read back (`asList_map`,
`asMap_map`, `readEntries_cons`).
-/

namespace OpenApiClient.Json

variable {α β σ : Type} {read : Json → Typed α} {P : α → Prop}

theorem gives_within {r : Typed α} (h : Gives P r) (step : Step) : Gives P (within step r) := by
  cases r with
  | error e => exact Gives.error
  | ok a => exact h

theorem gives_readItems (h : ∀ v, Gives P (read v)) : ∀ (i : Nat) (items : List Json),
    Gives (fun as => ∀ a ∈ as, P a) (readItems read i items)
  | _, [] => Gives.ok nofun
  | i, v :: rest =>
    (gives_within (h v) (.item i)).bind fun _ ha =>
      (gives_readItems h (i + 1) rest).bind fun _ has =>
        Gives.ok (List.forall_mem_cons.mpr ⟨ha, has⟩)

theorem gives_asList (h : ∀ v, Gives P (read v)) (v : Json) :
    Gives (fun as => ∀ a ∈ as, P a) (asList read v) := by
  cases v with
  | arr items => exact gives_readItems h 0 items
  | _ => exact Gives.error

theorem gives_readNamed (h : ∀ v, Gives P (read v)) (entries : List (String × Json)) :
    Gives (fun parts => ∀ p ∈ parts, P p.2) (readNamed read entries) := by
  induction entries with
  | nil => exact Gives.ok nofun
  | cons e rest ih =>
    refine (gives_within (h e.2) (.key e.1)).bind fun a ha => ?_
    exact ih.bind fun as has => Gives.ok (List.forall_mem_cons.mpr ⟨ha, has⟩)

theorem gives_asMap (h : ∀ v, Gives P (read v)) (v : Json) :
    Gives (fun parts => ∀ p ∈ parts, P p.2) (asMap read v) := by
  cases v with
  | obj entries => exact gives_readNamed h entries
  | _ => exact Gives.error

theorem gives_asOptional (h : ∀ v, Gives P (read v)) (v : Json) :
    Gives (fun o => ∀ a ∈ o, P a) (asOptional read v) := by
  have hsome (v : Json) : Gives (fun o => ∀ a ∈ o, P a) ((read v).map some) :=
    Gives.map ((h v).mono fun a ha b hb => Option.some.inj hb ▸ ha)
  cases v with
  | null => exact Gives.ok nofun
  | _ => exact hsome _

/-! ## Records -/

section Records

variable {enter : String → Json → σ → Typed σ} {I : σ → Prop}

theorem gives_readEntries (h : ∀ key v s, I s → Gives I (enter key v s)) :
    ∀ (entries : List (String × Json)) {s : σ}, I s → Gives I (readEntries enter entries s)
  | [], _, hs => Gives.ok hs
  | (k, v) :: rest, s, hs =>
    (gives_within (h k v s hs) (.key k)).bind fun _ ht => gives_readEntries h rest ht

theorem gives_readPositions (h : ∀ key v s, I s → Gives I (enter key v s)) :
    ∀ (i : Nat) (names : List String) (items : List Json) {s : σ}, I s →
      Gives I (readPositions enter i names items s)
  | _, [], _, _, hs => Gives.ok hs
  | _, _ :: _, [], _, hs => Gives.ok hs
  | i, name :: names, v :: rest, s, hs =>
    (gives_within (h name v s hs) (.item i)).bind fun _ ht =>
      gives_readPositions h (i + 1) names rest ht

theorem gives_asRecord (r : Record) (h : ∀ key v s, I s → Gives I (enter key v s)) {draft : σ}
    (hdraft : I draft) (v : Json) : Gives I (asRecord r enter draft v) := by
  cases v with
  | obj entries => exact gives_readEntries h entries hdraft
  | arr items =>
    refine (gives_readPositions h 0 r.fields items hdraft).bind fun s hs => ?_
    exact Gives.bind_any fun _ => Gives.ok hs
  | _ => exact Gives.error

/-- What is required was entered. -/
theorem gives_require (name : String) (o : Option α) :
    Gives (fun a => o = some a) (require name o) := by
  cases o with
  | none => exact Gives.error
  | some a => exact Gives.ok rfl

variable {key : String} {field : σ → β} {Q : β → Prop}

theorem gives_readEntries_absent
    (hother : ∀ k v s, k ≠ key → Gives (fun t => field t = field s) (enter k v s)) :
    ∀ {entries : List (String × Json)} {s : σ}, key ∉ Entries.keys entries →
      Gives (fun t => field t = field s) (readEntries enter entries s)
  | [], _, _ => Gives.ok rfl
  | (k, v) :: rest, s, hkey => by
    simp only [Entries.keys, List.map_cons, List.mem_cons, not_or] at hkey
    refine (gives_within (hother k v s (Ne.symm hkey.1)) _).bind fun u hu => ?_
    exact (gives_readEntries_absent hother hkey.2).mono fun t ht => ht.trans hu

/-- If no key stands twice, a field has what its only entry says: the entries after it leave the
field as it is. -/
theorem gives_readEntries_field
    (hother : ∀ k v s, k ≠ key → Gives (fun t => field t = field s) (enter k v s))
    {v : Json} (hfield : ∀ s, Gives (fun t => Q (field t)) (enter key v s)) :
    ∀ {entries : List (String × Json)} {s : σ}, (Entries.keys entries).Nodup →
      Entries.get? key entries = some v →
        Gives (fun t => Q (field t)) (readEntries enter entries s)
  | [], _, _, hget => by cases hget
  | (k, w) :: rest, s, hnodup, hget => by
    obtain ⟨habsent, hrest⟩ := List.nodup_cons.mp hnodup
    by_cases hk : k = key
    · subst hk
      rw [Entries.get?, if_pos rfl] at hget
      cases hget
      refine (gives_within (hfield s) _).bind fun u hu => ?_
      exact (gives_readEntries_absent hother habsent).mono fun t ht => ht ▸ hu
    · rw [Entries.get?, if_neg hk] at hget
      exact Gives.bind_any fun u => gives_readEntries_field hother hfield hrest hget

/-- The same of a field that must have been entered, in the record that is made of all fields. -/
theorem gives_required_field {part : σ → Option β} {build : σ → Typed α} {get : α → β}
    (hother : ∀ k v s, k ≠ key → Gives (fun t => part t = part s) (enter k v s)) {v : Json}
    (hfield : ∀ s, Gives (fun t => ∀ b ∈ part t, Q b) (enter key v s))
    (hbuild : ∀ s, Gives (fun a => part s = some (get a)) (build s))
    {entries : List (String × Json)} {s : σ} (hnodup : (Entries.keys entries).Nodup)
    (hget : Entries.get? key entries = some v) :
    Gives (fun a => Q (get a)) (readEntries enter entries s >>= build) := by
  refine (gives_readEntries_field (Q := fun o => ∀ b ∈ o, Q b) hother hfield hnodup hget).bind
    fun t ht => ?_
  exact (hbuild t).mono fun a ha => ht (get a) ha

/-! ## Reading what was written -/

theorem readEntries_cons {k : String} {v : Json} {s t : σ} (h : enter k v s = .ok t)
    (rest : List (String × Json)) :
    readEntries enter ((k, v) :: rest) s = readEntries enter rest t := by
  rw [readEntries, h]
  rfl

end Records

variable {write : α → Json}

theorem readItems_map {as : List α} (h : ∀ a ∈ as, read (write a) = .ok a) (i : Nat) :
    readItems read i (as.map write) = .ok as := by
  induction as generalizing i with
  | nil => rfl
  | cons a as ih =>
    rw [List.forall_mem_cons] at h
    rw [List.map_cons, readItems, h.1, ih h.2]
    rfl

theorem asList_map {as : List α} (h : ∀ a ∈ as, read (write a) = .ok a) :
    asList read (.arr (as.map write)) = .ok as :=
  readItems_map h 0

theorem asMap_map {parts : List (String × α)} (h : ∀ p ∈ parts, read (write p.2) = .ok p.2) :
    asMap read (.obj (parts.map fun (name, a) => (name, write a))) = .ok parts := by
  show readNamed read _ = _
  induction parts with
  | nil => rfl
  | cons p parts ih =>
    rw [List.forall_mem_cons] at h
    rw [List.map_cons, readNamed, h.1, ih h.2]
    rfl

theorem asTexts_map (texts : List String) : asList asText (.arr (texts.map .str)) = .ok texts :=
  asList_map fun _ _ => rfl

end OpenApiClient.Json
