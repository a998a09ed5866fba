import OpenApiClient.Proofs.Document.Parts
import OpenApiClient.Proofs.Json.Keys

/-!
# Documents before their normal form

What a document says about itself, its tags, its components and the document as a whole, read and
written as the parts of a document are: `Document.gives_readTyped`, `Document.readTyped_toJson`.
-/

namespace OpenApiClient

open Json (asText asList asMap asOptional asRecord readEntries readEntries_cons gives_asList
  gives_asMap gives_asOptional gives_asRecord)

namespace Info

theorem read_toJson (i : Info) : read i.toJson = .ok i := by
  obtain ⟨title, version, description⟩ := i
  have hdraft : asRecord wireRecord enter ⟨none, none, none⟩
      (toJson ⟨title, version, description⟩) = .ok ⟨some title, some version, description⟩ := by
    refine (readEntries_cons rfl _).trans ?_
    refine (readEntries_cons rfl _).trans ?_
    rw [← List.append_nil (entryOf _ _ _)]
    exact readEntries_entryOf (fun o => Draft.mk (some title) (some version) o) (fun _ _ => rfl) []
  rw [read, hdraft]
  rfl

end Info

namespace Tag

theorem read_toJson (t : Tag) : read t.toJson = .ok t := by
  obtain ⟨name, description⟩ := t
  have hdraft : asRecord wireRecord enter ⟨none, none⟩ (toJson ⟨name, description⟩) =
      .ok ⟨some name, description⟩ := by
    refine (readEntries_cons rfl _).trans ?_
    rw [← List.append_nil (entryOf _ _ _)]
    exact readEntries_entryOf (fun o => Draft.mk (some name) o) (fun _ _ => rfl) []
  rw [read, hdraft]
  rfl

end Tag

namespace Components

def allSchemas (c : Components) : List Schema :=
  c.schemas.map Prod.snd ++ (c.parameters.flatMap fun (_, p) => p.allSchemas) ++
    (c.requestBodies.flatMap fun (_, b) => b.allSchemas) ++
    c.responses.flatMap fun (_, r) => r.allSchemas

structure HasNormalParts (c : Components) : Prop where
  schemas : ∀ p ∈ c.schemas, p.2.IsNormal
  parameters : ∀ p ∈ c.parameters, AllNormal p.2.allSchemas
  requestBodies : ∀ p ∈ c.requestBodies, AllNormal p.2.allSchemas
  responses : ∀ p ∈ c.responses, AllNormal p.2.allSchemas

theorem allNormal_allSchemas {c : Components} : AllNormal c.allSchemas ↔ c.HasNormalParts := by
  have hschemas : AllNormal (c.schemas.map Prod.snd) ↔ ∀ p ∈ c.schemas, p.2.IsNormal :=
    List.forall_mem_map
  rw [allSchemas, allNormal_append, allNormal_append, allNormal_append, allNormal_flatMap,
    allNormal_flatMap, allNormal_flatMap, hschemas]
  constructor
  · rintro ⟨⟨⟨hs, hps⟩, hbs⟩, hrs⟩
    exact ⟨hs, hps, hbs, hrs⟩
  · rintro ⟨hs, hps, hbs, hrs⟩
    exact ⟨⟨⟨hs, hps⟩, hbs⟩, hrs⟩

theorem gives_read (v : Json) : Gives (fun c => AllNormal c.allSchemas) (read v) := by
  have henter (key : String) (v : Json) (c : Components) (h : c.HasNormalParts) :
      Gives HasNormalParts (enter key v c) := by
    unfold enter
    split
    · exact (gives_asMap Schema.gives_read v).bind fun _ hs => Gives.ok { h with schemas := hs }
    · exact (gives_asMap Parameter.gives_read v).bind fun _ hs =>
        Gives.ok { h with parameters := hs }
    · exact (gives_asMap RequestBody.gives_read v).bind fun _ hs =>
        Gives.ok { h with requestBodies := hs }
    · exact (gives_asMap Response.gives_read v).bind fun _ hs =>
        Gives.ok { h with responses := hs }
    · exact Gives.ok h
  have hdraft : HasNormalParts ⟨[], [], [], []⟩ := by
    constructor <;> exact nofun
  exact (gives_asRecord wireRecord henter hdraft v).mono fun _ => allNormal_allSchemas.mpr

/-- A section is read back from its entry, and from none if it is empty. -/
theorem readEntries_sectionEntry {α : Type} {read : Json → Json.Typed α} {write : α → Json}
    {key : String} {parts : List (String × α)} {s t : Components}
    (h : ∀ p ∈ parts, read (write p.2) = .ok p.2) (hempty : parts = [] → s = t)
    (henter : asMap read (namedToJson write parts) = .ok parts →
      enter key (namedToJson write parts) s = .ok t) (rest : List (String × Json)) :
    readEntries enter (sectionEntry key write parts ++ rest) s = readEntries enter rest t :=
  readEntries_entryUnless (fun hp => hempty (List.isEmpty_iff.mp hp)) (henter (Json.asMap_map h))
    rest

theorem read_toJson {c : Components} (h : AllNormal c.allSchemas) : read c.toJson = .ok c := by
  obtain ⟨hs, hps, hbs, hrs⟩ := allNormal_allSchemas.mp h
  obtain ⟨schemas, parameters, bodies, responses⟩ := c
  rw [toJson, List.append_assoc, List.append_assoc,
    ← List.append_nil (sectionEntry "responses" _ _)]
  refine (readEntries_sectionEntry (t := ⟨schemas, [], [], []⟩)
    (fun p hp => Schema.read_toJson (hs p hp)) ?_ (fun h => bind_of_eq_ok h _) _).trans ?_
  · rintro ⟨⟩
    rfl
  refine (readEntries_sectionEntry (t := ⟨schemas, parameters, [], []⟩)
    (fun p hp => Parameter.read_toJson (hps p hp)) ?_ (fun h => bind_of_eq_ok h _) _).trans ?_
  · rintro ⟨⟩
    rfl
  refine (readEntries_sectionEntry (t := ⟨schemas, parameters, bodies, []⟩)
    (fun p hp => RequestBody.read_toJson (hbs p hp)) ?_ (fun h => bind_of_eq_ok h _) _).trans ?_
  · rintro ⟨⟩
    rfl
  refine readEntries_sectionEntry
    (fun p hp => Response.read_toJson (hrs p hp)) ?_ (fun h => bind_of_eq_ok h _) []
  · rintro ⟨⟩
    rfl

end Components

namespace Document

/-- The schemas of a document: those in its paths, then those of its components. -/
def allSchemas (d : Document) : List Schema :=
  (d.paths.flatMap fun (_, item) => item.allSchemas) ++
    d.components.toList.flatMap Components.allSchemas

theorem allNormal_allSchemas {d : Document} : AllNormal d.allSchemas ↔
    (∀ p ∈ d.paths, AllNormal p.2.allSchemas) ∧
      ∀ c ∈ d.components, AllNormal c.allSchemas := by
  simp only [allSchemas, allNormal_append, allNormal_flatMap, Option.mem_toList, Option.mem_def]

theorem gives_readTyped (v : Json) : Gives (fun d => AllNormal d.allSchemas) (readTyped v) := by
  have henter (key : String) (v : Json) (d : Draft)
      (h : (∀ p ∈ d.paths, AllNormal p.2.allSchemas) ∧
        ∀ c ∈ d.components, AllNormal c.allSchemas) :
      Gives (fun d => (∀ p ∈ d.paths, AllNormal p.2.allSchemas) ∧
        ∀ c ∈ d.components, AllNormal c.allSchemas) (enter key v d) := by
    unfold enter
    split
    case h_3 =>
      exact (gives_asMap PathItem.gives_read v).bind fun _ hps => Gives.ok ⟨hps, h.2⟩
    case h_4 =>
      exact (gives_asOptional Components.gives_read v).bind fun _ hc => Gives.ok ⟨h.1, hc⟩
    case h_6 => exact Gives.ok h
    all_goals exact Gives.bind_any fun _ => Gives.ok h
  refine (gives_asRecord wireRecord henter ?_ v).bind fun d hd => ?_
  · exact ⟨nofun, nofun⟩
  · refine Gives.bind_any fun version => Gives.bind_any fun info => Gives.ok ?_
    exact allNormal_allSchemas.mpr
      ⟨Entries.forall_mem_ofList (P := fun p : PathItem => AllNormal p.allSchemas) hd.1, hd.2⟩

theorem readTyped_toJson {d : Document} (h : AllNormal d.allSchemas) :
    readTyped d.toJson = .ok d := by
  obtain ⟨hpaths, hcomponents⟩ := allNormal_allSchemas.mp h
  obtain ⟨version, info, paths, components, tags, hdistinct⟩ := d
  have hasPaths : asMap PathItem.read (namedToJson PathItem.toJson paths) = .ok paths :=
    Json.asMap_map fun p hp => PathItem.read_toJson (hpaths p hp)
  have hasComponents : ∀ c ∈ components, asOptional Components.read c.toJson = .ok (some c) :=
    fun c hc => congrArg (Except.map some) (Components.read_toJson (hcomponents c hc))
  have hasTags : asList Tag.read (.arr (tags.map Tag.toJson)) = .ok tags :=
    Json.asList_map fun t _ => t.read_toJson
  have hdraft : asRecord wireRecord enter ⟨none, none, [], none, []⟩
      (toJson ⟨version, info, paths, components, tags, hdistinct⟩) =
        .ok ⟨some version, some info, paths, components, tags⟩ := by
    rw [toJson, List.append_assoc, ← List.append_nil (entryUnless _ _ _)]
    refine (readEntries_cons rfl _).trans ?_
    refine (readEntries_cons (bind_of_eq_ok info.read_toJson _) _).trans ?_
    refine (readEntries_cons (bind_of_eq_ok hasPaths _) _).trans ?_
    refine (readEntries_entryOf (fun o => Draft.mk (some version) (some info) paths o [])
      (fun c hc => bind_of_eq_ok (hasComponents c hc) _) _).trans ?_
    refine readEntries_entryUnless ?_ (bind_of_eq_ok hasTags _) []
    intro hempty
    have htags : tags = [] := List.isEmpty_iff.mp hempty
    rw [htags]
  rw [readTyped, hdraft]
  exact congrArg Except.ok (Document.ext rfl rfl (Entries.ofList_of_nodup hdistinct) rfl rfl)

end Document

end OpenApiClient
