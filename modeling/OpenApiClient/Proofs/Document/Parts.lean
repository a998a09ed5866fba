import Mathlib.Data.List.Nodup
import OpenApiClient.Document.Wire
import OpenApiClient.Proofs.Document.Places
import OpenApiClient.Proofs.Schema.Written

/-!
# Parts of a document

Parameters, contents, bodies, responses, operations and paths are records of fields. For every one
of them there are two statements: all schemas in what is read are normal (`gives_read`), and a part
whose schemas are normal is read back from what is written of it (`read_toJson`). The operations of
a path are sorted on reading, which finds them in the order in which every path has them.
-/

namespace OpenApiClient

open Json (asText asFlag asList asMap asOptional asRecord readEntries readEntries_cons
  gives_asList gives_asMap gives_asOptional gives_asRecord)

section Entries

variable {α σ : Type} {enter : String → Json → σ → Json.Typed σ} {key : String}

/-- A part that may be missing is read back from its entry, and from none if it is missing. -/
theorem readEntries_entryOf {write : α → Json} (set : Option α → σ) {o : Option α}
    (h : ∀ a ∈ o, enter key (write a) (set none) = .ok (set (some a)))
    (rest : List (String × Json)) :
    readEntries enter (entryOf key write o ++ rest) (set none) =
      readEntries enter rest (set o) := by
  cases o with
  | none => rfl
  | some a => exact readEntries_cons (h a rfl) rest

/-- What is left out under a condition is read back if the condition says that it is there
already. -/
theorem readEntries_entryUnless {omitted : Bool} {v : Json} {s t : σ} (hs : omitted = true → s = t)
    (h : enter key v s = .ok t) (rest : List (String × Json)) :
    readEntries enter (entryUnless omitted key v ++ rest) s = readEntries enter rest t := by
  cases omitted with
  | true => rw [hs rfl]; rfl
  | false => exact readEntries_cons h rest

end Entries

def AllNormal (schemas : List Schema) : Prop :=
  ∀ s ∈ schemas, s.IsNormal

theorem allNormal_nil : AllNormal [] :=
  List.forall_mem_nil _

theorem allNormal_append {ss ts : List Schema} :
    AllNormal (ss ++ ts) ↔ AllNormal ss ∧ AllNormal ts :=
  List.forall_mem_append

theorem allNormal_flatMap {α : Type} {as : List α} {f : α → List Schema} :
    AllNormal (as.flatMap f) ↔ ∀ a ∈ as, AllNormal (f a) :=
  List.forall_mem_flatMap

theorem allNormal_toList {o : Option Schema} : AllNormal o.toList ↔ ∀ s ∈ o, s.IsNormal := by
  simp [AllNormal]

theorem asOptional_schema {o : Option Schema} (h : AllNormal o.toList) :
    ∀ s ∈ o, asOptional Schema.read s.toJson = .ok (some s) := by
  intro s hs
  obtain ⟨entries, hentries⟩ := s.exists_toJson
  rw [hentries]
  show (Schema.read (.obj entries)).map some = _
  rw [← hentries, Schema.read_toJson (allNormal_toList.mp h s hs)]
  rfl

/-! ## Parameters, bodies and responses -/

namespace Parameter

def allSchemas (p : Parameter) : List Schema :=
  p.schema.toList

theorem gives_read (v : Json) : Gives (fun p => AllNormal p.allSchemas) (read v) := by
  have henter (key : String) (v : Json) (d : Draft) (hd : AllNormal d.schema.toList) :
      Gives (fun d => AllNormal d.schema.toList) (enter key v d) := by
    unfold enter
    split
    case h_4 =>
      exact (gives_asOptional Schema.gives_read v).bind fun _ ho =>
        Gives.ok (allNormal_toList.mpr ho)
    case h_6 => exact Gives.ok hd
    all_goals exact Gives.bind_any fun _ => Gives.ok hd
  refine (gives_asRecord wireRecord henter ?_ v).bind fun d hd => ?_
  · exact allNormal_nil
  · exact Gives.bind_any fun name => Gives.bind_any fun location => Gives.ok hd

theorem asName_locationNames (l : Location) :
    Json.asName locationNames (.str l.name) = .ok l := by
  cases l <;> rfl

theorem read_toJson {p : Parameter} (h : AllNormal p.allSchemas) : read p.toJson = .ok p := by
  obtain ⟨name, location, required, schema, description⟩ := p
  have hdraft : asRecord wireRecord enter ⟨none, none, false, none, none⟩
      (toJson ⟨name, location, required, schema, description⟩) =
        .ok ⟨some name, some location, required, schema, description⟩ := by
    rw [toJson, List.append_assoc]
    refine (readEntries_cons rfl _).trans ?_
    refine (readEntries_cons (bind_of_eq_ok (asName_locationNames location) _) _).trans ?_
    refine (readEntries_cons rfl _).trans ?_
    refine (readEntries_entryOf (fun o => (⟨some name, some location, required, o, none⟩ : Draft))
      (fun s hs => bind_of_eq_ok (asOptional_schema h s hs) _) _).trans ?_
    rw [← List.append_nil (entryOf "description" _ _)]
    exact readEntries_entryOf
      (fun o => (⟨some name, some location, required, schema, o⟩ : Draft)) (fun _ _ => rfl) []
  rw [read, hdraft]
  rfl

theorem asList_toJson {ps : List Parameter} (h : ∀ p ∈ ps, AllNormal p.allSchemas) :
    asList read (.arr (ps.map toJson)) = .ok ps :=
  Json.asList_map fun p hp => read_toJson (h p hp)

end Parameter

namespace MediaType

def allSchemas (m : MediaType) : List Schema :=
  m.schema.toList

theorem gives_read (v : Json) : Gives (fun m => AllNormal m.allSchemas) (read v) := by
  have henter (key : String) (v : Json) (m : MediaType) (hm : AllNormal m.allSchemas) :
      Gives (fun m => AllNormal m.allSchemas) (enter key v m) := by
    unfold enter
    split
    · exact (gives_asOptional Schema.gives_read v).bind fun _ ho =>
        Gives.ok (allNormal_toList.mpr ho)
    · exact Gives.ok hm
  refine gives_asRecord wireRecord henter ?_ v
  exact allNormal_nil

theorem read_toJson {m : MediaType} (h : AllNormal m.allSchemas) : read m.toJson = .ok m := by
  rw [toJson, ← List.append_nil (entryOf _ _ _)]
  exact readEntries_entryOf MediaType.mk
    (fun s hs => bind_of_eq_ok (asOptional_schema h s hs) _) []

end MediaType

def contentSchemas (content : List (String × MediaType)) : List Schema :=
  content.flatMap fun (_, m) => m.allSchemas

theorem gives_contents (v : Json) :
    Gives (fun content => AllNormal (contentSchemas content)) (asMap MediaType.read v) :=
  (gives_asMap MediaType.gives_read v).mono fun _ h => allNormal_flatMap.mpr h

theorem asMap_contents {content : List (String × MediaType)}
    (h : AllNormal (contentSchemas content)) :
    asMap MediaType.read (namedToJson MediaType.toJson content) = .ok content :=
  Json.asMap_map fun p hp => MediaType.read_toJson (allNormal_flatMap.mp h p hp)

namespace RequestBody

def allSchemas (b : RequestBody) : List Schema :=
  contentSchemas b.content

theorem gives_read (v : Json) : Gives (fun b => AllNormal b.allSchemas) (read v) := by
  have henter (key : String) (v : Json) (b : RequestBody) (hb : AllNormal b.allSchemas) :
      Gives (fun b => AllNormal b.allSchemas) (enter key v b) := by
    unfold enter
    split
    case h_2 => exact (gives_contents v).bind fun _ h => Gives.ok h
    case h_4 => exact Gives.ok hb
    all_goals exact Gives.bind_any fun _ => Gives.ok hb
  refine gives_asRecord wireRecord henter ?_ v
  exact allNormal_nil

theorem read_toJson {b : RequestBody} (h : AllNormal b.allSchemas) : read b.toJson = .ok b := by
  obtain ⟨description, content, required⟩ := b
  refine (readEntries_entryOf (fun o => RequestBody.mk o [] false) (fun _ _ => rfl) _).trans ?_
  refine (readEntries_cons (bind_of_eq_ok (asMap_contents h) _) _).trans ?_
  exact readEntries_cons rfl []

end RequestBody

namespace Response

def allSchemas (r : Response) : List Schema :=
  contentSchemas r.content

theorem gives_read (v : Json) : Gives (fun r => AllNormal r.allSchemas) (read v) := by
  have henter (key : String) (v : Json) (r : Response) (hr : AllNormal r.allSchemas) :
      Gives (fun r => AllNormal r.allSchemas) (enter key v r) := by
    unfold enter
    split
    · exact Gives.bind_any fun _ => Gives.ok hr
    · exact (gives_contents v).bind fun _ h => Gives.ok h
    · exact Gives.ok hr
  refine gives_asRecord wireRecord henter ?_ v
  exact allNormal_nil

theorem read_toJson {r : Response} (h : AllNormal r.allSchemas) : read r.toJson = .ok r := by
  obtain ⟨description, content⟩ := r
  refine (readEntries_cons rfl _).trans ?_
  rw [← List.append_nil (entryUnless _ _ _)]
  refine readEntries_entryUnless ?_ (bind_of_eq_ok (asMap_contents h) _) []
  intro hempty
  have hcontent : content = [] := List.isEmpty_iff.mp hempty
  rw [hcontent]

end Response

/-! ## Operations -/

namespace Operation

def allSchemas (op : Operation) : List Schema :=
  op.parameters.flatMap Parameter.allSchemas ++
    op.requestBody.toList.flatMap RequestBody.allSchemas ++
    op.responses.flatMap fun (_, r) => r.allSchemas

theorem allNormal_allSchemas {op : Operation} : AllNormal op.allSchemas ↔
    (∀ p ∈ op.parameters, AllNormal p.allSchemas) ∧
      (∀ b ∈ op.requestBody, AllNormal b.allSchemas) ∧
        ∀ r ∈ op.responses, AllNormal r.2.allSchemas := by
  simp only [allSchemas, allNormal_append, allNormal_flatMap, Option.mem_toList, Option.mem_def,
    and_assoc]

theorem gives_read (v : Json) : Gives (fun op => AllNormal op.allSchemas) (read v) := by
  have henter (key : String) (v : Json) (op : Operation) (h : AllNormal op.allSchemas) :
      Gives (fun op => AllNormal op.allSchemas) (enter key v op) := by
    obtain ⟨hparameters, hbody, hresponses⟩ := allNormal_allSchemas.mp h
    unfold enter
    split
    case h_3 =>
      exact (gives_asList Parameter.gives_read v).bind fun _ hps =>
        Gives.ok (allNormal_allSchemas.mpr ⟨hps, hbody, hresponses⟩)
    case h_4 =>
      exact (gives_asOptional RequestBody.gives_read v).bind fun _ hb =>
        Gives.ok (allNormal_allSchemas.mpr ⟨hparameters, hb, hresponses⟩)
    case h_5 =>
      exact (gives_asMap Response.gives_read v).bind fun _ hrs =>
        Gives.ok (allNormal_allSchemas.mpr ⟨hparameters, hbody, hrs⟩)
    case h_9 => exact Gives.ok h
    all_goals exact Gives.bind_any fun _ => Gives.ok h
  refine gives_asRecord wireRecord henter ?_ v
  exact allNormal_nil

theorem read_toJson {op : Operation} (h : AllNormal op.allSchemas) : read op.toJson = .ok op := by
  obtain ⟨hparameters, hbody, hresponses⟩ := allNormal_allSchemas.mp h
  obtain ⟨description, id, parameters, body, responses, summary, tags, deprecated⟩ := op
  have hasBody : ∀ b ∈ body, asOptional RequestBody.read b.toJson = .ok (some b) :=
    fun b hb => congrArg (Except.map some) (RequestBody.read_toJson (hbody b hb))
  have hasResponses : asMap Response.read (namedToJson Response.toJson responses) =
      .ok responses :=
    Json.asMap_map fun r hr => Response.read_toJson (hresponses r hr)
  rw [toJson, List.append_assoc, List.append_assoc]
  refine (readEntries_cons rfl _).trans ?_
  refine (readEntries_cons rfl _).trans ?_
  refine (readEntries_cons (bind_of_eq_ok (Parameter.asList_toJson hparameters) _) _).trans ?_
  refine (readEntries_entryOf
    (fun o => Operation.mk description id parameters o [] "" [] false)
    (fun b hb => bind_of_eq_ok (hasBody b hb) _) _).trans ?_
  refine (readEntries_cons (bind_of_eq_ok hasResponses _) _).trans ?_
  refine (readEntries_cons rfl _).trans ?_
  refine (readEntries_cons (bind_of_eq_ok (Json.asTexts_map tags) _) _).trans ?_
  rw [← List.append_nil (entryUnless _ _ _)]
  refine readEntries_entryUnless ?_ rfl []
  intro hdeprecated
  cases deprecated with
  | false => rfl
  | true => cases hdeprecated

end Operation

/-! ## Paths -/

namespace PathItem

def allSchemas (item : PathItem) : List Schema :=
  item.parameters.flatMap Parameter.allSchemas ++
    item.operations.flatMap fun (_, op) => op.allSchemas

theorem allNormal_allSchemas {item : PathItem} : AllNormal item.allSchemas ↔
    (∀ p ∈ item.parameters, AllNormal p.allSchemas) ∧
      ∀ e ∈ item.operations, AllNormal e.2.allSchemas := by
  simp only [allSchemas, allNormal_append, allNormal_flatMap]

theorem mem_of_mem_sortOperations {operations : List (Method × Operation)}
    {e : Method × Operation} (h : e ∈ sortOperations operations) : e ∈ operations := by
  obtain ⟨m, -, hm⟩ := List.mem_filterMap.mp h
  obtain ⟨op, hop, rfl⟩ := Option.map_eq_some_iff.mp hm
  obtain ⟨before, after, rfl, -⟩ := List.lookup_eq_some_iff.mp hop
  simp

theorem sortOperations_operations (item : PathItem) :
    sortOperations item.operations = item.operations :=
  item.filterMap_lookup

theorem gives_read (v : Json) : Gives (fun item => AllNormal item.allSchemas) (read v) := by
  have henter (key : String) (v : Json) (d : Draft)
      (h : (∀ p ∈ d.parameters, AllNormal p.allSchemas) ∧
        ∀ e ∈ d.operations, AllNormal e.2.allSchemas) :
      Gives (fun d => (∀ p ∈ d.parameters, AllNormal p.allSchemas) ∧
        ∀ e ∈ d.operations, AllNormal e.2.allSchemas) (enter key v d) := by
    obtain ⟨hparameters, hoperations⟩ := h
    unfold enter
    split_ifs
    · exact (gives_asList Parameter.gives_read v).bind fun _ hps => Gives.ok ⟨hps, hoperations⟩
    · split
      · exact Gives.ok ⟨hparameters, hoperations⟩
      next m _ =>
        refine (gives_asOptional Operation.gives_read v).bind fun o ho => Gives.ok ?_
        refine ⟨hparameters, List.forall_mem_append.mpr ⟨?_, ?_⟩⟩
        · exact fun e he => hoperations e (List.mem_of_mem_filter he)
        · cases o with
          | none => exact nofun
          | some op => exact List.forall_mem_singleton.mpr (ho op rfl)
  have hempty : (∀ p ∈ ([] : List Parameter), AllNormal p.allSchemas) ∧
      ∀ e ∈ ([] : List (Method × Operation)), AllNormal e.2.allSchemas :=
    ⟨List.forall_mem_nil _, List.forall_mem_nil _⟩
  refine (gives_asRecord wireRecord henter hempty v).bind fun d hd => Gives.ok ?_
  exact allNormal_allSchemas.mpr
    ⟨hd.1, fun e he => hd.2 e (mem_of_mem_sortOperations he)⟩

theorem enter_method (m : Method) (v : Json) (d : Draft) : enter m.name v d = (do
    let op ← asOptional Operation.read v
    let others := d.operations.filter fun (other, _) => other ≠ m
    return { d with operations := others ++ (op.map fun op => (m, op)).toList }) := by
  cases m <;> rfl

/-- Operations of methods that differ are entered one after another. -/
theorem readEntries_operations (parameters : List Parameter) :
    ∀ {operations before : List (Method × Operation)},
      ((before ++ operations).map Prod.fst).Nodup →
      (∀ e ∈ operations, AllNormal e.2.allSchemas) →
        readEntries enter (operations.map fun (m, op) => (m.name, op.toJson))
          ⟨parameters, before⟩ = .ok ⟨parameters, before ++ operations⟩
  | [], before, _, _ => by
    rw [List.append_nil]
    rfl
  | (m, op) :: rest, before, hnodup, h => by
    rw [List.forall_mem_cons] at h
    have hop : asOptional Operation.read op.toJson = .ok (some op) :=
      congrArg (Except.map some) (Operation.read_toJson h.1)
    -- No earlier operation is replaced, as none has the method.
    have hbefore : (before.filter fun (other, _) => other ≠ m) = before := by
      rw [List.filter_eq_self]
      intro e he
      rw [List.map_append, List.nodup_append] at hnodup
      have hne := hnodup.2.2 e.1 (List.mem_map_of_mem he) m List.mem_cons_self
      simpa using hne
    have henter : enter m.name op.toJson ⟨parameters, before⟩ =
        .ok ⟨parameters, before ++ [(m, op)]⟩ := by
      rw [enter_method, hop]
      show Except.ok (Draft.mk parameters
        ((before.filter fun (other, _) => other ≠ m) ++ [(m, op)])) = _
      rw [hbefore]
    have happend : before ++ (m, op) :: rest = (before ++ [(m, op)]) ++ rest := by
      rw [List.append_assoc, List.singleton_append]
    rw [happend] at hnodup ⊢
    exact (readEntries_cons henter _).trans (readEntries_operations parameters hnodup h.2)

theorem read_toJson {item : PathItem} (h : AllNormal item.allSchemas) :
    read item.toJson = .ok item := by
  obtain ⟨hparameters, hoperations⟩ := allNormal_allSchemas.mp h
  have hdraft : asRecord wireRecord enter ⟨[], []⟩ item.toJson =
      .ok ⟨item.parameters, item.operations⟩ := by
    refine (readEntries_entryUnless (t := ⟨item.parameters, []⟩) ?_
      (bind_of_eq_ok (Parameter.asList_toJson hparameters) _) _).trans ?_
    · intro hempty
      rw [List.isEmpty_iff.mp hempty]
    · have hnodup : (([] ++ item.operations).map Prod.fst).Nodup := item.nodup_methods
      exact readEntries_operations item.parameters hnodup hoperations
  rw [read, hdraft]
  exact congrArg Except.ok (PathItem.ext rfl item.sortOperations_operations)

end PathItem

end OpenApiClient
