import OpenApiClient.Proofs.Document.Chains
import OpenApiClient.Proofs.Document.Normal

/-!
# Documents read again

What is written of a normal document has no reference in its paths, so that nothing is replaced in
it; its fields are texts already; it keeps the rules; and it is normal. So every pass of the reader
leaves it as it is, and the document is read again from what is written of it
(`IsNormal.ofJson_toJson`). That holds of every document that was read, and of every selection of
its operations (`ofJson_toJson_of_ofJson`).
-/

namespace OpenApiClient

theorem Entries.modify_eq_self {α : Type} {key : String} {f : α → α} :
    ∀ {entries : List (String × α)}, (∀ a, get? key entries = some a → f a = a) →
      modify key f entries = entries
  | [], _ => rfl
  | (k, a) :: rest, h => by
    by_cases hk : k = key
    · rw [modify, if_pos hk, h a (by rw [get?, if_pos hk])]
    · rw [modify, if_neg hk, modify_eq_self fun b hb => h b (by rw [get?, if_neg hk, hb])]

/-! ## References -/

namespace Inline

variable (components : List (String × Json))

theorem pointer?_parameter (p : Parameter) : pointer? p.toJson = none := by
  obtain ⟨name, location, required, schema, description⟩ := p
  cases schema <;> cases description <;> rfl

theorem pointer?_requestBody (b : RequestBody) : pointer? b.toJson = none := by
  obtain ⟨description, content, required⟩ := b
  cases description <;> rfl

theorem pointer?_response (r : Response) : pointer? r.toJson = none := by
  obtain ⟨description, content⟩ := r
  cases content <;> rfl

theorem parameters_eq_self {items : List Json} (h : ∀ v ∈ items, pointer? v = none) :
    parameters components (.arr items) = .arr items := by
  refine congrArg Json.arr ((List.filterMap_congr fun v hv => ?_).trans List.filterMap_some)
  exact resolve?_of_pointer? (h v hv)

theorem responses_eq_self {entries : List (String × Json)}
    (h : ∀ e ∈ entries, pointer? e.2 = none) :
    responses components (.obj entries) = .obj entries := by
  refine congrArg Json.obj ((List.filterMap_congr fun e he => ?_).trans List.filterMap_some)
  show (resolve? components "responses" e.2).map _ = _
  rw [resolve?_of_pointer? (h e he)]
  rfl

theorem parameters_toJson (ps : List Parameter) :
    parameters components (.arr (ps.map Parameter.toJson)) = .arr (ps.map Parameter.toJson) := by
  refine parameters_eq_self components fun v hv => ?_
  obtain ⟨p, -, rfl⟩ := List.mem_map.mp hv
  exact pointer?_parameter p

theorem responses_toJson (rs : List (String × Response)) :
    responses components (namedToJson Response.toJson rs) =
      namedToJson Response.toJson rs := by
  refine responses_eq_self components fun e he => ?_
  obtain ⟨r, -, rfl⟩ := List.mem_map.mp he
  exact pointer?_response r.2

theorem requestBody_eq_self {entries : List (String × Json)}
    (h : ∀ v, Entries.get? "requestBody" entries = some v → pointer? v = none) :
    requestBody components entries = entries := by
  unfold requestBody
  split
  next => rfl
  next v hv =>
    rw [resolve?_of_pointer? (h v hv)]
    refine Entries.modify_eq_self fun w hw => ?_
    exact Option.some.inj (hv.symm.trans hw)

theorem operation_eq_self {entries : List (String × Json)}
    (hparameters : ∀ v, Entries.get? "parameters" entries = some v → parameters components v = v)
    (hbody : ∀ v, Entries.get? "requestBody" entries = some v → pointer? v = none)
    (hresponses : ∀ v, Entries.get? "responses" entries = some v → responses components v = v) :
    operation components (.obj entries) = .obj entries := by
  show Json.obj (Entries.modify "responses" _ (requestBody components
    (Entries.modify "parameters" _ entries))) = _
  rw [Entries.modify_eq_self hparameters, requestBody_eq_self components hbody,
    Entries.modify_eq_self hresponses]

theorem operation_toJson (op : Operation) : operation components op.toJson = op.toJson := by
  obtain ⟨description, id, ps, body, rs, summary, tags, deprecated⟩ := op
  refine operation_eq_self components ?_ ?_ ?_
  · rintro v ⟨⟩
    exact parameters_toJson components ps
  · intro v hv
    cases body with
    | none => cases deprecated <;> cases hv
    | some b =>
      cases hv
      exact pointer?_requestBody b
  · intro v hv
    have hresponses : namedToJson Response.toJson rs = v := by
      cases body <;> exact Option.some.inj hv
    rw [← hresponses]
    exact responses_toJson components rs

theorem pathItem_eq_self {entries : List (String × Json)}
    (hparameters : ∀ v, Entries.get? "parameters" entries = some v → parameters components v = v)
    (hmethods : ∀ (m : Method) (v : Json), Entries.get? m.name entries = some v →
      operation components v = v) :
    pathItem components (.obj entries) = .obj entries := by
  show Json.obj (Method.all.foldl
    (fun entries m => Entries.modify m.name (operation components) entries)
      (Entries.modify "parameters" _ entries)) = _
  rw [Entries.modify_eq_self hparameters]
  exact congrArg Json.obj
    (List.foldl_fixed' (fun m => Entries.modify_eq_self (hmethods m)) Method.all)

theorem pathItem_toJson {item : PathItem} (h : item.parameters = []) :
    pathItem components item.toJson = item.toJson := by
  obtain ⟨ps, operations, _⟩ := item
  obtain rfl : ps = [] := h
  have hentry {key : String} {v : Json}
      (h : Entries.get? key (operations.map fun e => (e.1.name, e.2.toJson)) = some v) :
      ∃ (m : Method) (op : Operation), key = m.name ∧ v = op.toJson := by
    obtain ⟨e, -, he⟩ := List.mem_map.mp (Entries.mem_of_get? h)
    cases he
    exact ⟨e.1, e.2, rfl, rfl⟩
  refine pathItem_eq_self components (fun v hv => ?_) fun m v hv => ?_
  · obtain ⟨m, -, hm, -⟩ := hentry hv
    cases m <;> exact absurd hm (by decide)
  · obtain ⟨-, op, -, rfl⟩ := hentry hv
    exact operation_toJson components op

theorem document_toJson {d : Document} (h : ∀ p ∈ d.paths, p.2.parameters = []) :
    document d.toJson = d.toJson := by
  refine congrArg Json.obj (Entries.modify_eq_self fun v hv => ?_)
  obtain rfl : namedToJson PathItem.toJson d.paths = v := Option.some.inj hv
  refine congrArg Json.obj ((List.map_congr_left fun e he => ?_).trans (List.map_id _))
  obtain ⟨p, hp, rfl⟩ := List.mem_map.mp he
  exact congrArg (Prod.mk p.1) (pathItem_toJson _ (h p hp))

end Inline

/-! ## Rules -/

namespace Document

theorem versionBegins_of_append {head more version : String}
    (h : versionBegins (head ++ more) version = true) : versionBegins head version = true := by
  obtain ⟨rest, hrest⟩ := Option.isSome_iff_exists.mp h
  rw [Text.afterHead?_eq_some_iff, String.toList_append, List.append_assoc,
    ← Text.afterHead?_eq_some_iff] at hrest
  rw [versionBegins, hrest]
  rfl

theorem checkVersion_of_text {root : List (String × Json)} {version : String}
    (hget : Entries.get? "openapi" root = some (.str version))
    (h : (versionBegins "3.0." version || versionBegins "3.1." version) = true) :
    checkVersion root = .ok () := by
  have hmajor : versionBegins "3." version = true := by
    rcases Bool.or_eq_true_iff.mp h with hbegins | hbegins
    · exact @versionBegins_of_append "3." "0." version hbegins
    · exact @versionBegins_of_append "3." "1." version hbegins
  rw [checkVersion, hget]
  show (if !versionBegins "3." version then _
    else if !(versionBegins "3.0." version || versionBegins "3.1." version) then _ else _) = _
  rw [hmajor, h]
  rfl

theorem checkInfoField_of_text {fields : List (String × Json)} {field text : String}
    (hget : Entries.get? field fields = some (.str text)) (h : Text.isBlank text = false) :
    checkInfoField fields field = .ok () := by
  rw [checkInfoField, hget]
  show (if Text.isBlank text then _ else _) = _
  rw [h]
  rfl

theorem checkInfo_of_texts {root fields : List (String × Json)} {title release : String}
    (hget : Entries.get? "info" root = some (.obj fields))
    (hgetTitle : Entries.get? "title" fields = some (.str title))
    (hgetRelease : Entries.get? "version" fields = some (.str release))
    (htitle : Text.isBlank title = false) (hrelease : Text.isBlank release = false) :
    checkInfo root = .ok () := by
  rw [checkInfo, hget]
  show (checkInfoField fields "title" >>= fun _ => checkInfoField fields "version") = _
  rw [checkInfoField_of_text hgetTitle htitle]
  exact checkInfoField_of_text hgetRelease hrelease

theorem check_toJson {d : Document} (h : d.IsNormal) : check d.toJson = .ok () := by
  refine (bind_of_eq_ok (checkVersion_of_text rfl h.version) _).trans ?_
  exact bind_of_eq_ok (checkInfo_of_texts rfl rfl rfl h.title h.release) _

theorem textFields_toJson (d : Document) : textFields d.toJson = d.toJson := rfl

/-- A normal document is read again from what is written of it. -/
theorem IsNormal.ofJson_toJson {d : Document} (h : d.IsNormal) : ofJson d.toJson = .ok d := by
  -- Neither pass before the typed reading changes what is written.
  have htyped : readTyped (Inline.document (textFields d.toJson)) = .ok d := by
    rw [textFields_toJson, Inline.document_toJson fun p hp => (h.paths p hp).parameters]
    exact readTyped_toJson h.schemas
  rw [ofJson, check_toJson h]
  dsimp only
  rw [htyped]
  exact congrArg Except.ok h.normalize

/-- **Reading again.** A document that was read is read again from what is written of it, and so is
every selection of its operations. -/
theorem ofJson_toJson_of_ofJson {v : Json.Keyed} {d : Document} (h : ofJson v.json = .ok d) :
    ofJson d.toJson = .ok d ∧
      ∀ s : Selection, ofJson (d.select s).toJson = .ok (d.select s) := by
  have hnormal : d.IsNormal := isNormal_of_ofJson h
  exact ⟨hnormal.ofJson_toJson, fun s => (hnormal.select s).ofJson_toJson⟩

theorem ofJson_toJson_pets : ofJson petStore = .ok pets ∧ ofJson pets.toJson = .ok pets ∧
    ofJson (pets.select ⟨[], ["default"]⟩).toJson = .ok (pets.select ⟨[], ["default"]⟩) := by
  have hagain := ofJson_toJson_of_ofJson (v := ⟨petStore, by decide⟩) ofJson_petStore
  exact ⟨ofJson_petStore, hagain.1, hagain.2 _⟩

end Document

end OpenApiClient
